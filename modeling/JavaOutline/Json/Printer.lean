import JavaOutline.Json.Basic
import JavaOutline.Json.Text

/-!
JSON as text on several lines: one item or member a line, two spaces for each level. Empty arrays
and objects stay on their line. The layout is that of `serde_json::to_string_pretty`.
-/
namespace JavaOutline.Json

def newLine (level : Nat) : List Char :=
  '\n' :: List.replicate (2 * level) ' '

namespace Value

mutual

def write (level : Nat) : Value → List Char
  | .null => "null".toList
  | .bool true => "true".toList
  | .bool false => "false".toList
  | .number value => Nat.toDigits 10 value
  | .otherNumber written => written.toList
  | .string text => writeText text.toList
  | .array [] => "[]".toList
  | .array (first :: rest) =>
    '[' :: newLine (level + 1) ++ write (level + 1) first ++ writeItems (level + 1) rest ++
      newLine level ++ [']']
  | .object [] => "\x7b\x7d".toList
  | .object ((name, value) :: rest) =>
    '\x7b' :: newLine (level + 1) ++ writeText name.toList ++ ": ".toList ++
      write (level + 1) value ++ writeMembers (level + 1) rest ++ newLine level ++ ['\x7d']

def writeItems (level : Nat) : List Value → List Char
  | [] => []
  | item :: rest => ',' :: newLine level ++ write level item ++ writeItems level rest

def writeMembers (level : Nat) : List (String × Value) → List Char
  | [] => []
  | (name, value) :: rest =>
    ',' :: newLine level ++ writeText name.toList ++ ": ".toList ++ write level value ++
      writeMembers level rest

end

def render (value : Value) : String :=
  String.ofList (value.write 0)

end Value

end JavaOutline.Json
