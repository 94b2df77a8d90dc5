import JavaOutline.Settings.Basic
import JavaOutline.Yaml.Node

/-!
Settings from a YAML text: a mapping with a member for each setting that is given. Numbers and truth
values are written plainly, or as a literal with a tag that says so; what is left empty is an empty
list. It follows `parse_str`, with values as `serde_yaml` 0.9 tells them for the fields of `Config`.
-/
namespace JavaOutline.Settings

open JavaOutline.Yaml

def isOfType (type : String) (style : ScalarStyle) (tag : Option String) : Bool :=
  style = .plain || (style = .literal && tag = some ("tag:yaml.org,2002:" ++ type))

def digitOf? (base : Nat) (c : Char) : Option Nat :=
  (hexDigit? c).filter (· < base)

def number? (base : Nat) (digits : List Char) : Option Nat :=
  if digits.isEmpty then none
  else do
    let number ← digits.foldlM (fun number c => (digitOf? base c).map (number * base + ·)) 0
    if number < UInt64.size then some number else none

/-- A natural number: decimal without needless zeros, or with a base in front; a plus sign may come
first. -/
def natural? (text : String) : Option Nat :=
  let unsigned := match text.toList with
    | '+' :: rest => rest
    | all => all
  match unsigned with
  | '0' :: 'x' :: digits => number? 16 digits
  | '0' :: 'o' :: digits => number? 8 digits
  | '0' :: 'b' :: digits => number? 2 digits
  | ['0'] => some 0
  | '0' :: _ => none
  | digits => number? 10 digits

def truth? (text : String) : Option Bool :=
  if ["true", "True", "TRUE"].contains text then some true
  else if ["false", "False", "FALSE"].contains text then some false
  else none

def textOf? : Node → Option String
  | .scalar _ _ text => some text
  | _ => none

def naturalOf? : Node → Option Nat
  | .scalar style tag text => if isOfType "int" style tag then natural? text else none
  | _ => none

def truthOf? : Node → Option Bool
  | .scalar style tag text => if isOfType "bool" style tag then truth? text else none
  | _ => none

def isEmptyNode : Node → Bool
  | .scalar .plain _ "" => true
  | _ => false

def textsOf? (node : Node) : Option (List String) :=
  match node with
  | .sequence items => items.mapM textOf?
  | _ => if isEmptyNode node then some [] else none

def withMember? (settings : Settings) (key : String) (value : Node) : Option Settings :=
  match key with
  | "max_depth" => (naturalOf? value).map fun maxDepth => { settings with maxDepth }
  | "excluded_paths" => (textsOf? value).map fun excludedPaths => { settings with excludedPaths }
  | "include_non_public" => (truthOf? value).map fun includeNonPublic => { settings with includeNonPublic }
  | _ => none

/-- The settings with some members; a key that was seen may not come again. -/
def withMembers? (settings : Settings) (seen : List String) : List (Node × Node) → Option Settings
  | [] => some settings
  | (key, value) :: rest => do
    let key ← textOf? key
    if seen.contains key then none
    else (← settings.withMember? key value).withMembers? (key :: seen) rest

def ofNode? (node : Node) : Option Settings :=
  match node with
  | .mapping members => withMembers? {} [] members
  | _ => if isEmptyNode node then some {} else none

def decode? (text : String) : Option Settings := do
  match ← document? text.toList with
  | none => some {}
  | some node => ofNode? node

def parse (text : String) : Except SettingsFault Settings :=
  match decode? text with
  | some settings => settings.checked
  | none => .error .malformed

end JavaOutline.Settings
