/-!
JSON values. Members of an object keep their order. Of numbers only those without sign, fraction and
exponent have a value here; any other keeps its written form. Values are those `serde_json` hands to
the readers of reports; floating point stays outside.
-/
namespace JavaOutline.Json

inductive Value where
  | null
  | bool (value : Bool)
  | number (value : Nat)
  | otherNumber (written : String)
  | string (text : String)
  | array (items : List Value)
  | object (members : List (String × Value))
deriving Inhabited

namespace Value

/-- What a fixed list of field names finds in a value: in an object by name, a name that stands
there twice being refused, and in an array by place. -/
def fields? (names : List String) : Value → Option (List (Option Value))
  | .object members =>
    names.mapM fun name =>
      match members.filter fun member => member.1 == name with
      | [] => some none
      | [member] => some (some member.2)
      | _ => none
  | .array items =>
    if items.length ≤ names.length then
      some (items.map some ++ List.replicate (names.length - items.length) none)
    else none
  | _ => none

def string? : Value → Option String
  | .string text => some text
  | _ => none

def count? : Value → Option Nat
  | .number value => if value < UInt64.size then some value else none
  | _ => none

def list? {α : Type} (item : Value → Option α) : Value → Option (List α)
  | .array items => items.mapM item
  | _ => none

end Value

end JavaOutline.Json
