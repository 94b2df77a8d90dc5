/-!
Modifiers of declarations. They are read by `from_keyword` and written by `as_str`.
-/
namespace JavaOutline

inductive Modifier where
  | publicAccess | protectedAccess | privateAccess | abstract | static | final | sealed | nonSealed | default
  | synchronized | native | transient | volatile | strictfp
deriving DecidableEq, Repr, Inhabited

namespace Modifier

def keyword : Modifier → String
  | .publicAccess => "public"
  | .protectedAccess => "protected"
  | .privateAccess => "private"
  | .abstract => "abstract"
  | .static => "static"
  | .final => "final"
  | .sealed => "sealed"
  | .nonSealed => "non-sealed"
  | .default => "default"
  | .synchronized => "synchronized"
  | .native => "native"
  | .transient => "transient"
  | .volatile => "volatile"
  | .strictfp => "strictfp"

def all : List Modifier :=
  [.publicAccess, .protectedAccess, .privateAccess, .abstract, .static, .final, .sealed,
    .nonSealed, .default, .synchronized, .native, .transient, .volatile, .strictfp]

def ofKeyword? (word : String) : Option Modifier :=
  all.find? fun m => m.keyword == word

end Modifier

/-- The modifiers and the names of the annotations of a declaration, each in source order. -/
structure Modifiers where
  keywords : List Modifier := []
  annotations : List String := []
deriving DecidableEq, Repr, Inhabited

end JavaOutline
