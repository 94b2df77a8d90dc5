/-!
Patterns for whole paths. Paths are matched byte by byte, so that a place for one byte never covers
a character of several; a slash is a byte like any other, except around two stars. Patterns are
those of `globset` 0.4 as `Config::exclusions` uses it: letters keep their case, and a star takes
slashes too. The other options of `globset` stay outside.
-/
namespace JavaOutline.Glob

inductive Part where
  | literal (c : Char)
  | one
  | many
  /-- Nothing, or everything up to some slash, at the front. -/
  | deepFront
  /-- A slash, or everything from one slash to another. -/
  | deepMiddle
  /-- A slash and everything behind it. -/
  | deepEnd
  | oneOf (negated : Bool) (ranges : List (Char × Char))
  | choice (alternatives : List (List Part))
deriving Repr, Inhabited

abbrev Pattern := List Part

def charBytes (c : Char) : List UInt8 :=
  String.utf8EncodeChar c

def textBytes (text : String) : List UInt8 :=
  text.toList.flatMap charBytes

end JavaOutline.Glob
