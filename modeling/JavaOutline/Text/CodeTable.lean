/-!
Sets of characters given by a sorted table of inclusive code point ranges.
The tables of the character properties used by this library are of this form.
-/
namespace JavaOutline.Text

/-- Inclusive ranges of code points in increasing order. -/
abbrev CodeTable := Array (Nat × Nat)

def CodeTable.covers (table : CodeTable) (c : Char) : Bool :=
  table.any fun range => range.1 ≤ c.toNat && c.toNat ≤ range.2

end JavaOutline.Text
