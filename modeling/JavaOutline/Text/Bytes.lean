/-!
Texts addressed by byte. Offsets count bytes of the UTF-8 form; a slice exists only between two
character boundaries.
-/
namespace JavaOutline.Text

def byteSize (chars : List Char) : Nat :=
  chars.foldr (fun c size => c.utf8Size + size) 0

/-- What follows the first `count` bytes, if they end at a character boundary. -/
def dropBytes? : Nat → List Char → Option (List Char)
  | 0, chars => some chars
  | _ + 1, [] => none
  | count + 1, c :: rest =>
    if c.utf8Size ≤ count + 1 then dropBytes? (count + 1 - c.utf8Size) rest else none

/-- The first `count` bytes, if they end at a character boundary. -/
def takeBytes? : Nat → List Char → Option (List Char)
  | 0, _ => some []
  | _ + 1, [] => none
  | count + 1, c :: rest =>
    if c.utf8Size ≤ count + 1 then (takeBytes? (count + 1 - c.utf8Size) rest).map (c :: ·) else none

/-- The bytes from `start` up to `stop`, if both are character boundaries in order. -/
def slice? (chars : List Char) (start stop : Nat) : Option (List Char) :=
  if start ≤ stop then (dropBytes? start chars).bind (takeBytes? (stop - start)) else none

end JavaOutline.Text
