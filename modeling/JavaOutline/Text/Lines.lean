/-!
Texts cut into pieces: at every separator, or into lines. A line feed ends a line, a carriage
return right before it belongs to the ending, and nothing behind the last ending is no line.
-/
namespace JavaOutline.Text

/-- The pieces between the occurrences of a separator; one more than there are separators. -/
def pieces (separator : Char) : List Char → List (List Char)
  | [] => [[]]
  | c :: rest =>
    if c = separator then [] :: pieces separator rest
    else
      match pieces separator rest with
      | piece :: others => (c :: piece) :: others
      | [] => [[c]]

def withoutReturn (line : List Char) : List Char :=
  if line.getLast? = some '\r' then line.dropLast else line

/-- The lines of a text. A carriage return counts to the ending only before a line feed. -/
def lines (chars : List Char) : List (List Char) :=
  let cut := pieces '\n' chars
  let ended := cut.dropLast.map withoutReturn
  match cut.getLast? with
  | some [] | none => ended
  | some last => ended ++ [last]

def trimmedEnd (isDropped : Char → Bool) (chars : List Char) : List Char :=
  (chars.reverse.dropWhile isDropped).reverse

end JavaOutline.Text
