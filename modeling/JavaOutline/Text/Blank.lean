/-!
Blank characters and texts on one line. A text is split at runs of blanks into words, and its
one-line form joins the words with single spaces. This is `split_whitespace`, and `trim` cuts both
ends.
-/
namespace JavaOutline.Text

/-- The characters with the Unicode property White_Space. -/
def isBlank (c : Char) : Bool :=
  let n := c.toNat
  (9 ≤ n && n ≤ 13) || n == 32 || n == 0x85 || n == 0xa0 || n == 0x1680 ||
    (0x2000 ≤ n && n ≤ 0x200a) || n == 0x2028 || n == 0x2029 || n == 0x202f || n == 0x205f ||
    n == 0x3000

def words : List Char → List (List Char)
  | [] => []
  | c :: rest =>
    if isBlank c then words rest
    else
      match rest, words rest with
      | d :: _, word :: others => if isBlank d then [c] :: word :: others else (c :: word) :: others
      | _, others => [c] :: others

def spaced : List (List Char) → List Char
  | [] => []
  | [word] => word
  | word :: others => word ++ ' ' :: spaced others

/-- The one-line form of a text: its words, separated by single spaces. -/
def oneLine (text : String) : String :=
  String.ofList (spaced (words text.toList))

def trimmed (chars : List Char) : List Char :=
  ((chars.dropWhile isBlank).reverse.dropWhile isBlank).reverse

end JavaOutline.Text
