/-!
Texts inside JSON. A quote, a backslash and every control character are escaped, the common controls
by a letter and the others by four hexadecimal digits; all else stands for itself. Which form a
character has is as `serde_json` writes it; the other forms are read as well.
-/
namespace JavaOutline.Json

def shortEscapes : List (Char × Char) :=
  [('"', '"'), ('\\', '\\'), ('\x08', 'b'), ('\t', 't'), ('\n', 'n'), ('\x0c', 'f'), ('\r', 'r')]

def hexDigit (n : Nat) : Char :=
  if n < 10 then Char.ofNat (48 + n) else Char.ofNat (87 + n)

def escapeChar (c : Char) : List Char :=
  match shortEscapes.find? fun escape => escape.1 == c with
  | some escape => ['\\', escape.2]
  | none =>
    if c.toNat < 0x20 then
      ['\\', 'u', '0', '0', hexDigit (c.toNat / 16), hexDigit (c.toNat % 16)]
    else [c]

def writeText (chars : List Char) : List Char :=
  '"' :: chars.flatMap escapeChar ++ ['"']

def hexValue? (c : Char) : Option Nat :=
  if '0' ≤ c && c ≤ '9' then some (c.toNat - 48)
  else if 'a' ≤ c && c ≤ 'f' then some (c.toNat - 87)
  else if 'A' ≤ c && c ≤ 'F' then some (c.toNat - 55)
  else none

def hexUnit? (a b c d : Char) : Option Nat := do
  let first ← hexValue? a
  let second ← hexValue? b
  let third ← hexValue? c
  let fourth ← hexValue? d
  some (((first * 16 + second) * 16 + third) * 16 + fourth)

def isFirstHalf (unit : Nat) : Bool := 0xd800 ≤ unit && unit < 0xdc00

def isSecondHalf (unit : Nat) : Bool := 0xdc00 ≤ unit && unit < 0xe000

/-- Reads the rest of a text up to its closing quote: the characters, and what follows the quote.
Two halves of a character have to stand together. -/
def readText : List Char → Option (List Char × List Char)
  | [] => none
  | '"' :: rest => some ([], rest)
  | '\\' :: 'u' :: a :: b :: c :: d :: rest => do
    let unit ← hexUnit? a b c d
    if isFirstHalf unit then
      match rest with
      | '\\' :: 'u' :: e :: f :: g :: h :: behind =>
        let second ← hexUnit? e f g h
        if isSecondHalf second then
          let (chars, left) ← readText behind
          some (Char.ofNat (0x10000 + (unit - 0xd800) * 0x400 + (second - 0xdc00)) :: chars, left)
        else none
      | _ => none
    else if isSecondHalf unit then none
    else
      let (chars, left) ← readText rest
      some (Char.ofNat unit :: chars, left)
  | '\\' :: letter :: rest =>
    match (('/', '/') :: shortEscapes).find? fun escape => escape.2 == letter with
    | some escape => do
      let (chars, left) ← readText rest
      some (escape.1 :: chars, left)
    | none => none
  | c :: rest =>
    if c.toNat < 0x20 || c == '\\' then none
    else do
      let (chars, left) ← readText rest
      some (c :: chars, left)

end JavaOutline.Json
