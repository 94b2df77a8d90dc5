import JavaOutline.Json.Basic
import JavaOutline.Json.Text

/-!
JSON read from text. A reader takes a value off the front of the characters and gives back what
follows it; the number of values inside each other is bounded by fuel, of which a text never needs
more than it has characters. A text is refused where `serde_json` refuses it, save for its bound on
nesting, which stays outside.
-/
namespace JavaOutline.Json

def isBlank (c : Char) : Bool :=
  c == ' ' || c == '\n' || c == '\t' || c == '\r'

def skipBlanks (chars : List Char) : List Char :=
  chars.dropWhile isBlank

def expect? (c : Char) (chars : List Char) : Option (List Char) :=
  match skipBlanks chars with
  | d :: rest => if d = c then some rest else none
  | [] => none

def readDigits (chars : List Char) : Option (List Char × List Char) :=
  let digits := chars.takeWhile Char.isDigit
  if digits.isEmpty then none else some (digits, chars.dropWhile Char.isDigit)

/-- The digits of a whole number, with no zero in front of others. -/
def readWhole (chars : List Char) : Option (List Char × List Char) := do
  let (digits, rest) ← readDigits chars
  if digits.head? = some '0' && digits.length > 1 then none else some (digits, rest)

def readFraction (chars : List Char) : Option (List Char × List Char) :=
  match chars with
  | '.' :: rest => (readDigits rest).map fun found => ('.' :: found.1, found.2)
  | _ => some ([], chars)

def readExponent (chars : List Char) : Option (List Char × List Char) :=
  match chars with
  | mark :: rest =>
    if mark = 'e' || mark = 'E' then
      match rest with
      | sign :: behind =>
        if sign = '+' || sign = '-' then
          (readDigits behind).map fun found => (mark :: sign :: found.1, found.2)
        else (readDigits rest).map fun found => (mark :: found.1, found.2)
      | [] => none
    else some ([], chars)
  | [] => some ([], [])

def ofDigits (digits : List Char) : Nat :=
  digits.foldl (fun value digit => value * 10 + (digit.toNat - 48)) 0

def readNumber (chars : List Char) : Option (Value × List Char) := do
  let (sign, unsigned) := match chars with
    | '-' :: rest => (['-'], rest)
    | _ => ([], chars)
  let (whole, behind) ← readWhole unsigned
  let (fraction, after) ← readFraction behind
  let (exponent, rest) ← readExponent after
  if sign.isEmpty && fraction.isEmpty && exponent.isEmpty then some (.number (ofDigits whole), rest)
  else some (.otherNumber (String.ofList (sign ++ whole ++ fraction ++ exponent)), rest)

def readWord (word : String) (value : Value) (chars : List Char) : Option (Value × List Char) :=
  if word.toList.isPrefixOf chars then some (value, chars.drop word.length) else none

mutual

def readValue : Nat → List Char → Option (Value × List Char)
  | 0, _ => none
  | fuel + 1, chars =>
    match skipBlanks chars with
    | [] => none
    | '"' :: rest => (readText rest).map fun found => (.string (String.ofList found.1), found.2)
    | '[' :: rest =>
      match expect? ']' rest with
      | some behind => some (.array [], behind)
      | none => (readItems fuel rest).map fun found => (.array found.1, found.2)
    | '\x7b' :: rest =>
      match expect? '\x7d' rest with
      | some behind => some (.object [], behind)
      | none => (readMembers fuel rest).map fun found => (.object found.1, found.2)
    | c :: rest =>
      if c = 'n' then readWord "null" .null (c :: rest)
      else if c = 't' then readWord "true" (.bool true) (c :: rest)
      else if c = 'f' then readWord "false" (.bool false) (c :: rest)
      else readNumber (c :: rest)

def readItems : Nat → List Char → Option (List Value × List Char)
  | 0, _ => none
  | fuel + 1, chars => do
    let (item, behind) ← readValue fuel chars
    match skipBlanks behind with
    | ',' :: rest => (readItems fuel rest).map fun found => (item :: found.1, found.2)
    | ']' :: rest => some ([item], rest)
    | _ => none

def readMembers : Nat → List Char → Option (List (String × Value) × List Char)
  | 0, _ => none
  | fuel + 1, chars => do
    let start ← expect? '"' chars
    let (name, behind) ← readText start
    let (value, after) ← expect? ':' behind >>= readValue fuel
    let member := (String.ofList name, value)
    match skipBlanks after with
    | ',' :: rest => (readMembers fuel rest).map fun found => (member :: found.1, found.2)
    | '\x7d' :: rest => some ([member], rest)
    | _ => none

end

def parse? (text : String) : Option Value := do
  let chars := text.toList
  let (value, rest) ← readValue (chars.length + 1) chars
  if (skipBlanks rest).isEmpty then some value else none

end JavaOutline.Json
