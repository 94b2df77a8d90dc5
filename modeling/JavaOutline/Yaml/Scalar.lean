import JavaOutline.Yaml.Cursor

/-!
The texts of scalars. Between two pieces of a plain or quoted text stands a gap: blanks of one line,
which are kept, or line breaks, which are folded. They are read as by the scanner of `libyaml`; its
encodings other than UTF-8 stay outside.
-/
namespace JavaOutline.Yaml

inductive ScalarStyle where
  | plain
  | singleQuoted
  | doubleQuoted
  | literal
  | folded
deriving DecidableEq, Repr, Inhabited

/-- What stands between two pieces of a text: its blanks up to the first line break, that break, and
the breaks behind it. -/
structure Gap where
  blanks : List Char := []
  first : Option (List Char) := none
  more : List Char := []
deriving DecidableEq, Repr, Inhabited

namespace Gap

def isBroken (gap : Gap) : Bool :=
  gap.first.isSome

/-- The text of a gap. A single newline becomes a space, and of several newlines the first is
dropped. -/
def text (gap : Gap) : List Char :=
  match gap.first with
  | none => gap.blanks
  | some ['\n'] => if gap.more.isEmpty then [' '] else gap.more
  | some other => other ++ gap.more

/-- Reads on in a gap. Behind a break a tab may not stand before some column. -/
def read (column : Nat) : Nat → Gap → Cursor → Option (Gap × Cursor)
  | 0, gap, cursor => some (gap, cursor)
  | fuel + 1, gap, cursor =>
    match cursor.next? with
    | none => some (gap, cursor)
    | some c =>
      if isSpace c then
        if gap.isBroken then
          if c = '\t' && cursor.column < column then none
          else read column fuel gap (cursor.skip 1)
        else read column fuel { gap with blanks := gap.blanks ++ [c] } (cursor.skip 1)
      else if isBreak c then
        let (broken, behind) := cursor.breakLine
        if gap.isBroken then read column fuel { gap with more := gap.more ++ broken } behind
        else read column fuel { gap with first := some broken } behind
      else some (gap, cursor)

end Gap

def isFlowMark (c : Char) : Bool :=
  c = ',' || c = '[' || c = ']' || c = '\x7b' || c = '\x7d'

/-- The first word of a plain scalar, and what follows it. In a flow collection a colon in front of
a mark is refused. -/
def plainWord (inFlow : Bool) : List Char → Option (List Char × List Char)
  | [] => some ([], [])
  | c :: rest =>
    if isGap c then some ([], c :: rest)
    else if inFlow && c = ':' && rest.head?.any (fun d => isFlowMark d || d = '?') then none
    else if (c = ':' && endsOr isGap rest) || (inFlow && isFlowMark c) then some ([], c :: rest)
    else (plainWord inFlow rest).map fun (word, behind) => (c :: word, behind)

structure PlainText where
  text : List Char
  endsLine : Bool
  behind : Cursor
deriving DecidableEq, Repr, Inhabited

/-- Reads on in a plain scalar, behind a gap. Outside of flow collections its lines start at some
column or further right. -/
def plainText (inFlow : Bool) (column : Nat) : Nat → List Char → Gap → Cursor → Option PlainText
  | 0, _, _, _ => none
  | fuel + 1, text, gap, cursor =>
    if cursor.atDocumentMark || cursor.next? = some '#' then some ⟨text, gap.isBroken, cursor⟩
    else do
      let (word, rest) ← plainWord inFlow cursor.rest
      let behind := cursor.moveTo rest
      let (text, broken) :=
        if word.isEmpty then (text, gap.isBroken) else (text ++ gap.text ++ word, false)
      if !behind.at? isGap then return ⟨text, broken, behind⟩
      let (gap, behind) ← Gap.read column behind.rest.length {} behind
      if !inFlow && behind.column < column then return ⟨text, gap.isBroken, behind⟩
      plainText inFlow column fuel text gap behind

def singleQuotedWord : List Char → List Char × List Char
  | [] => ([], [])
  | ['\''] => ([], ['\''])
  | '\'' :: '\'' :: rest =>
    let (word, behind) := singleQuotedWord rest
    ('\'' :: word, behind)
  | c :: rest =>
    if c = '\'' || isGap c then ([], c :: rest)
    else
      let (word, behind) := singleQuotedWord rest
      (c :: word, behind)

def escaped? (c : Char) : Option Char :=
  match c with
  | '0' => some '\x00'
  | 'a' => some '\x07'
  | 'b' => some '\x08'
  | 't' => some '\t'
  | '\t' => some '\t'
  | 'n' => some '\n'
  | 'v' => some '\x0b'
  | 'f' => some '\x0c'
  | 'r' => some '\r'
  | 'e' => some '\x1b'
  | ' ' => some ' '
  | '"' => some '"'
  | '/' => some '/'
  | '\\' => some '\\'
  | 'N' => some '\u0085'
  | '_' => some '\u00a0'
  | 'L' => some '\u2028'
  | 'P' => some '\u2029'
  | _ => none

def hexDigit? (c : Char) : Option Nat :=
  if c.isDigit then some (c.toNat - '0'.toNat)
  else if 'a' ≤ c && c ≤ 'f' then some (c.toNat - 'a'.toNat + 10)
  else if 'A' ≤ c && c ≤ 'F' then some (c.toNat - 'A'.toNat + 10)
  else none

def hexNumber? (digits : List Char) : Option Nat :=
  digits.foldlM (fun number digit => (hexDigit? digit).map (number * 16 + ·)) 0

def hexChar? (digits : List Char) : Option Char := do
  let number ← hexNumber? digits
  if (0xD800 ≤ number && number ≤ 0xDFFF) || 0x10FFFF < number then none
  else some (Char.ofNat number)

def prepend? (c : Option Char) (word : Option (List Char × List Char)) :
    Option (List Char × List Char) := do
  let c ← c
  let (chars, behind) ← word
  return (c :: chars, behind)

def doubleQuotedWord : List Char → Option (List Char × List Char)
  | [] => some ([], [])
  | '\\' :: 'x' :: a :: b :: rest => prepend? (hexChar? [a, b]) (doubleQuotedWord rest)
  | '\\' :: 'u' :: a :: b :: c :: d :: rest =>
    prepend? (hexChar? [a, b, c, d]) (doubleQuotedWord rest)
  | '\\' :: 'U' :: a :: b :: c :: d :: e :: f :: g :: h :: rest =>
    prepend? (hexChar? [a, b, c, d, e, f, g, h]) (doubleQuotedWord rest)
  | '\\' :: c :: rest =>
    if isBreak c then some ([], '\\' :: c :: rest)
    else prepend? (escaped? c) (doubleQuotedWord rest)
  | c :: rest =>
    if c = '\\' then none
    else if c = '"' || isGap c then some ([], c :: rest)
    else prepend? (some c) (doubleQuotedWord rest)

/-- Reads on in a quoted scalar, up to the closing quote. Between a word and the next stands a gap
or an escaped line break, which is dropped. -/
def quotedText (quote : Char) : Nat → List Char → Cursor → Option (List Char × Cursor)
  | 0, _, _ => none
  | fuel + 1, text, cursor =>
    if cursor.atDocumentMark || cursor.rest.isEmpty then none
    else do
      let (word, rest) ←
        if quote = '\'' then some (singleQuotedWord cursor.rest) else doubleQuotedWord cursor.rest
      let behind := cursor.moveTo rest
      let joined := quote != '\'' && behind.next? = some '\\'
      let behind := if joined then (behind.skip 1).breakLine.2 else behind
      if behind.next? = some quote then return (text ++ word, behind.skip 1)
      let start : Gap := if joined then { first := some [] } else {}
      let (gap, behind) ← start.read 0 behind.rest.length behind
      quotedText quote fuel (text ++ word ++ gap.text) behind

inductive Chomping where
  | strip
  | clip
  | keep
deriving DecidableEq, Repr, Inhabited

def blockHeader? (cursor : Cursor) : Option (Chomping × Option Nat × Cursor) :=
  let chomping? (cursor : Cursor) : Option Chomping :=
    match cursor.next? with
    | some '+' => some .keep
    | some '-' => some .strip
    | _ => none
  let digit? (cursor : Cursor) : Option Nat :=
    (cursor.next?.filter Char.isDigit).map fun c => c.toNat - '0'.toNat
  let made (chomping : Option Chomping) (digit : Option Nat) (behind : Cursor) :=
    if digit = some 0 then none else some (chomping.getD .clip, digit, behind)
  match chomping? cursor, digit? cursor with
  | some chomping, _ =>
    let behind := cursor.skip 1
    match digit? behind with
    | some digit => made chomping digit (behind.skip 1)
    | none => made chomping none behind
  | none, some digit =>
    let behind := cursor.skip 1
    match chomping? behind with
    | some chomping => made chomping digit (behind.skip 1)
    | none => made none digit behind
  | none, none => made none none cursor

/-- Reads empty lines and the indentation of the line behind them, up to a column if one is known:
the breaks, and the rightmost column that was reached. -/
def emptyLines (column : Option Nat) : Nat → List Char → Nat → Cursor →
    Option (List Char × Nat × Cursor)
  | 0, _, _, _ => none
  | fuel + 1, breaks, widest, cursor =>
    let spaces := cursor.rest.takeWhile (· = ' ')
    let behind := cursor.skip (match column with
      | some column => min spaces.length (column - cursor.column)
      | none => spaces.length)
    let widest := max widest behind.column
    if behind.next? = some '\t' && column.all (behind.column < ·) then none
    else if behind.at? isBreak then
      let (broken, behind) := behind.breakLine
      emptyLines column fuel (breaks ++ broken) widest behind
    else some (breaks, widest, behind)

structure BlockText where
  text : List Char := []
  last : List Char := []
  empty : List Char := []
  indented : Bool := false
deriving DecidableEq, Repr, Inhabited

namespace BlockText

/-- Closes the last line before another one. In a folded scalar, a newline between two lines that do
not start with a blank becomes a space, or is dropped before empty lines. -/
def join (block : BlockText) (folded indented : Bool) : List Char :=
  if folded && block.last = ['\n'] && !block.indented && !indented then
    block.text ++ (if block.empty.isEmpty then [' '] else []) ++ block.empty
  else block.text ++ block.last ++ block.empty

def chomped (block : BlockText) (chomping : Chomping) : List Char :=
  match chomping with
  | .strip => block.text
  | .clip => block.text ++ block.last
  | .keep => block.text ++ block.last ++ block.empty

end BlockText

def blockLines (folded : Bool) (column : Nat) : Nat → BlockText → Cursor →
    Option (BlockText × Cursor)
  | 0, _, _ => none
  | fuel + 1, block, cursor =>
    if cursor.column = column && !cursor.rest.isEmpty then do
      let indented := cursor.at? isSpace
      let line := cursor.rest.takeWhile fun c => !isBreak c
      let (last, behind) := (cursor.skip line.length).breakLine
      let (empty, _, behind) ← emptyLines (some column) (behind.rest.length + 1) [] 0 behind
      blockLines folded column fuel ⟨block.join folded indented ++ line, last, empty, indented⟩ behind
    else some (block, cursor)

/-- Reads a block scalar behind its mark. Its indentation is given against the column of the
innermost block around it, or found at its first line. -/
def blockText (folded : Bool) (around : Option Nat) (cursor : Cursor) :
    Option (List Char × Cursor) := do
  let (chomping, digit, behind) ← blockHeader? cursor
  let behind ← behind.lineEnd?
  let given := digit.map (around.getD 0 + ·)
  let (empty, widest, behind) ← emptyLines given (behind.rest.length + 1) [] 0 behind
  let column := given.getD (max (max widest ((around.map (· + 1)).getD 0)) 1)
  let (block, behind) ← blockLines folded column (behind.rest.length + 1) { empty } behind
  return (block.chomped chomping, behind)

end JavaOutline.Yaml
