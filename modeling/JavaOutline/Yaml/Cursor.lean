/-!
A place in a YAML text, and the classes of characters that every part of the format shares. Five
characters break lines; three of them read as a newline, as does a carriage return in front of one.
The format is followed as `libyaml` reads it for `serde_yaml` 0.9. A text is read or refused; what
is said of a refused one, and where, stays outside.
-/
namespace JavaOutline.Yaml

def isAllowed (c : Char) : Bool :=
  c = '\t' || c = '\n' || c = '\r' || (' ' ≤ c && c ≤ '~') || c = '\u0085' ||
    ('\u00a0' ≤ c && c ≤ '\ufffd') || '\uffff' < c

def isBreak (c : Char) : Bool :=
  c = '\n' || c = '\r' || c = '\u0085' || c = '\u2028' || c = '\u2029'

def isSpace (c : Char) : Bool :=
  c = ' ' || c = '\t'

def isGap (c : Char) : Bool :=
  isSpace c || isBreak c

def isWord (c : Char) : Bool :=
  c.isAlphanum || c = '_' || c = '-'

def endsOr (inClass : Char → Bool) (text : List Char) : Bool :=
  text.head?.all inClass

/-- What is left of a text, and where it starts. -/
structure Cursor where
  rest : List Char
  index : Nat := 0
  line : Nat := 0
  column : Nat := 0
deriving DecidableEq, Repr, Inhabited

namespace Cursor

def next? (cursor : Cursor) : Option Char :=
  cursor.rest.head?

def at? (cursor : Cursor) (inClass : Char → Bool) : Bool :=
  cursor.next?.any inClass

def skip (cursor : Cursor) (count : Nat) : Cursor :=
  { cursor with
    rest := cursor.rest.drop count
    index := cursor.index + count
    column := cursor.column + count }

def moveTo (cursor : Cursor) (rest : List Char) : Cursor :=
  cursor.skip (cursor.rest.length - rest.length)

def skipWhile (cursor : Cursor) (inClass : Char → Bool) : Cursor :=
  cursor.moveTo (cursor.rest.dropWhile inClass)

def newLine (cursor : Cursor) (count : Nat) : Cursor where
  rest := cursor.rest.drop count
  index := cursor.index + count
  line := cursor.line + 1
  column := 0

/-- Reads a line break: what it stands for, and the start of the next line. -/
def breakLine (cursor : Cursor) : List Char × Cursor :=
  match cursor.rest with
  | '\r' :: '\n' :: _ => (['\n'], cursor.newLine 2)
  | c :: _ =>
    if isBreak c then
      (if c = '\u2028' || c = '\u2029' then [c] else ['\n'], cursor.newLine 1)
    else ([], cursor)
  | [] => ([], cursor)

def atDocumentStart (cursor : Cursor) : Bool :=
  cursor.column = 0 && cursor.rest.take 3 = ['-', '-', '-'] && endsOr isGap (cursor.rest.drop 3)

def atDocumentEnd (cursor : Cursor) : Bool :=
  cursor.column = 0 && cursor.rest.take 3 = ['.', '.', '.'] && endsOr isGap (cursor.rest.drop 3)

def atDocumentMark (cursor : Cursor) : Bool :=
  cursor.atDocumentStart || cursor.atDocumentEnd

/-- Moves over blanks and a comment to the end of the line, if nothing else stands there. -/
def lineEnd? (cursor : Cursor) : Option Cursor :=
  let behind := cursor.skipWhile isSpace
  let behind := if behind.next? = some '#' then behind.skipWhile fun c => !isBreak c else behind
  if endsOr isBreak behind.rest then some behind.breakLine.2 else none

end Cursor

end JavaOutline.Yaml
