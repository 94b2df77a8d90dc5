import JavaOutline.Text.Bytes

/-!
Positions and spans in a source text. A position is a line and a column, both counted from one; a
column counts bytes, and only a line feed ends a line. A span is a byte range with the positions of
its two ends. In `Span::from_node` the parser gives the positions; here they are counted in the
text.
-/
namespace JavaOutline

structure Position where
  line : Nat
  column : Nat
deriving DecidableEq, Repr, Inhabited

namespace Position

def compare (a b : Position) : Ordering :=
  match Ord.compare a.line b.line with
  | .eq => Ord.compare a.column b.column
  | other => other

def render (p : Position) : String :=
  toString p.line ++ ":" ++ toString p.column

def advance (p : Position) (c : Char) : Position :=
  if c = '\n' then ⟨p.line + 1, 1⟩ else ⟨p.line, p.column + c.utf8Size⟩

/-- The position of a byte offset, counting from `p` at the start of the text. -/
def walk (p : Position) : List Char → Nat → Position
  | [], _ => p
  | c :: rest, offset =>
    if offset = 0 then p else walk (p.advance c) rest (offset - c.utf8Size)

end Position

/-- A byte range of a text, its end exclusive, with the positions of both ends. -/
structure Span where
  startByte : Nat
  endByte : Nat
  start : Position
  stop : Position
deriving DecidableEq, Repr, Inhabited

namespace Span

def lineCount (s : Span) : Nat :=
  s.stop.line - s.start.line + 1

def contains (outer inner : Span) : Bool :=
  outer.startByte ≤ inner.startByte && inner.endByte ≤ outer.endByte

def render (s : Span) : String :=
  s.start.render

def ofRange (chars : List Char) (start stop : Nat) : Span where
  startByte := start
  endByte := stop
  start := Position.walk ⟨1, 1⟩ chars start
  stop := Position.walk ⟨1, 1⟩ chars stop

/-- The text of a span, empty where the range does not cut out whole characters. -/
def snippet (chars : List Char) (s : Span) : String :=
  String.ofList ((Text.slice? chars s.startByte s.endByte).getD [])

end Span

end JavaOutline
