/-!
Regular patterns over characters and their longest match at the start of a text. A pattern is
stepped through the text by derivatives: what is left of it after a character matches what may still
follow that character. They stand for the regular expressions by which `tree-sitter-java` tells its
tokens.
-/
namespace JavaOutline.Tree

inductive Pattern where
  | fails
  | empty
  | char (admits : Char → Bool)
  | seq (first second : Pattern)
  | alt (first second : Pattern)
  | star (item : Pattern)

namespace Pattern

/-- Sequence, with the trivial cases folded away. -/
def andThen : Pattern → Pattern → Pattern
  | .fails, _ => .fails
  | .empty, second => second
  | first, second => .seq first second

def orElse : Pattern → Pattern → Pattern
  | .fails, second => second
  | first, .fails => first
  | first, second => .alt first second

def nullable : Pattern → Bool
  | .fails => false
  | .empty => true
  | .char _ => false
  | .seq first second => first.nullable && second.nullable
  | .alt first second => first.nullable || second.nullable
  | .star _ => true

/-- What must follow a character for the whole to match. -/
def after (c : Char) : Pattern → Pattern
  | .fails => .fails
  | .empty => .fails
  | .char admits => if admits c then .empty else .fails
  | .seq first second =>
    let through := (first.after c).andThen second
    if first.nullable then through.orElse (second.after c) else through
  | .alt first second => (first.after c).orElse (second.after c)
  | .star item => (item.after c).andThen (.star item)

/-- The number of characters of the longest match, `best` standing for the one seen so far. -/
def longestFrom (best : Option Nat) (seen : Nat) : Pattern → List Char → Option Nat
  | .fails, _ => best
  | p, [] => if p.nullable then some seen else best
  | p, c :: rest => longestFrom (if p.nullable then some seen else best) (seen + 1) (p.after c) rest

def longest (p : Pattern) (chars : List Char) : Option Nat :=
  p.longestFrom none 0 chars

def oneOf (chars : String) : Pattern :=
  .char fun c => chars.toList.contains c

def noneOf (chars : String) : Pattern :=
  .char fun c => !chars.toList.contains c

def text (s : String) : Pattern :=
  s.toList.foldr (fun c rest => andThen (.char (· == c)) rest) .empty

def all (parts : List Pattern) : Pattern :=
  parts.foldr andThen .empty

def any (parts : List Pattern) : Pattern :=
  parts.foldr orElse .fails

def maybe (p : Pattern) : Pattern :=
  .alt p .empty

def plus (p : Pattern) : Pattern :=
  .seq p (.star p)

def separated (item separator : Pattern) : Pattern :=
  .seq item (.star (.seq separator item))

end Pattern

end JavaOutline.Tree
