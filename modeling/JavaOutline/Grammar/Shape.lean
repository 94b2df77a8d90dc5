import JavaOutline.Tree.Node
import JavaOutline.Tree.Token

/-!
Shapes: a language for grammars as data. A shape says what a run of tokens looks like and which
nodes it becomes. Choices are made by looking ahead, so that a run of tokens has at most one
reading: the first shape whose probe holds is the one that must match. Left-leaning rules are
chains, which hold the node built so far and wrap it again and again. Shapes say what the rules of a
`tree-sitter` grammar say with `seq`, `choice`, `repeat`, `field` and `alias`; precedences and
conflicts are spelled out as probes.
-/
namespace JavaOutline.Grammar

open JavaOutline.Tree

/-- Shapes over goals, the named parts of a grammar. -/
inductive Shape (Goal : Type) where
  | done
  | never
  /-- The nodes a chain has built so far. -/
  | held
  /-- A test of the last node held, without a token. -/
  | heldIs (admits : Kind → Bool)
  | peek (admits : Token → Bool)
  | stop
  | keyword (words : List String)
  | symbol (symbols : List String)
  /-- Exactly these characters off the front of tokens that touch, as a bare node. -/
  | cut (text : String)
  | word (r : Rule) (admits : String → Bool)
  | lexeme (admits : Rule → Bool)
  | skip
  | group
  | seq (first second : Shape Goal)
  | pick (probe yes no : Shape Goal)
  | many (probe item : Shape Goal)
  | node (r : Rule) (body : Shape Goal)
  | field (f : Field) (body : Shape Goal)
  | chain (base probe step : Shape Goal)
  | call (goal : Goal)
deriving Inhabited

namespace Shape

variable {Goal : Type}

def all : List (Shape Goal) → Shape Goal
  | [] => .done
  | [part] => part
  | part :: rest => .seq part (all rest)

/-- The first alternative whose probe holds, and `otherwise` where none does. -/
def choose (alternatives : List (Shape Goal × Shape Goal)) (otherwise : Shape Goal) : Shape Goal :=
  alternatives.foldr (fun entry rest => .pick entry.1 entry.2 rest) otherwise

def whenever (probe body : Shape Goal) : Shape Goal :=
  .pick probe body .done

def absent (probe : Shape Goal) : Shape Goal :=
  .pick probe .never .done

def sym (text : String) : Shape Goal :=
  .symbol [text]

def key (text : String) : Shape Goal :=
  .keyword [text]

def either (probes : List (Shape Goal)) : Shape Goal :=
  choose (probes.map fun probe => (probe, .done)) .never

def nextSymbol (texts : List String) : Shape Goal :=
  .peek fun t => t.shape == .symbol && texts.contains t.text

def nextWord (texts : List String) : Shape Goal :=
  .peek fun t => t.shape == .word && texts.contains t.text

def otherWord (texts : List String) : Shape Goal :=
  .peek fun t => t.shape == .word && !texts.contains t.text

def commaSeparated (item : Shape Goal) : Shape Goal :=
  .seq item (.many (sym ",") (.seq (sym ",") item))

/-- Items separated by commas up to a closing symbol, which stays; there may be none. -/
def commaSeparatedTo (close : String) (item : Shape Goal) : Shape Goal :=
  .pick (nextSymbol [close]) .done (commaSeparated item)

end Shape

end JavaOutline.Grammar
