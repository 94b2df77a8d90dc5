import JavaOutline.Grammar.Shape
import JavaOutline.Text.Identifier

/-!
Reading tokens by a grammar. A shape is read by recursion on it; only a call of a goal goes back to
the grammar, and the number of such calls inside each other is bounded by fuel. The parser of
`tree-sitter` takes several readings along and drops those that fail; its tables, and the recovery
from errors by which it has a tree for every text, stay outside.
-/
namespace JavaOutline.Grammar

open JavaOutline.Tree

/-- What a reader leaves: the nodes it made and the tokens behind them. -/
abbrev Reading := Option (List Node × List Token)

def bareNode (t : Token) : Node :=
  .mk (.token t.text) none t.start t.stop []

def leafNode (r : Rule) (t : Token) : Node :=
  .mk (.rule r) none t.start t.stop []

/-- Whether the tokens touch and their texts together start with the characters `wanted`; then the
byte behind those characters, and the tokens with the characters taken away. What is left of a word
has to be a word again. -/
def cutFrom? (at? : Option Nat) : List Char → List Token → Option (Nat × List Token)
  | [], tokens => at?.map fun stop => (stop, tokens)
  | _ :: _, [] => none
  | c :: wanted, t :: tokens =>
    let chars := t.text.toList
    if at?.any (· != t.start) then none
    else if chars.isPrefixOf (c :: wanted) then
      cutFrom? (some t.stop) ((c :: wanted).drop chars.length) tokens
    else if (c :: wanted).isPrefixOf chars then
      let left := chars.drop (wanted.length + 1)
      let stop := t.start + wanted.length + 1
      if t.isWord && !(left.head?.any Text.isWordStart) then none
      else some (stop, { t with text := String.ofList left, start := stop } :: tokens)
    else none
termination_by _ tokens => tokens.length

def closing? : Nat → List Token → Option (List Token)
  | _, [] => none
  | depth, t :: tokens =>
    if t.shape == .symbol then
      if ["(", "[", "\x7b", "\\\x7b"].contains t.text then closing? (depth + 1) tokens
      else if [")", "]", "\x7d"].contains t.text then
        if depth = 0 then some tokens else closing? (depth - 1) tokens
      else closing? depth tokens
    else closing? depth tokens

/-- Reads items as long as the probe holds, at most `fuel` times. -/
def readMany (probe : List Token → Bool) (item : List Token → Reading) :
    Nat → List Token → Reading
  | 0, tokens => some ([], tokens)
  | fuel + 1, tokens =>
    if probe tokens then do
      let (nodes, behind) ← item tokens
      let (others, rest) ← readMany probe item fuel behind
      some (nodes ++ others, rest)
    else some ([], tokens)

def readChain (probe : List Node → List Token → Bool)
    (step : List Node → List Token → Reading) : Nat → List Node → List Token → Reading
  | 0, held, tokens => some (held, tokens)
  | fuel + 1, held, tokens =>
    if probe held tokens then do
      let (nodes, rest) ← step held tokens
      readChain probe step fuel nodes rest
    else some (held, tokens)

def Shape.read {Goal : Type} (goal : Goal → List Token → Reading) :
    Shape Goal → List Node → List Token → Reading
  | .done, _, tokens => some ([], tokens)
  | .never, _, _ => none
  | .held, built, tokens => some (built, tokens)
  | .heldIs admits, built, tokens =>
    if built.getLast?.any fun n => admits n.kind then some ([], tokens) else none
  | .peek admits, _, tokens => if tokens.head?.any admits then some ([], tokens) else none
  | .stop, _, tokens => if tokens.isEmpty then some ([], tokens) else none
  | .keyword words, _, tokens =>
    match tokens with
    | t :: rest => if t.isWord && words.contains t.text then some ([bareNode t], rest) else none
    | [] => none
  | .symbol symbols, _, tokens =>
    match tokens with
    | t :: rest =>
      if t.shape == .symbol && symbols.contains t.text then some ([bareNode t], rest) else none
    | [] => none
  | .cut text, _, tokens =>
    match tokens with
    | t :: _ =>
      (cutFrom? none text.toList tokens).map fun found =>
        ([.mk (.token text) none t.start found.1 []], found.2)
    | [] => none
  | .word r admits, _, tokens =>
    match tokens with
    | t :: rest => if t.isWord && admits t.text then some ([leafNode r t], rest) else none
    | [] => none
  | .lexeme admits, _, tokens =>
    match tokens with
    | t :: rest =>
      match t.shape with
      | .lexeme r => if admits r then some ([leafNode r t], rest) else none
      | _ => none
    | [] => none
  | .skip, _, tokens => tokens.tail?.map fun rest => ([], rest)
  | .group, _, tokens =>
    match tokens with
    | t :: rest =>
      if t.shape == .symbol && ["(", "[", "\x7b"].contains t.text then
        (closing? 0 rest).map fun behind => ([], behind)
      else none
    | [] => none
  | .seq first second, built, tokens => do
    let (nodes, behind) ← first.read goal built tokens
    let (others, rest) ← second.read goal built behind
    some (nodes ++ others, rest)
  | .pick probe yes no, built, tokens =>
    if (probe.read goal built tokens).isSome then yes.read goal built tokens
    else no.read goal built tokens
  | .many probe item, built, tokens =>
    readMany (fun ts => (probe.read goal built ts).isSome) (fun ts => item.read goal built ts)
      (tokens.length + 1) tokens
  | .node r body, built, tokens =>
    (body.read goal built tokens).map fun found => ([Node.ofRule r found.1], found.2)
  | .field f body, built, tokens =>
    (body.read goal built tokens).map fun found => (found.1.map (Node.labelled f), found.2)
  | .chain base probe step, built, tokens => do
    let (nodes, behind) ← base.read goal built tokens
    readChain (fun ns ts => (probe.read goal ns ts).isSome) (fun ns ts => step.read goal ns ts)
      (behind.length + 1) nodes behind
  | .call g, _, tokens => goal g tokens

/-- Reads a goal of a grammar; `fuel` bounds how deep goals call each other. -/
def readGoal {Goal : Type} (grammar : Goal → Shape Goal) : Nat → Goal → List Token → Reading
  | 0, _, _ => none
  | fuel + 1, goal, tokens => (grammar goal).read (readGoal grammar fuel) [] tokens

end JavaOutline.Grammar
