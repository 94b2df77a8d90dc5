import JavaOutline.Grammar.Source
import JavaOutline.Proofs.Grammar.Layout

/-!
An analysis of shapes. It goes through a shape as through a run of nodes that the shape makes, and
keeps track of how far a layout has been gone through; probes make no nodes and are passed over.
Whatever is read by a grammar whose goals pass the analysis is laid out as its rules say.
-/
namespace JavaOutline.Grammar

open JavaOutline.Tree

def Slot.takes (slot : Slot) (label : Option Field) (sorts : Sorts) : Bool :=
  slot.tag.admits label && sorts.below slot.sorts && !sorts.rules.any commentRules.contains

/-- The number of items that a node of the sorts leaves behind. -/
def passed (label : Option Field) (sorts : Sorts) : Layout → Option Nat
  | [] => none
  | .one slot :: _ => if slot.takes label sorts then some 1 else none
  | .maybe slot :: rest =>
    if slot.takes label sorts then some 1 else (passed label sorts rest).map (· + 1)
  | .several slots :: rest =>
    if slots.any (·.takes label sorts) then some 0 else (passed label sorts rest).map (· + 1)

def advance (layout : Layout) (label : Option Field) (sorts : Sorts) (here : Nat) :
    Option (List Nat) :=
  (passed label sorts (layout.drop here)).map fun count => [here + count]

def mayEnd (layout : Layout) (here : Nat) : Bool :=
  (layout.drop here).all fun item =>
    match item with
    | .one _ => false
    | .maybe _ | .several _ => true

def merge (first second : List Nat) : List Nat :=
  first ++ second.filter fun here => !first.contains here

def stepAll (step : Nat → Option (List Nat)) : List Nat → Option (List Nat)
  | [] => some []
  | here :: others =>
    (step here).bind fun ends => (stepAll step others).map fun more => merge ends more

def spread (step : Nat → Option (List Nat)) : Nat → List Nat → List Nat
  | 0, heres => heres
  | count + 1, heres => spread step count (merge heres ((stepAll step heres).getD []))

/-- The positions behind any number of runs of nodes: a set that no run leaves. -/
def repeated (layout : Layout) (step : Nat → Option (List Nat)) (here : Nat) :
    Option (List Nat) :=
  let heres := spread step (layout.length + 1) [here]
  if (stepAll step heres).elim false fun ends => ends.all heres.contains then some heres else none

def everyRule : List Rule :=
  (List.range 142).map Rule.ofNat

theorem mem_every_rule (r : Rule) : r ∈ everyRule := by
  refine List.mem_map.mpr ⟨r.ctorIdx, ?_, Rule.ofNat_ctorIdx r⟩
  rw [List.mem_range]
  cases r <;> decide

def mayBeLeaf (r : Rule) : Bool :=
  (layouts r).any fun layout => mayEnd layout 0

def goalSorts : Goal → Option Sorts
  | .program => some ⟨[.program], some []⟩
  | .statement _ => some statements
  | .block => some ⟨[.block], some []⟩
  | .constructorBody => some ⟨[.constructorBody], some []⟩
  | .name => some ⟨nameRules, some []⟩
  | .noted => some annotations
  | .elementValue => some elementValues
  | .anyType _ | .plainType _ | .simpleType _ => some types
  | .typeArguments => some ⟨[.typeArguments], some []⟩
  | .dimensions => some ⟨[.dimensions], some []⟩
  | .expression .. | .operand _ | .castValue _ | .primary _ => some expressions
  | .creation => some ⟨[.objectCreationExpression, .arrayCreationExpression], some []⟩
  | .arguments => some ⟨[.argumentList], some []⟩
  | .arrayInitializer => some ⟨[.arrayInitializer], some []⟩
  | .formalParameters => some ⟨[.formalParameters], some []⟩
  | .switchExpression => some ⟨[.switchExpression], some []⟩
  | .switchLabel => some ⟨[.switchLabel], some []⟩
  | .recordPattern => some ⟨[.recordPattern], some []⟩
  | .emptyCall | .skippedChoice => none
  | .typeDeclaration => some ⟨declaredTypes, some []⟩
  | .classBody => some ⟨[.classBody], some []⟩
  | .member => some members
  | .moduleBody => some ⟨[.moduleBody], some []⟩

/-- The sorts of nodes that chains hold. -/
def chainSorts : List Sorts :=
  [⟨nameRules, some []⟩, types, expressions]

/-- What is known about the nodes that a shape makes: the positions behind them, if they are put
under a field and a chain holds a node; and whether they go through one of several layouts. -/
structure Analysis where
  ends : Layout → Option Field → Option Sorts → Nat → Option (List Nat)
  fits : List Layout → Option Sorts → Bool

namespace Analysis

def wholly (layout : Layout) (ends : Option (List Nat)) : Bool :=
  ends.elim false fun heres => heres.all (mayEnd layout)

def plainly (ends : Layout → Option Field → Option Sorts → Nat → Option (List Nat)) : Analysis where
  ends := ends
  fits := fun alternatives held =>
    alternatives.any fun layout => wholly layout (ends layout none held 0)

def nothing : Analysis :=
  plainly fun _ _ _ here => some [here]

def node (sorts : Sorts) : Analysis :=
  plainly fun layout label _ here => advance layout label sorts here

def refused : Analysis :=
  plainly fun _ _ _ _ => none

def single (analysis : Analysis) (held : Option Sorts) (sorts : Sorts) : Bool :=
  wholly [.one (plain sorts)] (analysis.ends [.one (plain sorts)] none held 0)

end Analysis

open Analysis in
def analyse : Form → Analysis
  | .done | .heldIs _ | .peek _ | .stop | .skip | .group => nothing
  | .never => plainly fun _ _ _ _ => some []
  | .held => plainly fun layout label held here =>
    held.bind fun sorts => advance layout label sorts here
  | .keyword texts | .symbol texts => node ⟨[], some texts⟩
  | .cut text => node ⟨[], some [text]⟩
  | .word r _ => if mayBeLeaf r then node ⟨[r], some []⟩ else refused
  | .lexeme admits =>
    if (everyRule.filter admits).all mayBeLeaf then node ⟨everyRule.filter admits, some []⟩
    else refused
  | .seq first second => plainly fun layout label held here =>
    ((analyse first).ends layout label held here).bind
      (stepAll ((analyse second).ends layout label held))
  | .pick _ yes no =>
    { ends := fun layout label held here =>
        ((analyse yes).ends layout label held here).bind fun first =>
          ((analyse no).ends layout label held here).map (merge first)
      fits := fun alternatives held =>
        (analyse yes).fits alternatives held && (analyse no).fits alternatives held }
  | .many _ item => plainly fun layout label held here =>
    repeated layout ((analyse item).ends layout label held) here
  | .node r body => plainly fun layout label held here =>
    if (analyse body).fits (layouts r) held then advance layout label ⟨[r], some []⟩ here else none
  | .field f body => plainly fun layout label held here =>
    (analyse body).ends layout (label.or (some f)) held here
  | .chain base _ step => plainly fun layout label held here =>
    (chainSorts.find? fun sorts =>
      (analyse base).single held sorts && (analyse step).single (some sorts) sorts).bind
        fun sorts => advance layout label sorts here
  | .call goal =>
    match goalSorts goal with
    | some sorts => node sorts
    | none => refused

/-- Whether a goal makes one node of its sorts. -/
def goalPasses (goal : Goal) : Bool :=
  (goalSorts goal).all fun sorts => (analyse (java goal)).single none sorts

end JavaOutline.Grammar
