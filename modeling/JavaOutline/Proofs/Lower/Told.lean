import JavaOutline.Proofs.Lower.Deeds
import JavaOutline.Proofs.Walk.Flow

/-!
The statements of a concrete tree. A node is a statement by where it stands: in a list of
statements, behind a label, or as a branch or body. A lone semicolon is a statement as well; where
it is a branch or body it stands under a field, and elsewhere it is a bare token of the list.
-/
namespace JavaOutline.Lower

open JavaOutline.Tree
open JavaOutline.Grammar

def stated : Sorts := ⟨statementRules ++ [.explicitConstructorInvocation], none⟩

/-- How the statements below the nodes of a rule are found. -/
def statementTraits : Rule → List Trait
  | .block | .constructorBody | .switchBlockStatementGroup | .switchRule | .labeledStatement =>
    [.of stated.rules]
  | .ifStatement => [.under .consequence, .under .alternative]
  | .whileStatement | .doStatement | .forStatement | .enhancedForStatement => [.under .body]
  | _ => []

end JavaOutline.Lower

namespace JavaOutline.Tree.Node

open JavaOutline.Grammar
open JavaOutline.Lower

def states (n child : Node) : Bool :=
  match n.kind with
  | .rule r => (statementTraits r).any fun trait => trait.fits child
  | .token _ => false

/-- Whether a child is a lone semicolon in a list of statements or behind a label. -/
def idles (n child : Node) : Bool :=
  [Rule.block, .constructorBody, .switchBlockStatementGroup, .labeledStatement].any n.is &&
    child.kind == .token ";"

def Wordless (n : Node) : Prop :=
  ∀ m, n.Has m → m.children.all (fun child => !m.states child) = true

instance (n : Node) : Decidable n.Wordless :=
  decidable_of_iff (n.everywhere (fun m => m.children.all fun child => !m.states child) = true)
    (by simp [everywhere_iff, Wordless])

theorem Wordless.below {n m : Node} (wordless : n.Wordless) (has : n.Has m) : m.Wordless :=
  fun other inside => wordless other (has.trans inside)

def Busy (n : Node) : Prop :=
  ∀ m, n.Has m → m.children.all (fun child => !m.idles child) = true

instance (n : Node) : Decidable n.Busy :=
  decidable_of_iff (n.everywhere (fun m => m.children.all fun child => !m.idles child) = true)
    (by simp [everywhere_iff, Busy])

end JavaOutline.Tree.Node

namespace JavaOutline.Lower.Source

open JavaOutline.Tree
open JavaOutline.Grammar

mutual

/-- The spans of the statements below a node, an outer one before those in it and those inside
annotations apart; with or without the lone semicolons of lists. -/
def told (source : Source) (lone : Bool) : Node → List Span
  | .mk kind label start stop children =>
    let n := Node.mk kind label start stop children
    if n.annotates then [] else source.toldAll lone n children

def toldAll (source : Source) (lone : Bool) (parent : Node) : List Node → List Span
  | [] => []
  | n :: rest =>
    (if parent.states n || lone && parent.idles n then [source.span n] else []) ++
      source.told lone n ++ source.toldAll lone parent rest

end

variable (source : Source)

theorem told_all_flat (lone : Bool) (parent : Node) (nodes : List Node) :
    source.toldAll lone parent nodes = nodes.flatMap fun n =>
      (if parent.states n || lone && parent.idles n then [source.span n] else []) ++
        source.told lone n := by
  induction nodes with
  | nil => rw [toldAll, List.flatMap_nil]
  | cons n rest ih => rw [toldAll, ih, List.flatMap_cons]

theorem told_children (lone : Bool) (n : Node) (plain : n.annotates = false) :
    source.told lone n = n.children.flatMap fun child =>
      (if n.states child || lone && n.idles child then [source.span child] else []) ++
        source.told lone child := by
  cases n
  rw [told]
  simp only [plain, Bool.false_eq_true, ↓reduceIte, told_all_flat, Node.children]

theorem annotating_told (lone : Bool) (n : Node) (annotating : n.annotates = true) :
    source.told lone n = [] := by
  cases n
  rw [told]
  simp only [annotating, ↓reduceIte]

/-- Leaving out the lone semicolons of lists changes nothing else. -/
theorem told_lone (n : Node) :
    (source.told false n).Sublist (source.told true n) ∧
      (n.Busy → source.told false n = source.told true n) := by
  induction n using Node.induction with
  | step n below =>
      by_cases annotating : n.annotates = true
      · rw [source.annotating_told false n annotating, source.annotating_told true n annotating]
        exact ⟨List.Sublist.refl _, fun _ => rfl⟩
      · have plain : n.annotates = false := by simpa using annotating
        rw [source.told_children false n plain, source.told_children true n plain]
        refine ⟨?_, fun busy => List.flatMap_congr fun child member => ?_⟩
        · refine List.Sublist.flatMap_right _ fun child member => ?_
          refine List.Sublist.append ?_ (below child member).1
          by_cases states : n.states child = true <;> simp [states]
        · have inside : n.Has child := .deeper member (.self child)
          have rest := (below child member).2 fun m has => busy m (inside.trans has)
          have idle : n.idles child = false := by
            simpa using List.all_eq_true.mp (busy n (.self n)) child member
          simp [idle, rest]

/-- No statement stands where an outline leaves it out, or where an outline takes a type, a pattern
or an annotation for an expression. -/
structure Frank (source : Source) (n : Node) : Prop where
  veils : veiled.any n.is = true → source.told false n = []
  sizes : n.is .dimensionsExpr = true → n.children.any Node.annotates = true → n.Wordless
  shown : (n.is .switchLabel || n.is .methodReference) = true → ∀ part ∈ n.children,
    (.pattern :: typeRules).any part.is = true → part.Wordless

instance (n : Node) : Decidable (source.Frank n) :=
  decidable_of_iff ((veiled.any n.is = true → source.told false n = []) ∧
      (n.is .dimensionsExpr = true → n.children.any Node.annotates = true → n.Wordless) ∧
      ((n.is .switchLabel || n.is .methodReference) = true → ∀ part ∈ n.children,
        (.pattern :: typeRules).any part.is = true → part.Wordless))
    ⟨fun ⟨veils, sizes, shown⟩ => ⟨veils, sizes, shown⟩,
      fun ⟨veils, sizes, shown⟩ => ⟨veils, sizes, shown⟩⟩

def Unveiled (source : Source) (n : Node) : Prop :=
  ∀ m, n.Has m → source.Frank m

instance (n : Node) : Decidable (source.Unveiled n) :=
  decidable_of_iff (n.everywhere (fun m => decide (source.Frank m)) = true)
    (by simp [Node.everywhere_iff, Unveiled])

end JavaOutline.Lower.Source
