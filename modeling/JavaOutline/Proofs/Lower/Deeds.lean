import JavaOutline.Lower.Source
import JavaOutline.Proofs.Grammar.Picks
import JavaOutline.Proofs.Walk.Collect
import Mathlib.Data.List.Perm.Basic

/-!
The calls and assignments of a concrete tree and those of an outline. In a tree they are the nodes
of two rules, and those inside annotations do not count; in an outline they are what the collecting
walks list.
-/
namespace JavaOutline

open Walk

inductive Deed where
  | call
  | assignment
deriving DecidableEq

def Deed.rule : Deed → Tree.Rule
  | .call => .methodInvocation
  | .assignment => .assignmentExpression

def Deed.span? : Deed → Visit → Option Span
  | .call, visit => visit.call?.map MethodCall.span
  | .assignment, visit => visit.assignment?.map Assignment.span

/-- The spans of the deeds at and below a node, inner ones first. -/
def Walk.Visit.deeds (deed : Deed) (whole : Visit) : List Span :=
  ((whole.tree.listed Join.behind).map Prod.snd).filterMap deed.span?

theorem calls_deeds (limit : Nat) (whole : Visit)
    (room : whole.tree.height Visit.levels ≤ limit) :
    ∃ found, calls limit whole.tree = .ok found ∧
      found.map MethodCall.span = whole.deeds .call := by
  have complete := trace_complete limit whole.tree room
  refine ⟨_, (Trail.within_ok ..).mpr ⟨complete.reached, rfl⟩, ?_⟩
  rw [complete.finished, List.map_filterMap]
  rfl

theorem assignments_deeds (limit : Nat) (whole : Visit)
    (room : whole.tree.height Visit.levels ≤ limit) :
    ∃ found, assignments limit whole.tree = .ok found ∧
      found.map Assignment.span = whole.deeds .assignment := by
  have complete := trace_complete limit whole.tree room
  refine ⟨_, (Trail.within_ok ..).mpr ⟨complete.reached, rfl⟩, ?_⟩
  rw [complete.finished, List.map_filterMap]
  rfl

end JavaOutline

namespace JavaOutline.Tree.Node

mutual

def everywhere (test : Node → Bool) : Node → Bool
  | .mk kind label start stop children =>
    test (.mk kind label start stop children) && everywhereAll test children

def everywhereAll (test : Node → Bool) : List Node → Bool
  | [] => true
  | n :: rest => everywhere test n && everywhereAll test rest

end

theorem everywhere_all (test : Node → Bool) (nodes : List Node) :
    everywhereAll test nodes = nodes.all (everywhere test) := by
  induction nodes with
  | nil => rw [everywhereAll, List.all_nil]
  | cons n rest ih => rw [everywhereAll, ih, List.all_cons]

theorem everywhere_iff (test : Node → Bool) (n : Node) :
    n.everywhere test = true ↔ ∀ m, n.Has m → test m = true := by
  induction n using Node.induction with
  | step n below =>
      have own : n.everywhere test = true ↔
          test n = true ∧ ∀ child ∈ n.children, child.everywhere test = true := by
        cases n
        rw [everywhere, everywhere_all, Bool.and_eq_true, List.all_eq_true]
        rfl
      rw [own]
      constructor
      · rintro ⟨here, inside⟩ m has
        cases has with
        | self => exact here
        | deeper member inner => exact (below _ member).mp (inside _ member) m inner
      · intro all
        refine ⟨all n (.self n), fun child member => (below child member).mpr fun m has => ?_⟩
        exact all m (.deeper member has)

def annotates (n : Node) : Bool :=
  n.is .annotationMark || n.is .annotationCall

def Silent (deed : Deed) (n : Node) : Prop :=
  ∀ m, n.Has m → m.is deed.rule = false

instance (deed : Deed) (n : Node) : Decidable (n.Silent deed) :=
  decidable_of_iff (n.everywhere (fun m => !m.is deed.rule) = true)
    (by simp [everywhere_iff, Silent])

theorem Silent.below {deed : Deed} {n m : Node} (silent : n.Silent deed) (has : n.Has m) :
    m.Silent deed :=
  fun other inside => silent other (has.trans inside)

end JavaOutline.Tree.Node

namespace JavaOutline.Lower

open JavaOutline.Tree
open JavaOutline.Grammar

namespace Source

mutual

/-- The spans of the deeds at and below a node, those inside annotations apart. -/
def deeds (source : Source) (deed : Deed) : Node → List Span
  | .mk kind label start stop children =>
    let n := Node.mk kind label start stop children
    if n.annotates then []
    else (if n.is deed.rule then [source.span n] else []) ++ source.deedsAll deed children

def deedsAll (source : Source) (deed : Deed) : List Node → List Span
  | [] => []
  | n :: rest => source.deeds deed n ++ source.deedsAll deed rest

end

variable (source : Source) {deed : Deed}

theorem deeds_all_flat (nodes : List Node) :
    source.deedsAll deed nodes = nodes.flatMap (source.deeds deed) := by
  induction nodes with
  | nil => rw [deedsAll, List.flatMap_nil]
  | cons n rest ih => rw [deedsAll, ih, List.flatMap_cons]

theorem deeds_children (n : Node) (plain : n.annotates = false) :
    source.deeds deed n =
      (if n.is deed.rule then [source.span n] else []) ++
        n.children.flatMap (source.deeds deed) := by
  cases n
  rw [deeds]
  simp only [plain, Bool.false_eq_true, ↓reduceIte, deeds_all_flat, Node.children]

theorem annotating_deeds (n : Node) (annotating : n.annotates = true) :
    source.deeds deed n = [] := by
  cases n
  rw [deeds]
  simp only [annotating, ↓reduceIte]

theorem silent_deeds (n : Node) (silent : n.Silent deed) : source.deeds deed n = [] := by
  induction n using Node.induction with
  | step n below =>
      by_cases annotating : n.annotates = true
      · exact source.annotating_deeds n annotating
      · rw [source.deeds_children n (by simpa using annotating), silent n (.self n)]
        simp only [Bool.false_eq_true, ↓reduceIte, List.nil_append, List.flatMap_eq_nil_iff]
        exact fun child member => below child member (silent.below (.deeper member (.self child)))

/-- The rules below which an outline keeps texts alone: literals, parameters, and what an element
of an annotation type is declared with. -/
def veiled : List Rule :=
  [.stringLiteral, .formalParameters, .annotationTypeElementDeclaration]

/-- No deed stands where an outline leaves it out, or where an outline takes a type, a pattern or an
annotation for an expression. -/
structure Open (source : Source) (deed : Deed) (n : Node) : Prop where
  veils : veiled.any n.is = true → source.deeds deed n = []
  sizes : n.is .dimensionsExpr = true → n.children.any Node.annotates = true → n.Silent deed
  shown : (n.is .switchLabel || n.is .methodReference) = true → ∀ part ∈ n.children,
    (.pattern :: typeRules).any part.is = true → part.Silent deed

instance (n : Node) : Decidable (source.Open deed n) :=
  decidable_of_iff ((veiled.any n.is = true → source.deeds deed n = []) ∧
      (n.is .dimensionsExpr = true → n.children.any Node.annotates = true → n.Silent deed) ∧
      ((n.is .switchLabel || n.is .methodReference) = true → ∀ part ∈ n.children,
        (.pattern :: typeRules).any part.is = true → part.Silent deed))
    ⟨fun ⟨veils, sizes, shown⟩ => ⟨veils, sizes, shown⟩,
      fun ⟨veils, sizes, shown⟩ => ⟨veils, sizes, shown⟩⟩

def Clear (source : Source) (deed : Deed) (n : Node) : Prop :=
  ∀ m, n.Has m → source.Open deed m

instance (n : Node) : Decidable (source.Clear deed n) :=
  decidable_of_iff (n.everywhere (fun m => decide (source.Open deed m)) = true)
    (by simp [Node.everywhere_iff, Clear])

theorem Clear.below {source : Source} {n m : Node} (clear : source.Clear deed n)
    (has : n.Has m) : source.Clear deed m :=
  fun other inside => clear other (has.trans inside)

end Source

end JavaOutline.Lower
