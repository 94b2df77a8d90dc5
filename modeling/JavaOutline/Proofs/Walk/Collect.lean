import JavaOutline.Proofs.Outline.Parts
import JavaOutline.Proofs.Walk.Trails
import JavaOutline.Walk.Collect
import Mathlib.Data.List.Basic

/-!
What collecting walks find. An unpruned walk over an outline answers exactly where all ways down
have room; the answer of a collector then lists the calls or assignments at all places below its
start, each place once, those inside others first and all others as they stand.
-/
namespace JavaOutline

open Walk

def Expression.call? (expression : Expression) : Option MethodCall :=
  match expression.kind with
  | .call called => some called
  | _ => none

def Expression.assignment? (expression : Expression) : Option Assignment :=
  match expression.kind with
  | .assign assigned => some assigned
  | _ => none

namespace Walk

variable {α β : Type}

theorem Trail.within_ok (trail : Trail α) (limit : Nat) (found : Trail α → β) (answer : β) :
    trail.within limit found = .ok answer ↔ trail.exceeded = false ∧ found trail = answer := by
  cases broken : trail.exceeded <;> simp [Trail.within, broken]

theorem Trail.within_error (trail : Trail α) (limit : Nat) (found : Trail α → β) :
    trail.within limit found = .error (.depthExceeded limit) ↔ trail.exceeded = true := by
  cases broken : trail.exceeded <;> simp [Trail.within, broken]

def Visit.levels : Visit → Nat :=
  (outlineManner []).cost

theorem trace_complete (limit : Nat) (tree : Rose Visit) (room : tree.height Visit.levels ≤ limit) :
    (trace limit [] tree).Complete ⟨limit, 0⟩ fun join => tree.listed join :=
  Rose.walk_complete (outlineManner []) ⟨limit, 0⟩ (fun _ => rfl) tree
    (by simpa [Visit.levels] using room)

theorem trace_exceeded (limit : Nat) (tree : Rose Visit) :
    (trace limit [] tree).exceeded = true ↔ limit < tree.height Visit.levels := by
  constructor
  · intro exceeded
    by_contra room
    have complete := trace_complete limit tree (by omega)
    simp [complete.reached] at exceeded
  · intro tight
    exact Rose.walk_exceeds (outlineManner []) ⟨limit, 0⟩ (fun _ => rfl) tree (Nat.zero_le _)
      (by simpa [Visit.levels] using tight)

theorem trace_answers (limit : Nat) (tree : Rose Visit) (found : Trail Visit → β) (answer : β)
    (ok : (trace limit [] tree).within limit found = .ok answer) :
    (trace limit [] tree).Complete ⟨limit, 0⟩ (fun join => tree.listed join) ∧
      found (trace limit [] tree) = answer := by
  obtain ⟨reached, same⟩ := (Trail.within_ok ..).mp ok
  refine ⟨trace_complete limit tree ?_, same⟩
  by_contra tight
  simp [(trace_exceeded limit tree).mpr (by omega)] at reached

section
variable (select : Expression → Option β)

def Visit.gathered (whole : Visit) : List β :=
  ((whole.tree.listed Join.behind).map Prod.snd).filterMap
    fun visit => visit.expression?.bind select

theorem gathered_unfolds (whole : Visit) :
    whole.gathered select = whole.parts.flatMap (Visit.gathered select) ++
      (whole.expression?.bind select).toList := by
  rw [Visit.gathered, Visit.tree_unfolds.nodes_behind, List.filterMap_append,
    List.filterMap_flatMap, List.filterMap_eq_flatMap_toList _ [whole], List.flatMap_singleton]
  rfl

theorem mem_gathered {whole : Visit} {value : β} (member : value ∈ whole.gathered select) :
    ∃ place e, whole.at? place = some (.expression e) ∧ select e = some value := by
  obtain ⟨visit, listed, selected⟩ := List.mem_filterMap.mp member
  obtain ⟨⟨place, same⟩, entry, rfl⟩ := List.mem_map.mp listed
  obtain ⟨e, expression, found⟩ := Option.bind_eq_some_iff.mp selected
  have stands := (Visit.tree_unfolds.mem_listed whole place same).mp
    (whole.tree.postorder_perm_preorder.mem_iff.mp entry)
  cases same <;> cases expression
  exact ⟨place, e, stands, found⟩

end

/-- A sort of visits that stand alone below the expressions they belong to, and nowhere else. -/
def StandsFor (pick : Visit → Option β) (select : Expression → Option β) : Prop :=
  ∀ whole : Visit,
    (∃ part, whole.parts = [part] ∧ pick part = whole.expression?.bind select) ∨
      ((∀ part ∈ whole.parts, pick part = none) ∧ whole.expression?.bind select = none)

section
variable (pick : Visit → Option β) (select : Expression → Option β)
  (standsFor : StandsFor pick select)
include standsFor

-- The visit of a call is done right before the expression around it, so the two sorts of entries
-- come in the same order; only where a walk starts at such a visit there is one more at the end.
theorem picked_eq_gathered (whole : Visit) :
    ((whole.tree.listed Join.behind).map Prod.snd).filterMap pick =
      whole.gathered select ++ (pick whole).toList := by
  refine Visit.tree_unfolds.induction (motive := fun whole =>
    ((whole.tree.listed Join.behind).map Prod.snd).filterMap pick =
      whole.gathered select ++ (pick whole).toList)
    (fun whole below => ?_) whole
  rw [Visit.tree_unfolds.nodes_behind whole, List.filterMap_append, List.filterMap_flatMap,
    List.filterMap_eq_flatMap_toList _ [whole], List.flatMap_singleton, gathered_unfolds]
  congr 1
  rcases standsFor whole with ⟨part, only, same⟩ | ⟨none, nothing⟩
  · rw [only] at below ⊢
    simp only [List.flatMap_singleton, below part List.mem_cons_self, same]
  · rw [nothing, Option.toList_none, List.append_nil]
    refine List.flatMap_congr fun part member => ?_
    rw [below part member, none part member, Option.toList_none, List.append_nil]

theorem finished_gathered (start : Visit) (apart : pick start = none) (limit : Nat)
    (found : List β)
    (ok : ((trace limit [] start.tree).within limit fun trail => trail.finished.filterMap pick) =
      .ok found) : found = start.gathered select := by
  obtain ⟨complete, rfl⟩ := trace_answers limit start.tree _ found ok
  rw [complete.finished, picked_eq_gathered pick select standsFor, apart, Option.toList_none,
    List.append_nil]

end

def Visit.Plain (visit : Visit) : Prop :=
  visit.call? = none ∧ visit.assignment? = none

theorem plain_members (member : Member) : ∀ part ∈ member.parts, part.Plain := by
  cases member <;>
    simp [Member.parts, Visit.Plain, Visit.call?, Visit.assignment?, or_imp, forall_and]

theorem plain_labels (label : SwitchLabel) : ∀ part ∈ label.parts, part.Plain := by
  cases label <;> simp [SwitchLabel.parts, Visit.Plain, Visit.call?, Visit.assignment?]

theorem plain_statements (kind : StatementKind) : ∀ part ∈ kind.parts, part.Plain := by
  cases kind <;>
    simp only [StatementKind.parts, Attempt.parts, ConstructorCall.parts, List.forall_mem_append,
      List.forall_mem_cons, List.forall_mem_map, List.not_mem_nil, Visit.Plain, Visit.call?,
      Visit.assignment?, and_self, false_implies, implies_true]

theorem calls_stand_alone (whole : Visit) :
    (∃ part, whole.parts = [part] ∧ part.call? = whole.expression?.bind Expression.call? ∧
        part.assignment? = whole.expression?.bind Expression.assignment?) ∨
      ((∀ part ∈ whole.parts, part.Plain) ∧
        whole.expression?.bind Expression.call? = none ∧
        whole.expression?.bind Expression.assignment? = none) := by
  cases whole with
  | expression e =>
      obtain ⟨kind, span⟩ := e
      cases kind with
      | call called => exact Or.inl ⟨.call called, rfl, rfl, rfl⟩
      | assign assigned => exact Or.inl ⟨.assign assigned, rfl, rfl, rfl⟩
      | lambda parameters body => cases body <;> exact Or.inl ⟨_, rfl, rfl, rfl⟩
      | _ =>
          refine Or.inr ⟨?_, rfl, rfl⟩
          simp only [Visit.parts, ExpressionKind.parts, ObjectCreation.parts,
            List.forall_mem_append, List.forall_mem_cons, List.forall_mem_map, List.not_mem_nil,
            Visit.Plain, Visit.call?, Visit.assignment?, and_self, false_implies, implies_true]
  | classBody b =>
      refine Or.inr ⟨fun part member => ?_, rfl, rfl⟩
      obtain ⟨declared, _, inside⟩ := List.mem_flatMap.mp member
      exact plain_members declared part inside
  | statement s => exact Or.inr ⟨plain_statements s.kind, rfl, rfl⟩
  | switch b =>
      refine Or.inr ⟨fun part member => ?_, rfl, rfl⟩
      rcases List.mem_cons.mp member with rfl | inEntry
      · exact ⟨rfl, rfl⟩
      · obtain ⟨entry, _, inside⟩ := List.mem_flatMap.mp inEntry
        rcases List.mem_append.mp inside with inLabel | inBody
        · obtain ⟨label, _, value⟩ := List.mem_flatMap.mp inLabel
          exact plain_labels label part value
        · obtain ⟨statement, _, rfl⟩ := List.mem_map.mp inBody
          exact ⟨rfl, rfl⟩
  | declaration d =>
      refine Or.inr ⟨fun part member => ?_, rfl, rfl⟩
      obtain ⟨declarator, _, inside⟩ := List.mem_flatMap.mp member
      obtain ⟨value, _, rfl⟩ := List.mem_map.mp inside
      exact ⟨rfl, rfl⟩
  | _ =>
      refine Or.inr ⟨?_, rfl, rfl⟩
      simp [Visit.parts, Visit.Plain, Visit.call?, Visit.assignment?, or_imp, forall_and]

theorem call_stands_for : StandsFor Visit.call? Expression.call? := by
  intro whole
  rcases calls_stand_alone whole with ⟨part, only, same, _⟩ | ⟨plain, nothing, _⟩
  · exact Or.inl ⟨part, only, same⟩
  · exact Or.inr ⟨fun part member => (plain part member).1, nothing⟩

theorem assignment_stands_for : StandsFor Visit.assignment? Expression.assignment? := by
  intro whole
  rcases calls_stand_alone whole with ⟨part, only, _, same⟩ | ⟨plain, _, nothing⟩
  · exact Or.inl ⟨part, only, same⟩
  · exact Or.inr ⟨fun part member => (plain part member).2, nothing⟩

/-- `found` lists what is selected among the expressions below a node: there is the enumeration
`every` of these expressions in pre-order, and an `order` of the selected ones in which those
inside others come first and those apart stay in pre-order. -/
def Collects (start : Visit) (limit : Nat) (select : Expression → Option β) (found : List β) :
    Prop :=
  ∃ (every : List (Place × Expression)) (order : List (Place × β)),
    Listing (fun place => (start.at? place).bind Visit.expression?) every ∧
      expressions limit start.tree = .ok (every.map Prod.snd) ∧
      order.Perm (every.filterMap (selectAt select)) ∧
      order.Pairwise (fun first second => first.1.DoneBefore second.1) ∧
      order.map Prod.snd = found

theorem finished_collects (pick : Visit → Option β) (select : Expression → Option β)
    (standsFor : StandsFor pick select) (start : Visit) (apart : pick start = none) (limit : Nat)
    (found : List β)
    (ok : ((trace limit [] start.tree).within limit fun trail => trail.finished.filterMap pick) =
      .ok found) : Collects start limit select found := by
  obtain ⟨complete, same⟩ := trace_answers limit start.tree _ found ok
  refine ⟨(start.tree.listed Join.before).filterMap (selectAt Visit.expression?),
    (start.tree.listed Join.behind).filterMap
      (selectAt fun visit => visit.expression?.bind select), ?_, ?_, ?_, ?_, ?_⟩
  · exact (Visit.tree_unfolds.listing start).select Visit.expression?
  · rw [select_nodes, ← complete.entered]
    exact (Trail.within_ok ..).mpr ⟨complete.reached, rfl⟩
  · rw [select_select]
    exact start.tree.postorder_perm_preorder.filterMap _
  · exact select_ordered _ Place.DoneBefore _ start.tree.listed_postorder
  · rw [select_nodes]
    exact (finished_gathered pick select standsFor start apart limit found ok).symm

/-- The nodes that a walk can start from. -/
inductive Start where
  | unit (unit : CompilationUnit)
  | type (type : TypeDeclaration)
  | classBody (body : ClassBody)
  | method (method : MethodDeclaration)
  | block (block : Block)
  | statement (statement : Statement)
  | expression (expression : Expression)

def Start.visit : Start → Visit
  | .unit u => .unit u
  | .type t => .type t
  | .classBody b => .classBody b
  | .method m => .method m
  | .block b => .block b
  | .statement s => .statement s
  | .expression e => .expression e

theorem Start.plain (start : Start) : start.visit.Plain := by
  cases start <;> exact ⟨rfl, rfl⟩

theorem collectors_post_order (start : Start) (limit : Nat) :
    (∀ found, calls limit start.visit.tree = .ok found →
      Collects start.visit limit Expression.call? found) ∧
    (∀ found, assignments limit start.visit.tree = .ok found →
      Collects start.visit limit Expression.assignment? found) := by
  constructor
  · intro found ok
    exact finished_collects _ _ call_stands_for start.visit start.plain.1 limit found ok
  · intro found ok
    exact finished_collects _ _ assignment_stands_for start.visit start.plain.2 limit found ok

/-- The call `f(x = g())`. -/
theorem nested_calls_collected :
    ∃ (inner outer : MethodCall) (assigned : Assignment),
      assigned.value.kind = .call inner ∧
      outer.arguments.map Expression.kind = [.assign assigned] ∧
      calls 4 (Start.expression ⟨.call outer, default⟩).visit.tree = .ok [inner, outer] ∧
      Collects (.expression ⟨.call outer, default⟩) 4 Expression.call? [inner, outer] ∧
      Collects (.expression ⟨.call outer, default⟩) 4 Expression.assignment? [assigned] := by
  let inner : MethodCall := ⟨none, [], "g", [], default⟩
  let assigned : Assignment := ⟨⟨.name "x", default⟩, "=", ⟨.call inner, default⟩, default⟩
  let outer : MethodCall := ⟨none, [], "f", [⟨.assign assigned, default⟩], default⟩
  have called : calls 4 (Visit.expression ⟨.call outer, default⟩).tree = .ok [inner, outer] := by
    cbv
  have changed : assignments 4 (Visit.expression ⟨.call outer, default⟩).tree = .ok [assigned] := by
    cbv
  have collected := collectors_post_order (.expression ⟨.call outer, default⟩) 4
  exact ⟨inner, outer, assigned, rfl, rfl, called, collected.1 _ called, collected.2 _ changed⟩

end Walk

end JavaOutline
