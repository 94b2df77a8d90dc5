import JavaOutline.Lower.Unit
import JavaOutline.Proofs.Walk.Balance
import Mathlib.Data.List.Permutation

/-!
Lowering on a budget. Counting down the levels that are left gives the same outlines as a budget
that lowering opens and closes itself, one level around every expression, statement and type. Such
a run leaves the budget as it found it, also where it fails, and the moves of the budget can be
replayed: each is made with as many levels open as the moves before it leave open.
-/
namespace JavaOutline

namespace Lower

variable {α β : Type}

inductive Move where
  | enter (current : Nat)
  | refuse (current : Nat)
  | exit (current : Nat)

namespace Move

def current : Move → Nat
  | .enter current | .refuse current | .exit current => current

def isEnter : Move → Bool
  | .enter _ => true
  | _ => false

def isExit : Move → Bool
  | .exit _ => true
  | _ => false

end Move

structure Run (α : Type) where
  result : Result α
  budget : DepthBudget
  moves : List Move

/-- A computation that hands a budget on, also where it fails. -/
def Budgeted (α : Type) := DepthBudget → Run α

namespace Budgeted

def after (first : Run α) (next : α → Budgeted β) : Run β :=
  match first.result with
  | .error reason => ⟨.error reason, first.budget, first.moves⟩
  | .ok value =>
    let second := next value first.budget
    ⟨second.result, second.budget, first.moves ++ second.moves⟩

instance : Monad Budgeted where
  pure value := fun budget => ⟨.ok value, budget, []⟩
  bind first next := fun budget => after (first budget) next

instance : MonadExceptOf Fault Budgeted where
  throw reason := fun budget => ⟨.error reason, budget, []⟩
  tryCatch first handle := fun budget =>
    match (first budget).result with
    | .error reason =>
      let second := handle reason (first budget).budget
      ⟨second.result, second.budget, (first budget).moves ++ second.moves⟩
    | .ok _ => first budget

def nested (inner : Budgeted α) : Budgeted α := fun budget =>
  match budget.enter? with
  | none => ⟨.error .tooDeep, budget, [.refuse budget.current]⟩
  | some deeper =>
    let run := inner deeper
    ⟨run.result, run.budget.exit,
      .enter budget.current :: run.moves ++ [.exit run.budget.current]⟩

end Budgeted

/-- Lowering that nests itself. The recursion ends no sooner than the budget does, as long as the
count is not below the room in the budget. -/
def nestedLevels (source : Source) : Nat → (request : Ask) → Budgeted request.Answer
  | 0, _ => Budgeted.nested (throw .tooDeep)
  | left + 1, request => Budgeted.nested ((answer source request).run (nestedLevels source left))

/-- The moves lead from one number of open levels to another, never above the limit, and close only
what was opened above the floor. -/
def Replays (floor limit : Nat) : Nat → List Move → Nat → Prop
  | now, [], last => now = last
  | now, .enter current :: rest, last =>
    current = now ∧ now < limit ∧ Replays floor limit (now + 1) rest last
  | now, .refuse current :: rest, last =>
    current = now ∧ limit ≤ now ∧ Replays floor limit now rest last
  | now, .exit current :: rest, last =>
    current = now ∧ floor < now ∧ Replays floor limit (now - 1) rest last

section Replay
variable {floor limit now last : Nat} {moves : List Move}

theorem Replays.head {move : Move} {rest : List Move}
    (replays : Replays floor limit now (move :: rest) last) : move.current = now := by
  cases move <;> exact replays.1

theorem Replays.append {between : Nat} {others : List Move}
    (first : Replays floor limit now moves between)
    (second : Replays floor limit between others last) :
    Replays floor limit now (moves ++ others) last := by
  induction moves generalizing now with
  | nil =>
      cases first
      exact second
  | cons move rest ih =>
      cases move with
      | enter current => exact ⟨first.1, first.2.1, ih first.2.2⟩
      | refuse current => exact ⟨first.1, first.2.1, ih first.2.2⟩
      | exit current => exact ⟨first.1, first.2.1, ih first.2.2⟩

theorem Replays.lower {higher : Nat} (order : floor ≤ higher)
    (replays : Replays higher limit now moves last) : Replays floor limit now moves last := by
  induction moves generalizing now with
  | nil => exact replays
  | cons move rest ih =>
      cases move with
      | enter current => exact ⟨replays.1, replays.2.1, ih replays.2.2⟩
      | refuse current => exact ⟨replays.1, replays.2.1, ih replays.2.2⟩
      | exit current => exact ⟨replays.1, Nat.lt_of_le_of_lt order replays.2.1, ih replays.2.2⟩

/-- Every move is made with as many levels open as the moves before it leave open. -/
theorem Replays.counted (replays : Replays floor limit now moves last) (before after : List Move)
    (move : Move) (split : moves = before ++ move :: after) :
    move.current + before.countP Move.isExit = now + before.countP Move.isEnter := by
  induction before generalizing now moves with
  | nil =>
      subst split
      exact replays.head
  | cons first rest ih =>
      subst split
      cases first with
      | enter current =>
          have later := ih replays.2.2 rfl
          simp only [List.countP_cons, Move.isExit, Move.isEnter, Bool.false_eq_true, ↓reduceIte]
          omega
      | refuse current => simpa [Move.isExit, Move.isEnter] using ih replays.2.2 rfl
      | exit current =>
          have later := ih replays.2.2 rfl
          have above := replays.2.1
          simp only [List.countP_cons, Move.isExit, Move.isEnter, Bool.false_eq_true, ↓reduceIte]
          omega

theorem Replays.within (replays : Replays floor limit now moves last) (least : floor ≤ now)
    (most : now ≤ limit) (move : Move) (member : move ∈ moves) :
    floor ≤ move.current ∧ move.current ≤ limit := by
  induction moves generalizing now with
  | nil => cases member
  | cons first rest ih =>
      rcases List.mem_cons.mp member with rfl | later
      · have same := replays.head
        omega
      · cases first with
        | enter current => exact ih replays.2.2 (by omega) replays.2.1 later
        | refuse current => exact ih replays.2.2 least most later
        | exit current =>
            have above := replays.2.1
            exact ih replays.2.2 (by omega) (by omega) later

theorem Replays.closes (replays : Replays floor limit now moves last) (current : Nat)
    (member : Move.exit current ∈ moves) : floor < current := by
  induction moves generalizing now with
  | nil => cases member
  | cons first rest ih =>
      rcases List.mem_cons.mp member with rfl | later
      · exact replays.1 ▸ replays.2.1
      · cases first with
        | enter current => exact ih replays.2.2 later
        | refuse current => exact ih replays.2.2 later
        | exit current => exact ih replays.2.2 later

end Replay

structure Run.Keeps (run : Run α) (budget : DepthBudget) (plain : Result α) : Prop where
  answers : run.result = plain
  restored : run.budget = budget
  replays : Replays budget.current budget.limit budget.current run.moves budget.current

theorem nested_keeps (inner : Budgeted α) (budget : DepthBudget) (plain : Result α)
    (room : budget.current < budget.limit)
    (keeps : (inner { budget with current := budget.current + 1 }).Keeps
      { budget with current := budget.current + 1 } plain) :
    (Budgeted.nested inner budget).Keeps budget plain := by
  obtain ⟨answers, restored, replays⟩ := keeps
  simp only [Budgeted.nested, Walk.enter_room budget room]
  refine ⟨answers, by rw [restored]; rfl, rfl, room, ?_⟩
  refine Replays.append (Replays.lower (Nat.le_succ _) replays) ⟨?_, ?_, ?_⟩
  · rw [restored]
  · exact Nat.lt_succ_self _
  · exact Nat.add_sub_cancel ..

-- The plan is the same on both sides, so the runs differ only in how questions are answered.
theorem run_keeps (plan : Plan α) (budget : DepthBudget)
    (onBudget : (request : Ask) → Budgeted request.Answer)
    (plain : (request : Ask) → Result request.Answer)
    (each : ∀ request, (onBudget request budget).Keeps budget (plain request)) :
    (plan.run onBudget budget).Keeps budget (plan.run plain) := by
  induction plan with
  | done value => exact ⟨rfl, rfl, rfl⟩
  | fault reason => exact ⟨rfl, rfl, rfl⟩
  | ask request next ih =>
      obtain ⟨answers, restored, replays⟩ := each request
      show (Budgeted.after (onBudget request budget) fun found => (next found).run onBudget).Keeps
        budget (plain request >>= fun found => (next found).run plain)
      rw [Budgeted.after, answers]
      cases plain request with
      | error reason => exact ⟨rfl, restored, replays⟩
      | ok found =>
          rw [restored]
          exact ⟨(ih found).answers, (ih found).restored, replays.append (ih found).replays⟩

theorem levels_keep (source : Source) (left : Nat) (budget : DepthBudget)
    (enough : budget.limit ≤ budget.current + left) (request : Ask) :
    (nestedLevels source left request budget).Keeps budget
      (levels source (budget.limit - budget.current) request) := by
  induction left generalizing budget request with
  | zero =>
      have full : budget.limit ≤ budget.current := enough
      simp only [nestedLevels, Budgeted.nested, Walk.enter_full budget full,
        Nat.sub_eq_zero_of_le full]
      exact ⟨rfl, rfl, rfl, full, rfl⟩
  | succ left ih =>
      by_cases room : budget.current < budget.limit
      · have fewer : budget.limit - budget.current = budget.limit - (budget.current + 1) + 1 := by
          omega
        rw [fewer]
        refine nested_keeps _ budget _ room (run_keeps _ _ _ _ fun asked => ?_)
        exact ih { budget with current := budget.current + 1 } (by simp only; omega) asked
      · have full : budget.limit ≤ budget.current := Nat.not_lt.mp room
        simp only [nestedLevels, Budgeted.nested, Walk.enter_full budget full,
          Nat.sub_eq_zero_of_le full]
        exact ⟨rfl, rfl, rfl, full, rfl⟩

theorem outline_keeps (source : Source) (root : Tree.Node) (left : Nat) (budget : DepthBudget)
    (enough : budget.limit ≤ budget.current + left) :
    ((outline source root).run (nestedLevels source left) budget).Keeps budget
      ((outline source root).run (levels source (budget.limit - budget.current))) :=
  run_keeps _ budget _ _ fun request => levels_keep source left budget enough request

/-- A run on a budget that answers as lowering does and keeps the budget in balance: every move is
made with as many levels open as at the start and by the moves before it. -/
structure Run.Balanced (run : Run α) (budget : DepthBudget) (plain : Result α) : Prop where
  answers : run.result = plain
  restored : run.budget = budget
  counted : ∀ before move after, run.moves = before ++ move :: after →
    move.current + before.countP Move.isExit = budget.current + before.countP Move.isEnter
  within : ∀ move ∈ run.moves, budget.current ≤ move.current ∧ move.current ≤ budget.limit
  closes : ∀ current, Move.exit current ∈ run.moves → 0 < current

theorem Run.Keeps.balanced {run : Run α} {budget : DepthBudget} {plain : Result α}
    (keeps : run.Keeps budget plain) (begun : budget.current ≤ budget.limit) :
    run.Balanced budget plain where
  answers := keeps.answers
  restored := keeps.restored
  counted := fun before move after split => keeps.replays.counted before after move split
  within := fun move member => keeps.replays.within (Nat.le_refl _) begun move member
  closes := fun current member => Nat.zero_lt_of_lt (keeps.replays.closes current member)

end Lower

open Walk

theorem budgets_balanced (budget : DepthBudget) (begun : budget.current ≤ budget.limit) :
    (∀ (start : Start) (prunes : Place → Visit → Bool),
      Balanced Visit.parts Visit.levels start.visit budget
        ((start.visit.tree.placed []).walk (visitor prunes) budget)
        ((start.visit.tree.placed []).closings (visitor prunes) budget)) ∧
    (∀ (start : Start) (pruned : List VisitKind),
      ((start.visit.tree.placed []).walk (visitor fun _ visit => pruned.contains visit.kind)
        budget).map Prod.snd = start.visit.tree.walk (outlineManner pruned) budget) ∧
    (∀ statement : Statement,
      Balanced Statement.bodies (fun _ => 1) statement budget
        ((statement.flow.placed []).walk (flowManner.through Prod.snd) budget)
        ((statement.flow.placed []).closings (flowManner.through Prod.snd) budget) ∧
      ((statement.flow.placed []).walk (flowManner.through Prod.snd) budget).map Prod.snd =
        statement.flow.walk flowManner budget) ∧
    (∀ (source : Lower.Source) (left : Nat), budget.limit ≤ budget.current + left →
      (∀ request, (Lower.nestedLevels source left request budget).Balanced budget
        (Lower.levels source (budget.limit - budget.current) request)) ∧
      ∀ root, ((Lower.outline source root).run (Lower.nestedLevels source left) budget).Balanced
        budget
        ((Lower.outline source root).run
          (Lower.levels source (budget.limit - budget.current)))) := by
  refine ⟨?_, ?_, ?_, ?_⟩
  · intro start prunes
    exact visitor_balanced prunes start.visit budget begun
  · intro start pruned
    exact Rose.walk_placed (outlineManner pruned) start.visit.tree [] budget
  · intro statement
    exact ⟨flow_balanced statement budget begun, Rose.walk_placed flowManner _ [] budget⟩
  · intro source left enough
    constructor
    · intro request
      exact (Lower.levels_keep source left budget enough request).balanced begun
    · intro root
      exact (Lower.outline_keeps source root left budget enough).balanced begun

/-- A walk over `(x)` with room for one of its two levels. -/
theorem crowded_budget_restored :
    ∃ walked, walked =
        ((Start.expression ⟨.enclosed ⟨.name "x", default⟩, default⟩).visit.tree.placed []).walk
          (visitor fun _ _ => false) ⟨2, 1⟩ ∧
      walked.exceeded = true ∧ walked.entered.map Prod.snd = [1, 2] ∧ walked.budget = ⟨2, 1⟩ ∧
      ∀ event ∈ walked.entered, 1 ≤ event.2 ∧ event.2 ≤ 2 := by
  have balanced := (budgets_balanced ⟨2, 1⟩ (by decide)).1
    (.expression ⟨.enclosed ⟨.name "x", default⟩, default⟩) fun _ _ => false
  refine ⟨_, rfl, ?_, ?_, balanced.restored, balanced.within⟩
  · cbv
  · cbv

end JavaOutline
