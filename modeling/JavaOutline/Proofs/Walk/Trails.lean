import JavaOutline.Proofs.Walk.Listings

/-!
What walks leave behind. A walk that prunes nothing breaks off exactly where some way down opens
more levels than the budget has left; otherwise it comes by all nodes in pre-order, is done with
them in post-order and gives the budget back.
-/
namespace JavaOutline.Walk

variable {α : Type}

namespace Rose

mutual

def height (cost : α → Nat) : Rose α → Nat
  | .node value children => cost value + heightAll cost children

def heightAll (cost : α → Nat) : List (Rose α) → Nat
  | [] => 0
  | tree :: rest => max (tree.height cost) (heightAll cost rest)

end

theorem height_all_le (cost : α → Nat) (trees : List (Rose α)) (room : Nat) :
    heightAll cost trees ≤ room ↔ ∀ tree ∈ trees, tree.height cost ≤ room := by
  induction trees with
  | nil => simp [heightAll]
  | cons tree rest ih => rw [heightAll, Nat.max_le, ih, List.forall_mem_cons]

end Rose

/-- The height of a tree that agrees with the parts is the room that all ways down need. -/
theorem Unfolds.height_le {parts : α → List α} {tree : α → Rose α} (unfolds : Unfolds parts tree)
    (cost : α → Nat) (room : Nat) (whole : α) :
    (tree whole).height cost ≤ room ↔ Fits parts cost room whole := by
  revert room
  refine unfolds.induction (motive := fun whole => ∀ room,
    (tree whole).height cost ≤ room ↔ Fits parts cost room whole) (fun whole below room => ?_) whole
  have trees : Rose.heightAll cost ((parts whole).map tree) ≤ room - cost whole ↔
      ∀ part ∈ parts whole, Fits parts cost (room - cost whole) part := by
    rw [Rose.height_all_le, List.forall_mem_map]
    exact forall_congr' fun part => forall_congr' fun member => below part member _
  rw [fits_iff, ← trees, unfolds whole, Rose.height]
  omega

def Manner.cost (manner : Manner α) (value : α) : Nat :=
  if manner.opens value then 1 else 0

/-- The walk came by everything and gave the budget back. -/
structure Trail.Complete (trail : Trail α) (budget : DepthBudget)
    (nodes : Join α → List (Place × α)) : Prop where
  reached : trail.exceeded = false
  restored : trail.budget = budget
  entered : trail.entered.map Prod.fst = (nodes Join.before).map Prod.snd
  finished : trail.finished = (nodes Join.behind).map Prod.snd

namespace Rose

variable (manner : Manner α) (budget : DepthBudget)

theorem walk_all_complete (trees : List (Rose α)) (index : Nat)
    (each : ∀ tree ∈ trees,
      (tree.walk manner budget).Complete budget fun join => tree.listed join) :
    (walkAll manner budget trees).Complete budget fun join => listedAll join index trees := by
  induction trees generalizing index with
  | nil => exact ⟨rfl, rfl, rfl, rfl⟩
  | cons tree rest ih =>
      obtain ⟨reached, restored, entered, finished⟩ := each tree List.mem_cons_self
      have others := ih (index + 1) fun other member => each other (List.mem_cons_of_mem _ member)
      simp only [walkAll, reached, restored, Bool.false_eq_true, ↓reduceIte]
      constructor
      · exact others.reached
      · exact others.restored
      · simp [listedAll, entered, others.entered, Function.comp_def]
      · simp [listedAll, finished, others.finished, Function.comp_def]

theorem walk_complete (unpruned : ∀ value, manner.prunes value = false) (tree : Rose α)
    (room : budget.current + tree.height manner.cost ≤ budget.limit) :
    (tree.walk manner budget).Complete budget fun join => tree.listed join := by
  induction tree using Rose.induction generalizing budget with
  | step value children below =>
      rw [height] at room
      -- The height of a tree is at least that of each child, so there is room for all of them.
      have fitting (deeper : DepthBudget)
          (left : deeper.current + heightAll manner.cost children ≤ deeper.limit) :
          (walkAll manner deeper children).Complete deeper
            fun join => listedAll join 0 children := by
        refine walk_all_complete manner deeper children 0 fun child member => ?_
        have small := (height_all_le manner.cost children _).mp (Nat.le_refl _) child member
        exact below child member deeper (by omega)
      simp only [walk, unpruned, Bool.false_eq_true, ↓reduceIte]
      cases opens : manner.opens value with
      | false =>
          simp only [Manner.cost, opens, Bool.false_eq_true, ↓reduceIte] at room
          obtain ⟨reached, restored, entered, finished⟩ := fitting budget (by omega)
          constructor
          · simpa using reached
          · simpa using restored
          · simp [listed, Join.before, entered]
          · simp [listed, Join.behind, reached, finished]
      | true =>
          simp only [Manner.cost, opens, ↓reduceIte] at room
          have entering : budget.enter? = some { budget with current := budget.current + 1 } := by
            simp only [DepthBudget.enter?]
            rw [if_neg (by omega)]
          obtain ⟨reached, restored, entered, finished⟩ :=
            fitting { budget with current := budget.current + 1 } (by simp only; omega)
          simp only [entering, ↓reduceIte]
          constructor
          · exact reached
          · simp [restored, DepthBudget.exit]
          · simp [listed, Join.before, entered]
          · simp [listed, Join.behind, reached, finished]

theorem walk_all_exceeds (unpruned : ∀ value, manner.prunes value = false)
    (trees : List (Rose α))
    (each : ∀ tree ∈ trees, budget.limit < budget.current + tree.height manner.cost →
      (tree.walk manner budget).exceeded = true)
    (open' : budget.current ≤ budget.limit)
    (tight : budget.limit < budget.current + heightAll manner.cost trees) :
    (walkAll manner budget trees).exceeded = true := by
  induction trees with
  | nil =>
      simp only [heightAll] at tight
      omega
  | cons tree rest ih =>
      simp only [walkAll]
      -- Either the first tree is too high or the walk over it is complete and hands on the budget.
      by_cases high : budget.limit < budget.current + tree.height manner.cost
      · simp [each tree List.mem_cons_self high]
      · have first := walk_complete manner budget unpruned tree (by omega)
        simp only [first.reached, first.restored, Bool.false_eq_true, ↓reduceIte]
        simp only [heightAll] at tight
        exact ih (fun other member => each other (List.mem_cons_of_mem _ member)) (by omega)

theorem walk_exceeds (unpruned : ∀ value, manner.prunes value = false) (tree : Rose α)
    (open' : budget.current ≤ budget.limit)
    (tight : budget.limit < budget.current + tree.height manner.cost) :
    (tree.walk manner budget).exceeded = true := by
  induction tree using Rose.induction generalizing budget with
  | step value children below =>
      rw [height] at tight
      simp only [walk, unpruned, Bool.false_eq_true, ↓reduceIte]
      cases opens : manner.opens value with
      | false =>
          simp only [Manner.cost, opens, Bool.false_eq_true, ↓reduceIte] at tight
          refine walk_all_exceeds manner budget unpruned children ?_ open' (by omega)
          exact fun child member high => below child member budget open' high
      | true =>
          simp only [Manner.cost, opens, ↓reduceIte] at tight
          by_cases full : budget.current ≥ budget.limit
          · simp [DepthBudget.enter?, full]
          · simp only [DepthBudget.enter?, if_neg full, ↓reduceIte]
            refine walk_all_exceeds manner _ unpruned children ?_ (by simp only; omega)
              (by simp only; omega)
            exact fun child member high => below child member _ (by simp only; omega) high

end Rose

end JavaOutline.Walk
