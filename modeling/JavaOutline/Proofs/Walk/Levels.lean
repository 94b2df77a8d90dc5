import JavaOutline.Proofs.Walk.Trails

/-!
The open levels of a walk. A walk comes by the nodes of its tree in pre-order, each with the levels
opened above it, up to the first node that wants a level and finds none. However it ends, it leaves
the budget as it found it, and it closes no level that is not open.
-/
namespace JavaOutline.Walk

variable {α : Type}

def upTo (stops : α → Bool) : List α → List α
  | [] => []
  | first :: rest => if stops first then [first] else first :: upTo stops rest

theorem upTo_append (stops : α → Bool) (front back : List α) :
    upTo stops (front ++ back) =
      if front.any stops then upTo stops front else front ++ upTo stops back := by
  induction front with
  | nil => simp
  | cons first rest ih =>
      by_cases stop : stops first
      · simp [upTo, stop]
      · by_cases later : rest.any stops
        · simp [upTo, stop, later, ih]
        · simp [upTo, stop, later, ih]

theorem upTo_all (stops : α → Bool) (items : List α) (none : items.any stops = false) :
    upTo stops items = items := by
  have whole := upTo_append stops items []
  simpa [none, upTo] using whole

theorem upTo_split (stops : α → Bool) (items : List α) (some' : items.any stops = true) :
    ∃ front last back, items = front ++ last :: back ∧ stops last = true ∧
      front.any stops = false ∧ upTo stops items = front ++ [last] := by
  induction items with
  | nil => simp at some'
  | cons first rest ih =>
      by_cases stop : stops first
      · exact ⟨[], first, rest, rfl, stop, rfl, by simp [upTo, stop]⟩
      · have later : rest.any stops = true := by simpa [stop] using some'
        obtain ⟨front, last, back, split, stopped, passed, same⟩ := ih later
        refine ⟨first :: front, last, back, by simp [split], stopped, ?_, ?_⟩
        · simp [stop, passed]
        · simp [upTo, stop, same]

theorem upTo_subset (stops : α → Bool) (items : List α) : upTo stops items ⊆ items := by
  induction items with
  | nil => exact List.Subset.refl _
  | cons first rest ih =>
      rw [upTo]
      split
      · simp
      · exact List.cons_subset_cons first ih

theorem upTo_prefix (sooner later : α → Bool) (items : List α)
    (order : ∀ item, later item = true → sooner item = true) :
    upTo sooner items <+: upTo later items := by
  induction items with
  | nil => exact List.prefix_refl _
  | cons first rest ih =>
      by_cases stop : sooner first
      · by_cases both : later first
        · simp [upTo, stop, both]
        · simp [upTo, stop, both]
      · have passed : later first = false := by
          cases both : later first with
          | false => rfl
          | true => exact absurd (order first both) stop
        simp only [upTo, stop, passed]
        exact (List.prefix_cons_inj first).mpr ih

section Above
variable (parts : α → List α) (cost : α → Nat)

def chargeAbove (whole : α) : Place → Nat
  | [] => 0
  | index :: rest => cost whole + ((parts whole)[index]?.elim 0 fun part => chargeAbove part rest)

end Above

theorem enter_room (budget : DepthBudget) (room : budget.current < budget.limit) :
    budget.enter? = some { budget with current := budget.current + 1 } := by
  simp [DepthBudget.enter?, Nat.not_le.mpr room]

theorem enter_full (budget : DepthBudget) (full : budget.limit ≤ budget.current) :
    budget.enter? = none := by
  simp [DepthBudget.enter?, full]

def Manner.blocked (manner : Manner α) (limit : Nat) (event : α × Nat) : Bool :=
  manner.opens event.1 && !manner.prunes event.1 && decide (limit ≤ event.2)

theorem Manner.blocked_mono (manner : Manner α) (small large : Nat) (order : small ≤ large)
    (event : α × Nat) (blocked : manner.blocked large event = true) :
    manner.blocked small event = true := by
  simp only [Manner.blocked, Bool.and_eq_true, decide_eq_true_eq] at blocked ⊢
  exact ⟨blocked.1, Nat.le_trans order blocked.2⟩

namespace Rose

variable (manner : Manner α)

mutual

/-- The nodes in pre-order with the levels open above each, and nothing below a pruned one. -/
def levelled (above : Nat) : Rose α → List (α × Nat)
  | .node value children =>
    (value, above) ::
      if manner.prunes value then [] else levelledAll (above + manner.cost value) children

def levelledAll (above : Nat) : List (Rose α) → List (α × Nat)
  | [] => []
  | tree :: rest => tree.levelled above ++ levelledAll above rest

end

theorem mem_levelled_all (above : Nat) (trees : List (Rose α)) (event : α × Nat) :
    event ∈ levelledAll manner above trees ↔
      ∃ tree ∈ trees, event ∈ tree.levelled manner above := by
  induction trees with
  | nil => simp [levelledAll]
  | cons tree rest ih => simp [levelledAll, ih]

theorem levelled_above (tree : Rose α) (above : Nat) (event : α × Nat)
    (member : event ∈ tree.levelled manner above) : above ≤ event.2 := by
  induction tree using Rose.induction generalizing above with
  | step value children below =>
      rw [levelled] at member
      rcases List.mem_cons.mp member with rfl | inner
      · exact Nat.le_refl _
      · split at inner
        · cases inner
        · obtain ⟨child, among, inChild⟩ := (mem_levelled_all manner _ children event).mp inner
          exact Nat.le_trans (Nat.le_add_right ..) (below child among _ inChild)

theorem walk_all_within (trees : List (Rose α)) (budget : DepthBudget)
    (restored : ∀ tree ∈ trees, (tree.walk manner budget).budget = budget)
    (each : ∀ tree ∈ trees, ∀ event ∈ (tree.walk manner budget).entered,
      event.2 ≤ budget.limit) :
    ∀ event ∈ (walkAll manner budget trees).entered, event.2 ≤ budget.limit := by
  induction trees with
  | nil => simp [walkAll]
  | cons tree rest ih =>
      intro event member
      simp only [walkAll, restored tree List.mem_cons_self] at member
      split at member
      · exact each tree List.mem_cons_self event member
      · rcases List.mem_append.mp member with own | other
        · exact each tree List.mem_cons_self event own
        · refine ih ?_ ?_ event other
          · exact fun later among => restored later (List.mem_cons_of_mem _ among)
          · exact fun later among => each later (List.mem_cons_of_mem _ among)

/-- The trail of a walk that leaves the budget as it was and logs the nodes up to the first one
that finds no level. -/
structure Logs (budget : DepthBudget) (nodes : List (α × Nat)) (trail : Trail α) : Prop where
  restored : trail.budget = budget
  entered : trail.entered = upTo (manner.blocked budget.limit) nodes
  exceeded : trail.exceeded = nodes.any (manner.blocked budget.limit)

theorem walk_all_logs (trees : List (Rose α)) (budget : DepthBudget)
    (each : ∀ tree ∈ trees,
      Logs manner budget (tree.levelled manner budget.current) (tree.walk manner budget)) :
    Logs manner budget (levelledAll manner budget.current trees)
      (walkAll manner budget trees) := by
  induction trees with
  | nil => exact ⟨rfl, rfl, rfl⟩
  | cons tree rest ih =>
      have first := each tree List.mem_cons_self
      have others := ih fun other member => each other (List.mem_cons_of_mem _ member)
      simp only [walkAll, levelledAll]
      cases broken : (tree.walk manner budget).exceeded with
      | true =>
          have stopped := first.exceeded.symm.trans broken
          simp only [↓reduceIte]
          constructor
          · exact first.restored
          · rw [upTo_append, if_pos stopped, first.entered]
          · rw [List.any_append, stopped, Bool.true_or, broken]
      | false =>
          have passed := first.exceeded.symm.trans broken
          simp only [Bool.false_eq_true, ↓reduceIte, first.restored]
          constructor
          · exact others.restored
          · rw [upTo_append, if_neg (by simp [passed]), first.entered, upTo_all _ _ passed,
              others.entered]
          · rw [List.any_append, passed, Bool.false_or, others.exceeded]

theorem walk_logs (tree : Rose α) (budget : DepthBudget) :
    Logs manner budget (tree.levelled manner budget.current) (tree.walk manner budget) := by
  induction tree using Rose.induction generalizing budget with
  | step value children below =>
      have inside (deeper : DepthBudget) :=
        walk_all_logs manner children deeper fun child member => below child member deeper
      rw [levelled, walk]
      by_cases pruned : manner.prunes value
      · simp only [pruned, ↓reduceIte]
        constructor <;> simp [upTo, Manner.blocked, pruned]
      · cases opens : manner.opens value with
        | false =>
            obtain ⟨restored, entered, exceeded⟩ := inside budget
            have free : manner.blocked budget.limit (value, budget.current) = false := by
              simp [Manner.blocked, opens]
            simp only [pruned, Bool.false_eq_true, ↓reduceIte, Manner.cost, opens, Nat.add_zero]
            exact ⟨restored, by simp [upTo, free, entered], by simp [free, exceeded]⟩
        | true =>
            simp only [pruned, Bool.false_eq_true, ↓reduceIte, Manner.cost, opens]
            -- A value that opens a level without room for it is where the walk breaks off.
            by_cases room : budget.current < budget.limit
            · obtain ⟨restored, entered, exceeded⟩ :=
                inside { budget with current := budget.current + 1 }
              have free : manner.blocked budget.limit (value, budget.current) = false := by
                simp [Manner.blocked, opens, pruned, room]
              simp only [enter_room budget room]
              refine ⟨by simp [restored, DepthBudget.exit], ?_, ?_⟩
              · simp [upTo, free, entered]
              · simp [free, exceeded]
            · have blocked : manner.blocked budget.limit (value, budget.current) = true := by
                simp [Manner.blocked, opens, pruned, Nat.not_lt.mp room]
              simp only [enter_full budget (Nat.not_lt.mp room)]
              exact ⟨rfl, by simp [upTo, blocked], by simp [blocked]⟩

theorem walk_within (tree : Rose α) (budget : DepthBudget)
    (begun : budget.current ≤ budget.limit) :
    ∀ event ∈ (tree.walk manner budget).entered, event.2 ≤ budget.limit := by
  induction tree using Rose.induction generalizing budget with
  | step value children below =>
      have inside (deeper : DepthBudget) (room : deeper.current ≤ deeper.limit) :=
        walk_all_within manner children deeper
          (fun child _ => (walk_logs manner child deeper).restored)
          fun child member => below child member deeper room
      intro event member
      rw [walk] at member
      split at member
      · rw [List.mem_singleton.mp member]
        exact begun
      · split at member
        · by_cases room : budget.current < budget.limit
          · simp only [enter_room budget room] at member
            rcases List.mem_cons.mp member with rfl | inner
            · exact begun
            · exact inside { budget with current := budget.current + 1 } room event inner
          · simp only [enter_full budget (Nat.not_lt.mp room)] at member
            rw [List.mem_singleton.mp member]
            exact begun
        · rcases List.mem_cons.mp member with rfl | inner
          · exact begun
          · exact inside budget begun event inner

mutual

def closings (budget : DepthBudget) : Rose α → List Nat
  | .node value children =>
    if manner.prunes value then []
    else if manner.opens value then
      match budget.enter? with
      | none => []
      | some deeper =>
        closingsAll deeper children ++ [(walkAll manner deeper children).budget.current]
    else closingsAll budget children

def closingsAll (budget : DepthBudget) : List (Rose α) → List Nat
  | [] => []
  | tree :: rest =>
    let first := tree.walk manner budget
    tree.closings budget ++ if first.exceeded then [] else closingsAll first.budget rest

end

theorem closings_all_open (trees : List (Rose α)) (budget : DepthBudget)
    (each : ∀ tree ∈ trees, ∀ now ∈ tree.closings manner budget, budget.current < now) :
    ∀ now ∈ closingsAll manner budget trees, budget.current < now := by
  induction trees with
  | nil => simp [closingsAll]
  | cons tree rest ih =>
      intro now member
      simp only [closingsAll, (walk_logs manner tree budget).restored] at member
      rcases List.mem_append.mp member with own | other
      · exact each tree List.mem_cons_self now own
      · split at other
        · cases other
        · exact ih (fun later among => each later (List.mem_cons_of_mem _ among)) now other

theorem closings_open (tree : Rose α) (budget : DepthBudget) :
    ∀ now ∈ tree.closings manner budget, budget.current < now := by
  induction tree using Rose.induction generalizing budget with
  | step value children below =>
      have inside (deeper : DepthBudget) :=
        closings_all_open manner children deeper fun child member => below child member deeper
      have restored (deeper : DepthBudget) :=
        (walk_all_logs manner children deeper fun child _ => walk_logs manner child deeper).restored
      intro now member
      rw [closings] at member
      split at member
      · cases member
      · split at member
        · by_cases room : budget.current < budget.limit
          · simp only [enter_room budget room] at member
            rcases List.mem_append.mp member with inner | last
            · have deeper := inside { budget with current := budget.current + 1 } now inner
              exact Nat.lt_of_succ_lt deeper
            · rw [List.mem_singleton.mp last, restored]
              exact Nat.lt_succ_self _
          · simp [enter_full budget (Nat.not_lt.mp room)] at member
        · exact inside budget now member

end Rose

end JavaOutline.Walk
