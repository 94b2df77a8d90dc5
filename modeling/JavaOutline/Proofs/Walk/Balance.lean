import JavaOutline.Proofs.Walk.Flow
import JavaOutline.Proofs.Walk.Levels

/-!
Walks keep the budget in balance. A visitor may prune what it likes, also by the place at which it
comes by a node; whatever it prunes and however the walk ends, the budget is as before, at every
node it counts the levels opened above that node, and only open levels are closed.
-/
namespace JavaOutline.Walk

variable {α β : Type}

namespace Rose

mutual

def placed (here : Place) : Rose α → Rose (Place × α)
  | .node value children => .node (here, value) (placedAll here 0 children)

def placedAll (here : Place) (index : Nat) : List (Rose α) → List (Rose (Place × α))
  | [] => []
  | tree :: rest => tree.placed (here ++ [index]) :: placedAll here (index + 1) rest

end

theorem mem_placed_all (here : Place) (trees : List (Rose α)) (index : Nat)
    (found : Rose (Place × α)) (member : found ∈ placedAll here index trees) :
    ∃ (offset : Nat) (tree : Rose α), trees[offset]? = some tree ∧
      found = tree.placed (here ++ [index + offset]) := by
  induction trees generalizing index with
  | nil => simp [placedAll] at member
  | cons tree rest ih =>
      rcases List.mem_cons.mp member with rfl | later
      · exact ⟨0, tree, rfl, rfl⟩
      · obtain ⟨offset, other, stands, same⟩ := ih (index + 1) later
        refine ⟨offset + 1, other, stands, ?_⟩
        rw [same, Nat.add_assoc, Nat.add_comm 1]

end Rose

def Manner.through (f : β → α) (manner : Manner α) : Manner β where
  opens := fun value => manner.opens (f value)
  prunes := fun value => manner.prunes (f value)

theorem Manner.through_opens (f : β → α) (manner : Manner α) (value : β) :
    (manner.through f).opens value = manner.opens (f value) := rfl

theorem Manner.through_prunes (f : β → α) (manner : Manner α) (value : β) :
    (manner.through f).prunes value = manner.prunes (f value) := rfl

def Trail.map (f : β → α) (trail : Trail β) : Trail α where
  entered := trail.entered.map fun event => (f event.1, event.2)
  finished := trail.finished.map f
  exceeded := trail.exceeded
  budget := trail.budget

namespace Rose

theorem walk_all_placed (manner : Manner α) (trees : List (Rose α)) (here : Place) (index : Nat)
    (budget : DepthBudget)
    (each : ∀ tree ∈ trees, ∀ here budget,
      ((tree.placed here).walk (manner.through Prod.snd) budget).map Prod.snd =
        tree.walk manner budget) :
    (walkAll (manner.through Prod.snd) budget (placedAll here index trees)).map Prod.snd =
      walkAll manner budget trees := by
  induction trees generalizing index budget with
  | nil => rfl
  | cons tree rest ih =>
      have first := each tree List.mem_cons_self (here ++ [index]) budget
      have others (handed : DepthBudget) :=
        ih (index + 1) handed fun later member => each later (List.mem_cons_of_mem _ member)
      simp only [placedAll, walkAll, ← first, ← others, Trail.map]
      split
      · rfl
      · simp

theorem walk_placed (manner : Manner α) (tree : Rose α) (here : Place) (budget : DepthBudget) :
    ((tree.placed here).walk (manner.through Prod.snd) budget).map Prod.snd =
      tree.walk manner budget := by
  induction tree using Rose.induction generalizing here budget with
  | step value children below =>
      have inside (deeper : DepthBudget) := walk_all_placed manner children here 0 deeper below
      have last (deeper : DepthBudget) :
          (if (walkAll manner deeper children).exceeded then
            (walkAll manner deeper children).finished
            else (walkAll manner deeper children).finished ++ [value]) =
          (if (walkAll (manner.through Prod.snd) deeper (placedAll here 0 children)).exceeded then
            (walkAll (manner.through Prod.snd) deeper (placedAll here 0 children)).finished
            else (walkAll (manner.through Prod.snd) deeper (placedAll here 0 children)).finished ++
              [(here, value)]).map Prod.snd := by
        rw [← inside deeper, Trail.map]
        split <;> simp
      by_cases pruned : manner.prunes value
      · simp [placed, walk, Manner.through_prunes, pruned, Trail.map]
      · by_cases opens : manner.opens value
        · cases entering : budget.enter? with
          | none => simp [placed, walk, Manner.through_prunes, Manner.through_opens, pruned, opens,
              entering, Trail.map]
          | some deeper =>
              simp only [placed, walk, Manner.through_prunes, Manner.through_opens, pruned, opens,
                entering, last]
              simp [← inside, Trail.map]
        · simp only [placed, walk, Manner.through_prunes, Manner.through_opens, pruned, opens, last]
          simp [← inside, Trail.map]

end Rose

/-- A walk over the parts of a node that kept the budget in balance, with the levels that were open
whenever it closed one. -/
structure Balanced (parts : α → List α) (cost : α → Nat) (whole : α) (budget : DepthBudget)
    (trail : Trail (Place × α)) (closed : List Nat) : Prop where
  restored : trail.budget = budget
  stands : ∀ event ∈ trail.entered, partAt? parts whole event.1.1 = some event.1.2
  counted : ∀ event ∈ trail.entered,
    event.2 = budget.current + chargeAbove parts cost whole event.1.1
  within : ∀ event ∈ trail.entered, budget.current ≤ event.2 ∧ event.2 ≤ budget.limit
  closes : ∀ now ∈ closed, 0 < now

section
variable {parts : α → List α} {tree : α → Rose α} (unfolds : Unfolds parts tree)
  (manner : Manner (Place × α)) (cost : α → Nat)
  (charged : ∀ place value, manner.cost (place, value) = cost value)
include unfolds charged

theorem levelled_placed (whole : α) (here : Place) (above : Nat) :
    ∀ event ∈ ((tree whole).placed here).levelled manner above, ∃ rest,
      event.1.1 = here ++ rest ∧ partAt? parts whole rest = some event.1.2 ∧
        event.2 = above + chargeAbove parts cost whole rest := by
  revert here above
  refine unfolds.induction (motive := fun whole => ∀ here above,
    ∀ event ∈ ((tree whole).placed here).levelled manner above, ∃ rest,
      event.1.1 = here ++ rest ∧ partAt? parts whole rest = some event.1.2 ∧
        event.2 = above + chargeAbove parts cost whole rest) ?_ whole
  intro whole below here above event member
  rw [unfolds whole, Rose.placed, Rose.levelled, charged] at member
  rcases List.mem_cons.mp member with rfl | inner
  · exact ⟨[], by simp, rfl, rfl⟩
  · split at inner
    · cases inner
    · obtain ⟨found, among, inFound⟩ := (Rose.mem_levelled_all manner _ _ event).mp inner
      obtain ⟨index, child, atIndex, rfl⟩ := Rose.mem_placed_all here _ 0 found among
      rw [List.getElem?_map, Option.map_eq_some_iff] at atIndex
      obtain ⟨part, isPart, rfl⟩ := atIndex
      obtain ⟨rest, place, stands, count⟩ :=
        below part (List.mem_of_getElem? isPart) _ _ event inFound
      refine ⟨index :: rest, ?_, ?_, ?_⟩
      · simpa using place
      · simpa [partAt?, isPart] using stands
      · simp only [chargeAbove, isPart, Option.elim_some]
        omega

theorem walk_balanced (whole : α) (budget : DepthBudget)
    (begun : budget.current ≤ budget.limit) :
    Balanced parts cost whole budget (((tree whole).placed []).walk manner budget)
      (((tree whole).placed []).closings manner budget) := by
  have logs := Rose.walk_logs manner ((tree whole).placed []) budget
  have levelled (event) (member : event ∈ (((tree whole).placed []).walk manner budget).entered) :
      event ∈ ((tree whole).placed []).levelled manner budget.current := by
    rw [logs.entered] at member
    exact upTo_subset _ _ member
  have known (event) (member : event ∈ (((tree whole).placed []).walk manner budget).entered) :=
    levelled_placed unfolds manner cost charged whole [] _ event (levelled event member)
  constructor
  · exact logs.restored
  · intro event member
    obtain ⟨rest, place, stands, _⟩ := known event member
    rwa [place]
  · intro event member
    obtain ⟨rest, place, _, count⟩ := known event member
    rwa [place]
  · intro event member
    have least := Rose.levelled_above manner _ _ event (levelled event member)
    exact ⟨least, Rose.walk_within manner _ budget begun event member⟩
  · intro now member
    exact Nat.zero_lt_of_lt (Rose.closings_open manner _ budget now member)

end

/-- A visitor that opens levels as walks over outlines do and prunes what it likes. -/
def visitor (prunes : Place → Visit → Bool) : Manner (Place × Visit) where
  opens := fun entry => entry.2.opensLevel
  prunes := fun entry => prunes entry.1 entry.2

theorem visitor_balanced (prunes : Place → Visit → Bool) (whole : Visit) (budget : DepthBudget)
    (begun : budget.current ≤ budget.limit) :
    Balanced Visit.parts Visit.levels whole budget
      ((whole.tree.placed []).walk (visitor prunes) budget)
      ((whole.tree.placed []).closings (visitor prunes) budget) :=
  walk_balanced Visit.tree_unfolds (visitor prunes) Visit.levels (fun _ _ => rfl) whole budget begun

theorem flow_balanced (statement : Statement) (budget : DepthBudget)
    (begun : budget.current ≤ budget.limit) :
    Balanced Statement.bodies (fun _ => 1) statement budget
      ((statement.flow.placed []).walk (flowManner.through Prod.snd) budget)
      ((statement.flow.placed []).closings (flowManner.through Prod.snd) budget) :=
  walk_balanced Statement.flow_unfolds _ (fun _ => 1) (fun _ _ => rfl) statement budget begun

end JavaOutline.Walk
