import JavaOutline.Depth

/-!
Bounded walks over trees of any branching. A walk comes by the nodes of a tree, parents first and
children in order. Nodes that open a level need room in the depth budget; where there is none the
walk breaks off. A pruned node is come by, but not what lies below it. A visitor that prunes is one
that does not go on with its `walk_` function.
-/
namespace JavaOutline.Walk

inductive Rose (α : Type) where
  | node (value : α) (children : List (Rose α))

/-- Which nodes open a level of the budget, and below which nodes a walk does not go. -/
structure Manner (α : Type) where
  opens : α → Bool
  prunes : α → Bool := fun _ => false

structure Trail (α : Type) where
  entered : List (α × Nat)
  finished : List α
  exceeded : Bool
  budget : DepthBudget

namespace Rose

variable {α : Type}

mutual

/-- Walks a tree. The level a node opens is closed again however the walk below it ends. -/
def walk (manner : Manner α) (budget : DepthBudget) : Rose α → Trail α
  | .node value children =>
    let event := (value, budget.current)
    if manner.prunes value then ⟨[event], [value], false, budget⟩
    else if manner.opens value then
      match budget.enter? with
      | none => ⟨[event], [], true, budget⟩
      | some deeper =>
        let below := walkAll manner deeper children
        { entered := event :: below.entered
          finished := if below.exceeded then below.finished else below.finished ++ [value]
          exceeded := below.exceeded
          budget := below.budget.exit }
    else
      let below := walkAll manner budget children
      { below with
        entered := event :: below.entered
        finished := if below.exceeded then below.finished else below.finished ++ [value] }

def walkAll (manner : Manner α) (budget : DepthBudget) : List (Rose α) → Trail α
  | [] => ⟨[], [], false, budget⟩
  | tree :: rest =>
    let first := walk manner budget tree
    if first.exceeded then first
    else
      let others := walkAll manner first.budget rest
      { entered := first.entered ++ others.entered
        finished := first.finished ++ others.finished
        exceeded := others.exceeded
        budget := others.budget }

end

end Rose

end JavaOutline.Walk
