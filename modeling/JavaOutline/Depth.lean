/-!
The nesting budget of recursive passes. A pass enters a level before it descends and leaves it
afterwards; entering is refused at the limit. This is `DepthBudget`, handed on as a value.
-/
namespace JavaOutline

def defaultDepth : Nat := 128

def largestDepth : Nat := 1024

/-- Open levels under a limit. -/
structure DepthBudget where
  limit : Nat
  current : Nat := 0
deriving DecidableEq, Repr, Inhabited

namespace DepthBudget

def enter? (budget : DepthBudget) : Option DepthBudget :=
  if budget.current ≥ budget.limit then none
  else some { budget with current := budget.current + 1 }

/-- Closes one level; with no level open nothing changes. -/
def exit (budget : DepthBudget) : DepthBudget :=
  { budget with current := budget.current - 1 }

end DepthBudget

end JavaOutline
