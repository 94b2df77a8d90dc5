import JavaOutline.Error
import JavaOutline.Walk.Forest

/-!
Walks over outlines: traces, the calls and assignments of a part, and its statements and
expressions. A call or assignment is listed when everything below it is done, so that an inner one
stands before the one around it; statements and expressions are listed parents first. They are
`collect_calls`, `collect_assignments`, `all_statements` and `all_expressions`.
-/
namespace JavaOutline.Walk

variable {α β : Type}

def Trail.within (trail : Trail α) (limit : Nat) (found : Trail α → β) : Except Error β :=
  if trail.exceeded then .error (.depthExceeded limit) else .ok (found trail)

/-- Outlines are walked by their levels, and not below the pruned sorts of visits. -/
def outlineManner (pruned : List VisitKind) : Manner Visit where
  opens := Visit.opensLevel
  prunes := fun visit => pruned.contains visit.kind

def trace (limit : Nat) (pruned : List VisitKind) (tree : Rose Visit) : Trail Visit :=
  tree.walk (outlineManner pruned) ⟨limit, 0⟩

/-- Every method call, an inner one before the one around it. -/
def calls (limit : Nat) (tree : Rose Visit) : Except Error (List MethodCall) :=
  (trace limit [] tree).within limit fun trail => trail.finished.filterMap Visit.call?

def assignments (limit : Nat) (tree : Rose Visit) : Except Error (List Assignment) :=
  (trace limit [] tree).within limit fun trail => trail.finished.filterMap Visit.assignment?

def statements (limit : Nat) (tree : Rose Visit) : Except Error (List Statement) :=
  (trace limit [] tree).within limit fun trail =>
    (trail.entered.map Prod.fst).filterMap Visit.statement?

def expressions (limit : Nat) (tree : Rose Visit) : Except Error (List Expression) :=
  (trace limit [] tree).within limit fun trail =>
    (trail.entered.map Prod.fst).filterMap Visit.expression?

end JavaOutline.Walk
