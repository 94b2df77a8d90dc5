import JavaOutline.Outline.Basic
import JavaOutline.Tree.Node

/-!
Plans for outlines. Expressions, statements and types open one level each. A plan asks the level
below for the outlines of such nodes and puts the answers together, or it meets a fault; how the
level below comes by its answers is left to whoever carries the plan out. A question is a call of
`Lowerer::nested`; the budget that counts the calls is in `Lower.Unit`.
-/
namespace JavaOutline.Lower

open JavaOutline.Tree

inductive Fault where
  | missing (kind part : String) (place : Position)
  | tooDeep
deriving DecidableEq, Repr, Inhabited

abbrev Result := Except Fault

/-- A node one level down whose outline is asked for. -/
inductive Ask where
  | expression (n : Node)
  | statement (n : Node)
  | type (n : Node) (kind : TypeKind)

def Ask.Answer : Ask → Type
  | .expression _ => Expression
  | .statement _ => Statement
  | .type _ _ => TypeDeclaration

/-- The steps to an outline. -/
inductive Plan (α : Type) where
  | done (value : α)
  | fault (reason : Fault)
  | ask (request : Ask) (next : request.Answer → Plan α)

namespace Plan

variable {α β : Type}

def bind : Plan α → (α → Plan β) → Plan β
  | .done value, next => next value
  | .fault reason, _ => .fault reason
  | .ask request rest, next => .ask request fun answer => (rest answer).bind next

def map (f : α → β) (plan : Plan α) : Plan β :=
  plan.bind fun value => .done (f value)

instance : Monad Plan where
  pure := .done
  bind := Plan.bind
  map := Plan.map

def run {m : Type → Type} [Monad m] [MonadExceptOf Fault m]
    (answer : (request : Ask) → m request.Answer) : Plan α → m α
  | .done value => pure value
  | .fault reason => throw reason
  | .ask request next => do
    let found ← answer request
    (next found).run answer

end Plan

namespace Below

def expression (n : Node) : Plan Expression :=
  .ask (.expression n) .done

def statement (n : Node) : Plan Statement :=
  .ask (.statement n) .done

def type (n : Node) (kind : TypeKind) : Plan TypeDeclaration :=
  .ask (.type n kind) .done

end Below

end JavaOutline.Lower
