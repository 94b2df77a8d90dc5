import JavaOutline.Lower.Declarations
import JavaOutline.Walk.Visit

/-!
What plans yield. A contract says which questions a plan may ask, what it may rely on in the
answers and which faults it may meet; under a contract, a property of the results is put together
along the steps of a plan.
-/
namespace JavaOutline.Lower

open JavaOutline.Tree
open JavaOutline.Walk

variable {α β : Type}

namespace Plan

theorem bind_done (plan : Plan α) : plan.bind .done = plan := by
  induction plan with
  | done value => rfl
  | fault reason => rfl
  | ask request next ih => exact congrArg _ (funext ih)

theorem bind_assoc {γ : Type} (plan : Plan α) (second : α → Plan β) (third : β → Plan γ) :
    (plan.bind second).bind third = plan.bind fun value => (second value).bind third := by
  induction plan with
  | done value => rfl
  | fault reason => rfl
  | ask request next ih => exact congrArg _ (funext ih)

instance : LawfulMonad Plan :=
  LawfulMonad.mk' Plan bind_done (fun _ _ => rfl) bind_assoc (fun _ _ => rfl)

end Plan

theorem members_comment (source : Source) (n : Node) (rest : List Node)
    (comment : n.isComment = true) : members source (n :: rest) = members source rest := by
  obtain ⟨kind, label, start, stop, children⟩ := n
  have cases : kind = .rule .lineComment ∨ kind = .rule .blockComment := by
    simpa [Node.isComment, Node.is, Node.kind] using comment
  rw [members]
  rcases cases with rfl | rfl <;> exact bind_pure (members source rest)

/-- What a plan may ask, what it may rely on and which faults it may meet. -/
structure Contract where
  asks : Ask → Prop
  answers : (request : Ask) → request.Answer → Prop
  faults : Fault → Prop

/-- The plan keeps to the contract, and its result has the property. -/
def Yields (contract : Contract) (property : α → Prop) : Plan α → Prop
  | .done value => property value
  | .fault reason => contract.faults reason
  | .ask request next => contract.asks request ∧
    ∀ found, contract.answers request found → Yields contract property (next found)

section
variable {contract : Contract} {first : α → Prop} {second : β → Prop}

theorem Yields.ok (value : α) (holds : first value) : Yields contract first (.done value) :=
  holds

theorem Yields.fails (reason : Fault) (may : contract.faults reason) :
    Yields contract first (.fault reason) :=
  may

theorem Yields.bind {plan : Plan α} {next : α → Plan β} (before : Yields contract first plan)
    (after : ∀ value, first value → Yields contract second (next value)) :
    Yields contract second (plan >>= next) := by
  induction plan with
  | done value => exact after value before
  | fault reason => exact before
  | ask request rest ih => exact ⟨before.1, fun found relied => ih found (before.2 found relied)⟩

theorem Yields.map {plan : Plan α} (f : α → β)
    (before : Yields contract (fun value => second (f value)) plan) :
    Yields contract second (plan.map f) :=
  before.bind fun value holds => Yields.ok (f value) holds

theorem Yields.mono {plan : Plan α} {weaker : α → Prop} (before : Yields contract first plan)
    (order : ∀ value, first value → weaker value) : Yields contract weaker plan := by
  induction plan with
  | done value => exact order value before
  | fault reason => exact before
  | ask request next ih => exact ⟨before.1, fun found relied => ih found (before.2 found relied)⟩

theorem Yields.also {other : Contract} {more : α → Prop} {plan : Plan α}
    (before : Yields contract first plan) (too : Yields other more plan)
    (relies : ∀ request found, contract.answers request found → other.answers request found) :
    Yields contract (fun value => first value ∧ more value) plan := by
  induction plan with
  | done value => exact ⟨before, too⟩
  | fault reason => exact before
  | ask request next ih =>
      exact ⟨before.1, fun found relied => ih found (before.2 found relied)
        (too.2 found (relies request found relied))⟩

/-- What the results show of themselves is what the items show, one by one. -/
theorem Yields.mapM_shown {γ : Type} (shown : α → γ) (shows : β → γ) {lower : β → Plan α}
    {items : List β} (each : ∀ item ∈ items,
      Yields contract (fun value => shown value = shows item ∧ first value) (lower item)) :
    Yields contract
      (fun values => values.map shown = items.map shows ∧ ∀ value ∈ values, first value)
      (items.mapM lower) := by
  induction items with
  | nil => exact Yields.ok [] ⟨rfl, List.forall_mem_nil _⟩
  | cons item rest ih =>
      obtain ⟨own, later⟩ := List.forall_mem_cons.mp each
      rw [List.mapM_cons]
      refine own.bind fun value ⟨same, holds⟩ => ?_
      refine (ih later).bind fun values ⟨others, hold⟩ => ?_
      exact Yields.ok _ ⟨by simp [same, others], List.forall_mem_cons.mpr ⟨holds, hold⟩⟩

theorem Yields.mapM {lower : β → Plan α} {items : List β}
    (each : ∀ item ∈ items, Yields contract first (lower item)) :
    Yields contract (fun values => ∀ value ∈ values, first value) (items.mapM lower) :=
  (Yields.mapM_shown (fun _ => ()) (fun _ => ()) fun item member =>
    (each item member).mono fun _ holds => ⟨rfl, holds⟩).mono fun _ both => both.2

theorem Yields.foldlM {step : α → β → Plan α} {items : List β}
    (keeps : ∀ state, first state → ∀ item ∈ items, Yields contract first (step state item))
    (start : α) (holds : first start) : Yields contract first (items.foldlM step start) := by
  induction items generalizing start with
  | nil => exact Yields.ok start holds
  | cons item rest ih =>
      rw [List.foldlM_cons]
      refine (keeps start holds item List.mem_cons_self).bind fun state kept => ih ?_ state kept
      exact fun state kept item member => keeps state kept item (List.mem_cons_of_mem _ member)

theorem Yields.optional {lower : Node → Plan α} {part : Option Node}
    (each : ∀ n, part = some n → Yields contract first (lower n)) :
    Yields contract (fun found => ∀ value ∈ found.toList, first value) (optional lower part) := by
  cases part with
  | none => exact Yields.ok none (List.forall_mem_nil _)
  | some n =>
      refine Yields.map _ ((each n rfl).mono fun value holds => ?_)
      exact List.forall_mem_singleton.mpr holds

def Result.Has (property : α → Prop) (faults : Fault → Prop) : Result α → Prop
  | .ok value => property value
  | .error reason => faults reason

theorem Yields.run {plan : Plan α} (yields : Yields contract first plan)
    (answer : (request : Ask) → Result request.Answer) (faults : Fault → Prop)
    (kept : ∀ request, contract.asks request →
      (answer request).Has (contract.answers request) faults)
    (allowed : ∀ reason, contract.faults reason → faults reason) :
    (plan.run answer).Has first faults := by
  induction plan with
  | done value => exact yields
  | fault reason => exact allowed reason yields
  | ask request next ih =>
      have found := kept request yields.1
      simp only [Plan.run]
      cases same : answer request with
      | ok value =>
          rw [same] at found
          exact ih value (yields.2 value found)
      | error reason =>
          rw [same] at found
          exact found

end

def Ask.node : Ask → Node
  | .expression n | .statement n | .type n _ => n

def Ask.visit : (request : Ask) → request.Answer → Visit
  | .expression _, found => .expression found
  | .statement _, found => .statement found
  | .type _ _, found => .type found

end JavaOutline.Lower
