import JavaOutline.Lower.Unit
import JavaOutline.Proofs.Grammar.Uncommented
import JavaOutline.Proofs.Lower.Yields

/-!
Plans for a tree with and without its comments. Two plans are alike if they ask for the same nodes,
once with and once without the comments below them, and end alike whatever the answers are; alike
plans give the same result. Plans for declarations are alike.
-/
namespace JavaOutline.Lower

open JavaOutline.Tree

variable {α β : Type}

def Pruned (n m : Node) : Prop :=
  n.Spaced ∧ m = n.uncommented

/-- The plans ask for the same nodes, with and without their comments, and end alike. -/
inductive Alike (related : α → β → Prop) : Plan α → Plan β → Prop where
  | done {value : α} {other : β} (same : related value other) :
    Alike related (.done value) (.done other)
  | fault (reason : Fault) : Alike related (.fault reason) (.fault reason)
  | expression {n m : Node} {next : Expression → Plan α} {further : Expression → Plan β}
    (pruned : Pruned n m) (rest : ∀ found, Alike related (next found) (further found)) :
    Alike related (.ask (.expression n) next) (.ask (.expression m) further)
  | statement {n m : Node} {next : Statement → Plan α} {further : Statement → Plan β}
    (pruned : Pruned n m) (rest : ∀ found, Alike related (next found) (further found)) :
    Alike related (.ask (.statement n) next) (.ask (.statement m) further)
  | type {n m : Node} {kind : TypeKind} {next : TypeDeclaration → Plan α}
    {further : TypeDeclaration → Plan β} (pruned : Pruned n m)
    (rest : ∀ found, Alike related (next found) (further found)) :
    Alike related (.ask (.type n kind) next) (.ask (.type m kind) further)

namespace Alike

theorem bind {γ δ : Type} {first : α → β → Prop} {second : γ → δ → Prop} {plan : Plan α}
    {other : Plan β} {next : α → Plan γ} {further : β → Plan δ} (alike : Alike first plan other)
    (after : ∀ value same, first value same → Alike second (next value) (further same)) :
    Alike second (plan >>= next) (other >>= further) := by
  induction alike with
  | done same => exact after _ _ same
  | fault reason => exact .fault reason
  | expression pruned _ ih => exact .expression pruned ih
  | statement pruned _ ih => exact .statement pruned ih
  | type pruned _ ih => exact .type pruned ih

theorem map {γ δ : Type} {first : α → β → Prop} {second : γ → δ → Prop} {plan : Plan α}
    {other : Plan β} {f : α → γ} {g : β → δ} (alike : Alike first plan other)
    (same : ∀ value also, first value also → second (f value) (g also)) :
    Alike second (plan.map f) (other.map g) :=
  alike.bind fun value also holds => .done (same value also holds)

theorem next {γ δ : Type} {second : γ → δ → Prop} {plan other : Plan α} {next : α → Plan γ}
    {further : α → Plan δ} (alike : Alike Eq plan other)
    (after : ∀ value, Alike second (next value) (further value)) :
    Alike second (plan >>= next) (other >>= further) := by
  refine alike.bind ?_
  rintro value _ rfl
  exact after value

theorem mapped {plan other : Plan α} {f g : α → β} (alike : Alike Eq plan other)
    (same : ∀ value, f value = g value) : Alike Eq (plan.map f) (other.map g) :=
  alike.next fun value => .done (same value)

theorem mapM {lower : Node → Plan α} (nodes : List Node)
    (each : ∀ n ∈ nodes, Alike Eq (lower n) (lower n.uncommented)) :
    Alike Eq (nodes.mapM lower) ((nodes.map Node.uncommented).mapM lower) := by
  induction nodes with
  | nil => exact .done rfl
  | cons n rest ih =>
      obtain ⟨first, others⟩ := List.forall_mem_cons.mp each
      rw [List.map_cons, List.mapM_cons, List.mapM_cons]
      exact first.next fun value => (ih others).next fun values => .done rfl

theorem foldlM {step : α → Node → Plan α} (nodes : List Node)
    (each : ∀ state, ∀ n ∈ nodes, Alike Eq (step state n) (step state n.uncommented)) (start : α) :
    Alike Eq (nodes.foldlM step start) ((nodes.map Node.uncommented).foldlM step start) := by
  induction nodes generalizing start with
  | nil => exact .done rfl
  | cons n rest ih =>
      rw [List.map_cons, List.foldlM_cons, List.foldlM_cons]
      refine (each start n List.mem_cons_self).next fun state => ?_
      exact ih (fun state m member => each state m (List.mem_cons_of_mem _ member)) state

theorem optional {lower : Node → Plan α} (part : Option Node)
    (each : ∀ n ∈ part, Alike Eq (lower n) (lower n.uncommented)) :
    Alike Eq (optional lower part) (Lower.optional lower (part.map Node.uncommented)) := by
  cases part with
  | none => exact .done rfl
  | some n => exact (each n rfl).mapped fun _ => rfl

end Alike

/-- Answers that do not depend on comments. -/
structure Unmoved (answer : (request : Ask) → Result request.Answer) : Prop where
  expression : ∀ n : Node, n.Spaced → answer (.expression n) = answer (.expression n.uncommented)
  statement : ∀ n : Node, n.Spaced → answer (.statement n) = answer (.statement n.uncommented)
  type : ∀ (n : Node) (kind : TypeKind), n.Spaced →
    answer (.type n kind) = answer (.type n.uncommented kind)

theorem Alike.run {plan other : Plan α} (alike : Alike Eq plan other)
    {answer : (request : Ask) → Result request.Answer} (unmoved : Unmoved answer) :
    plan.run answer = other.run answer := by
  induction alike with
  | done same => rw [same]
  | fault reason => rfl
  | expression pruned _ ih =>
      obtain ⟨spaced, rfl⟩ := pruned
      simp only [Plan.run, ← unmoved.expression _ spaced]
      exact congrArg _ (funext ih)
  | statement pruned _ ih =>
      obtain ⟨spaced, rfl⟩ := pruned
      simp only [Plan.run, ← unmoved.statement _ spaced]
      exact congrArg _ (funext ih)
  | type pruned _ ih =>
      obtain ⟨spaced, rfl⟩ := pruned
      simp only [Plan.run, ← unmoved.type _ _ spaced]
      exact congrArg _ (funext ih)

theorem below_expression {n m : Node} (pruned : Pruned n m) :
    Alike Eq (Below.expression n) (Below.expression m) :=
  .expression pruned fun _ => .done rfl

theorem below_statement {n m : Node} (pruned : Pruned n m) :
    Alike Eq (Below.statement n) (Below.statement m) :=
  .statement pruned fun _ => .done rfl

theorem below_type {n m : Node} (kind : TypeKind) (pruned : Pruned n m) :
    Alike Eq (Below.type n kind) (Below.type m kind) :=
  .type pruned fun _ => .done rfl

section
variable (source : Source)

@[simp] theorem text_uncommented (n : Node) : source.text n.uncommented = source.text n := by
  simp [Source.text]

@[simp] theorem compact_uncommented (n : Node) :
    source.compact n.uncommented = source.compact n := by
  simp [Source.compact]

@[simp] theorem span_uncommented (n : Node) : source.span n.uncommented = source.span n := by
  simp [Source.span]

@[simp] theorem missing_uncommented (n : Node) (part : String) :
    source.missing n.uncommented part = source.missing n part := by
  simp [Source.missing]

@[simp] theorem texts_uncommented (nodes : List Node) :
    (nodes.map Node.uncommented).map source.text = nodes.map source.text := by
  simp [Function.comp_def]

@[simp] theorem compacts_uncommented (nodes : List Node) :
    (nodes.map Node.uncommented).map source.compact = nodes.map source.compact := by
  simp [Function.comp_def]

theorem type_kind_uncommented (n : Node) : typeKind? n.uncommented = typeKind? n := by
  simp [typeKind?]

theorem parts_of_uncommented (part : Option Node) :
    (part.map Node.uncommented).elim [] Node.parts =
      (part.elim [] Node.parts).map Node.uncommented := by
  cases part <;> simp

theorem require_alike (n : Node) (name : String) (part : Option Node)
    (spaced : ∀ child ∈ part, child.Spaced) :
    Alike Pruned (source.require n name part)
      (source.require n.uncommented name (part.map Node.uncommented)) := by
  cases part with
  | none =>
      simp only [Source.require, Option.map_none, missing_uncommented]
      exact .fault _
  | some child => exact .done ⟨spaced child rfl, rfl⟩

end

section
variable {source : Source} {n : Node} (spaced : n.Spaced)
include spaced

theorem field_alike (f : Field) :
    Alike Pruned (source.field n f) (source.field n.uncommented f) := by
  unfold Source.field
  rw [Node.get_uncommented spaced.tidy]
  exact require_alike source n f.text _ (spaced.get f)

theorem field_text_alike (f : Field) :
    Alike Eq (source.fieldText n f) (source.fieldText n.uncommented f) := by
  apply (field_alike spaced f).map
  rintro child _ ⟨_, rfl⟩
  rw [text_uncommented]

theorem field_compact_alike (f : Field) :
    Alike Eq ((source.field n f).map source.compact)
      ((source.field n.uncommented f).map source.compact) := by
  apply (field_alike spaced f).map
  rintro child _ ⟨_, rfl⟩
  rw [compact_uncommented]

theorem field_expression_alike (f : Field) :
    Alike Eq (fieldExpression source n f) (fieldExpression source n.uncommented f) :=
  (field_alike spaced f).bind fun _ _ pruned => below_expression pruned

theorem with_dimensions_uncommented (type : String) :
    source.withDimensions type n.uncommented = source.withDimensions type n := by
  unfold Source.withDimensions
  rw [Node.get_uncommented spaced.tidy]
  cases n.get? .dimensions <;> simp

theorem field_get_text (f : Field) :
    (n.uncommented.get? f).map source.text = (n.get? f).map source.text := by
  rw [Node.get_uncommented spaced.tidy]
  cases n.get? f <;> simp

theorem modifiers_uncommented : source.modifiers n.uncommented = source.modifiers n := by
  unfold Source.modifiers
  rw [Node.of_kind_uncommented n .modifiers (by decide) (by decide)]
  cases found : n.ofKind? .modifiers with
  | none => rfl
  | some list =>
      have inner := spaced.ofKind .modifiers list found
      simp only [Option.map_some, Option.elim_some]
      congr 1
      · apply Node.filter_map_uncommented
        · simp
        · intro child comment
          rcases Node.comment_kind comment with kind | kind <;> simp [kind]
      · apply Node.filter_map_uncommented
        · intro child member
          simp [field_get_text (inner.child member)]
        · intro child comment
          rcases Node.comment_kind comment with kind | kind <;> simp [Node.is, kind]

theorem field_get_compact (f : Field) :
    (n.uncommented.get? f).map source.compact = (n.get? f).map source.compact := by
  rw [Node.get_uncommented spaced.tidy]
  cases n.get? f <;> simp

theorem declared_name_uncommented :
    ((n.uncommented.parts.find? (·.is .variableDeclarator)).bind (·.get? .name)).map source.text =
      ((n.parts.find? (·.is .variableDeclarator)).bind (·.get? .name)).map source.text := by
  simp only [Node.parts_uncommented, List.find?_map, Function.comp_def, Node.is_uncommented]
  cases found : n.parts.find? (·.is .variableDeclarator) with
  | none => rfl
  | some part =>
      exact field_get_text (spaced.parts part (List.mem_of_find?_eq_some found)) .name

theorem parameter_uncommented : source.parameter? n.uncommented = source.parameter? n := by
  have type : (n.uncommented.parts.find? fun part =>
        !(part.is .modifiers || part.is .variableDeclarator)).map source.compact =
      (n.parts.find? fun part =>
        !(part.is .modifiers || part.is .variableDeclarator)).map source.compact := by
    simp [List.find?_map, Function.comp_def]
  simp only [Source.parameter?, Node.is_uncommented, field_get_text spaced,
    field_get_compact spaced, with_dimensions_uncommented spaced, modifiers_uncommented spaced,
    declared_name_uncommented spaced, span_uncommented, type]

theorem parameters_uncommented : source.parameters n.uncommented = source.parameters n := by
  unfold Source.parameters
  rw [Node.parts_uncommented, List.filterMap_map]
  have each := spaced.parts
  generalize n.parts = parts at each
  induction parts with
  | nil => rfl
  | cons part rest ih =>
      obtain ⟨own, others⟩ := List.forall_mem_cons.mp each
      rw [List.filterMap_cons, List.filterMap_cons, Function.comp_apply, parameter_uncommented own,
        ih others]

end

/-- Lowering a node does not depend on the comments below it. -/
def Steady (lower : Node → Plan α) : Prop :=
  ∀ n : Node, n.Spaced → Alike Eq (lower n) (lower n.uncommented)

theorem expression_steady : Steady Below.expression :=
  fun _ spaced => below_expression ⟨spaced, rfl⟩

theorem statement_steady : Steady Below.statement :=
  fun _ spaced => below_statement ⟨spaced, rfl⟩

section
variable {n : Node} (spaced : n.Spaced) {lower : Node → Plan α} (steady : Steady lower)
include spaced steady

theorem parts_alike : Alike Eq (n.parts.mapM lower) (n.uncommented.parts.mapM lower) := by
  rw [Node.parts_uncommented]
  exact .mapM _ fun part member => steady part (spaced.parts part member)

theorem all_alike (f : Field) :
    Alike Eq ((n.all f).mapM lower) ((n.uncommented.all f).mapM lower) := by
  rw [Node.all_uncommented spaced.tidy]
  exact .mapM _ fun part member => steady part (spaced.all f part member)

theorem get_alike (f : Field) :
    Alike Eq (optional lower (n.get? f)) (optional lower (n.uncommented.get? f)) := by
  rw [Node.get_uncommented spaced.tidy]
  exact .optional _ fun part member => steady part (spaced.get f part member)

theorem of_kind_alike (r : Rule) (line : r ≠ .lineComment) (block : r ≠ .blockComment) :
    Alike Eq (optional lower (n.ofKind? r)) (optional lower (n.uncommented.ofKind? r)) := by
  rw [Node.of_kind_uncommented n r line block]
  exact .optional _ fun part member => steady part (spaced.ofKind r part member)

theorem field_then_alike (source : Source) (f : Field) :
    Alike Eq (source.field n f >>= lower) (source.field n.uncommented f >>= lower) := by
  refine (field_alike spaced f).bind ?_
  rintro part _ ⟨inner, rfl⟩
  exact steady part inner

end

section
variable (source : Source)

theorem block_steady : Steady (block source) := by
  intro n spaced
  refine (parts_alike spaced statement_steady).next fun statements => .done ?_
  rw [span_uncommented]

theorem arguments_steady : Steady arguments := by
  intro n spaced
  unfold arguments
  rw [Node.get_uncommented spaced.tidy]
  cases found : n.get? .arguments with
  | none => exact .done rfl
  | some list => exact parts_alike (spaced.get .arguments list found) expression_steady

theorem declarator_steady (base : String) : Steady (declarator source base) := by
  intro n spaced
  refine (field_text_alike spaced .name).next fun name => ?_
  refine (get_alike spaced expression_steady .value).next fun initializer => .done ?_
  rw [with_dimensions_uncommented spaced, span_uncommented]

theorem variable_declaration_steady : Steady (variableDeclaration source) := by
  intro n spaced
  refine (field_compact_alike spaced .type).next fun base => ?_
  refine (all_alike spaced (declarator_steady source base) .declarator).next fun declared => ?_
  refine .done ?_
  rw [modifiers_uncommented spaced, Node.all_uncommented spaced.tidy, List.getLast?_map,
    Node.start_uncommented, Node.stop_uncommented]
  cases (n.all .declarator).getLast? <;> simp

theorem declaration_expression_steady : Steady (declarationExpression source) := by
  intro n spaced
  exact (variable_declaration_steady source n spaced).next fun declaration => .done rfl

theorem method_steady : Steady (method source) := by
  intro n spaced
  refine (field_text_alike spaced .name).next fun name => ?_
  have parameters : (n.uncommented.get? .parameters).elim [] source.parameters =
      (n.get? .parameters).elim [] source.parameters := by
    rw [Node.get_uncommented spaced.tidy]
    cases found : n.get? .parameters with
    | none => rfl
    | some list => exact parameters_uncommented (spaced.get .parameters list found)
  simp only [Node.is_uncommented, modifiers_uncommented spaced, parameters, span_uncommented,
    with_dimensions_uncommented spaced, Node.get_uncommented spaced.tidy .typeParameters,
    Node.of_kind_uncommented n .throws (by decide) (by decide), parts_of_uncommented,
    compacts_uncommented]
  have body := get_alike spaced (block_steady source) .body
  split
  · apply (field_alike spaced .type).map _ |>.next
    · intro returnType
      exact body.next fun lowered => .done rfl
    · rintro type _ ⟨_, rfl⟩
      rw [compact_uncommented]
  · exact body.next fun lowered => .done rfl

theorem plain_member_steady : Steady (plainMember source) := by
  intro n spaced
  unfold plainMember
  rw [Node.kind_uncommented, type_kind_uncommented]
  split
  · exact (method_steady source n spaced).mapped fun _ => rfl
  · exact (method_steady source n spaced).mapped fun _ => rfl
  · exact (method_steady source n spaced).mapped fun _ => rfl
  · exact (method_steady source n spaced).mapped fun _ => rfl
  · exact (variable_declaration_steady source n spaced).mapped fun _ => rfl
  · exact (variable_declaration_steady source n spaced).mapped fun _ => rfl
  · exact (of_kind_alike spaced (block_steady source) .block (by decide) (by decide)).mapped
      fun _ => rfl
  · exact (block_steady source n spaced).mapped fun _ => rfl
  · split
    · exact (below_type _ ⟨spaced, rfl⟩).mapped fun _ => rfl
    · exact .done rfl

-- Constants have bodies with members again, on the same level: the recursion is on the nodes.
mutual

theorem members_alike (nodes : List Node) (spaced : ∀ n ∈ nodes, n.Spaced) :
    Alike Eq (members source nodes) (members source (Node.uncommentedAll nodes)) := by
  match nodes with
  | [] =>
      rw [Node.uncommentedAll, members]
      exact .done rfl
  | .mk kind label start stop children :: rest =>
      obtain ⟨own, others⟩ := List.forall_mem_cons.mp spaced
      rw [Node.uncommentedAll]
      split
      · rw [members_comment source _ rest ‹_›]
        exact members_alike rest others
      · rw [Node.uncommented, members, members]
        have joined (found : List Member) :
            Alike Eq (members source rest >>= fun others => pure (found ++ others))
              (members source (Node.uncommentedAll rest) >>= fun others =>
                pure (found ++ others)) :=
          (members_alike rest others).next fun _ => .done rfl
        have below : ∀ child ∈ children, child.Spaced := fun _ member => own.child member
        split
        · exact (members_alike children below).next joined
        · split
          · have name : Alike Eq (source.fieldText _ .name) (source.fieldText _ .name) :=
              field_text_alike own .name
            have values := arguments_steady _ own
            have body := constant_body_alike children below own.tidy.bare
            rw [Node.uncommented] at name values
            exact name.next fun _ => values.next fun _ => body.next fun _ => joined _
          · have plain := plain_member_steady source _ own
            rw [Node.uncommented] at plain
            exact (plain.mapped fun _ => rfl).next joined

theorem constant_body_alike (nodes : List Node) (spaced : ∀ n ∈ nodes, n.Spaced)
    (bare : ∀ n ∈ nodes, n.isComment = true → n.label = none) :
    Alike Eq (constantBody source nodes) (constantBody source (Node.uncommentedAll nodes)) := by
  match nodes with
  | [] =>
      rw [Node.uncommentedAll, constantBody]
      exact .done rfl
  | .mk kind label start stop children :: rest =>
      obtain ⟨own, others⟩ := List.forall_mem_cons.mp spaced
      obtain ⟨plain, later⟩ := List.forall_mem_cons.mp bare
      rw [Node.uncommentedAll, constantBody]
      by_cases comment : (Node.mk kind label start stop children).isComment = true
      · have unlabelled : label = none := plain comment
        rw [if_pos comment, if_neg (by simp [unlabelled])]
        exact constant_body_alike rest others later
      · rw [if_neg comment, Node.uncommented, constantBody]
        split
        · have below : ∀ child ∈ children, child.Spaced := fun _ member => own.child member
          exact (members_alike children below).mapped fun _ => rfl
        · exact constant_body_alike rest others later

end

theorem class_body_steady : Steady (classBody source) := by
  intro n spaced
  unfold classBody
  rw [Node.children_uncommented, Node.solid, ← Node.uncommented_all]
  exact (members_alike source n.children fun _ member => spaced.child member).mapped fun _ => rfl

theorem type_declaration_steady (kind : TypeKind) :
    Steady fun n => typeDeclaration source n kind := by
  intro n spaced
  refine (field_text_alike spaced .name).next fun name => ?_
  refine (get_alike spaced (class_body_steady source) .body).next fun body => .done ?_
  rw [modifiers_uncommented spaced, span_uncommented]

end

end JavaOutline.Lower
