import JavaOutline.Proofs.Attempts
import JavaOutline.Proofs.Lower.Listing

/-!
Lowering builds an outline in layers. Expressions, statements and types take one level each; all
else, the expression around a variable declaration too, is put together on the level where it
stands. A property of what the level below yields that carries over to such nodes holds of all
parts that lowering puts together, and these are as their origins in the tree have it.
-/
namespace JavaOutline

open Walk

/-- Lowering puts the node together on the level of its parts. -/
def Walk.Visit.joint : Visit → Bool
  | .classBody _ | .method _ | .block _ | .switch _ | .call _ | .assign _ | .declaration _ => true
  | .unit _ | .type _ | .statement _ | .expression _ => false

namespace Lower

open JavaOutline.Tree

/-- What may be asked for has its children with it, and a property carries over to nodes without a
level of their own. -/
structure Layered (source : Source) (among : Node → Prop) (holds : Visit → Prop) : Prop where
  children : ∀ n, among n → ∀ child ∈ n.children, among child
  closed : ∀ whole : Visit, whole.joint = true → Made source among whole →
    (∀ part ∈ whole.parts, holds part) → holds whole

variable {source : Source} {among : Node → Prop} {holds : Visit → Prop} {n m : Node}

namespace Layered

variable (layered : Layered source among holds) (here : among n)
include layered here

theorem get {f : Field} (found : n.get? f = some m) : among m :=
  layered.children n here m (List.mem_of_find?_eq_some found)

theorem ofKind {r : Rule} (found : n.ofKind? r = some m) : among m :=
  layered.children n here m (List.mem_of_find?_eq_some found)

theorem part (member : m ∈ n.parts) : among m :=
  layered.children n here m (List.mem_of_mem_filter member)

theorem all {f : Field} (member : m ∈ n.all f) : among m :=
  layered.children n here m (List.mem_of_mem_filter member)

theorem first (found : n.parts.head? = some m) : among m :=
  layered.part here (List.mem_of_mem_head? found)

omit layered in
theorem spanned {span : Span} (same : span = source.span n) :
    ∀ s ∈ [span], Taken source among s :=
  List.forall_mem_singleton.mpr (same ▸ Taken.whole here)

theorem dimensioned {type : String} (known : Phrase source.compact among type) :
    Phrase source.compact among (source.withDimensions type n) := by
  unfold Source.withDimensions
  split
  case h_1 dimensions found => exact .dimensions known dimensions (layered.get here found)
  case h_2 => exact known

end Layered

section Phrases
variable {shown : Node → String}

theorem Phrase.optional {part : Option Node} (here : ∀ m, part = some m → among m) :
    Phrase shown among (part.elim "" shown) := by
  cases part with
  | none => exact .nothing
  | some m => exact .node m (here m rfl)

theorem Phrase.each {nodes : List Node} (here : ∀ m ∈ nodes, among m) :
    ∀ text ∈ nodes.map shown, Phrase shown among text :=
  List.forall_mem_map.mpr fun m member => .node m (here m member)

end Phrases

/-! Questions -/

/-- Some nodes may be asked for, everything may fail, and it can be relied on that the answers are
about these nodes and have a property. -/
def relying (source : Source) (among : Node → Prop) (holds : Visit → Prop) : Contract where
  asks := fun request => among request.node ∧ request.Apt
  answers := fun request found => holds (request.visit found) ∧ Answers source request found
  faults := fun _ => True

section Questions
variable {α β : Type} {property : β → Prop} {part : String} {child : Option Node}

theorem Yields.required {next : Node → Plan β}
    (after : ∀ m, child = some m → Yields (relying source among holds) property (next m)) :
    Yields (relying source among holds) property (source.require n part child >>= next) := by
  cases child with
  | none => exact Yields.fails _ trivial
  | some m => exact after m rfl

theorem Yields.skip {about : Node → α} {next : α → Plan β}
    (after : ∀ m, child = some m →
      Yields (relying source among holds) property (next (about m))) :
    Yields (relying source among holds) property
      ((source.require n part child).map about >>= next) := by
  cases child with
  | none => exact Yields.fails _ trivial
  | some m => exact after m rfl

theorem expression_asked (here : among n) :
    Yields (relying source among holds) (fun e => holds (.expression e)) (Below.expression n) :=
  ⟨⟨here, trivial⟩, fun _ relied => relied.1⟩

theorem named_expression_asked (here : among n) (named : n.isNamed = true) :
    Yields (relying source among holds)
      (fun e => holds (.expression e) ∧ Valued source among e) (Below.expression n) :=
  ⟨⟨here, trivial⟩, fun _ ⟨holding, _, from'⟩ => ⟨holding, Or.inr ⟨n, here, named, from'⟩⟩⟩

theorem statement_asked (here : among n) :
    Yields (relying source among holds) (fun s => holds (.statement s)) (Below.statement n) :=
  ⟨⟨here, trivial⟩, fun _ relied => relied.1⟩

theorem type_asked {kind : TypeKind} (here : among n) (sort : typeKind? n = some kind) :
    Yields (relying source among holds) (fun t => holds (.type t)) (Below.type n kind) :=
  ⟨⟨here, sort⟩, fun _ relied => relied.1⟩

theorem expressions_yield {nodes : List Node} (here : ∀ part ∈ nodes, among part) :
    Yields (relying source among holds)
      (fun found => ∀ part ∈ found.map Visit.expression, holds part) (nodes.mapM Below.expression) :=
  (Yields.mapM fun part member => expression_asked (here part member)).mono
    fun _ each => List.forall_mem_map.mpr each

theorem optional_yields {part : Option Node} (here : ∀ m, part = some m → among m) :
    Yields (relying source among holds)
      (fun found => ∀ part ∈ found.toList.map Visit.expression, holds part)
      (optional Below.expression part) :=
  (Yields.optional fun m found => expression_asked (here m found)).mono
    fun _ each => List.forall_mem_map.mpr each

end Questions

structure DeclaratorReady (source : Source) (among : Node → Prop) (holds : Visit → Prop)
    (d : Declarator) : Prop where
  name : NamedAfter source among d.name
  type : Phrase source.compact among d.type
  inner : ∀ part ∈ d.parts, holds part

section
variable (layered : Layered source among holds) (here : among n)
include layered here

theorem arguments_yield :
    Yields (relying source among holds)
      (fun found => ∀ part ∈ found.map Visit.expression, holds part) (arguments n) := by
  unfold arguments
  split
  · exact expressions_yield fun part => layered.part (layered.get here ‹_›)
  · exact Yields.ok [] (List.forall_mem_nil _)

theorem block_yields :
    Yields (relying source among holds) (fun b => holds (.block b)) (block source n) := by
  refine (Yields.mapM fun part member => statement_asked (layered.part here member)).bind
    fun statements each => ?_
  refine Yields.ok _ (layered.closed _ rfl
    ⟨Layered.spanned here rfl, trivial, trivial, List.forall_mem_nil _, List.forall_mem_nil _⟩ ?_)
  exact List.forall_mem_map.mpr each

omit here in
theorem optional_block_yields {part : Option Node} (here : ∀ m, part = some m → among m) :
    Yields (relying source among holds)
      (fun found => ∀ part ∈ found.toList.map Visit.block, holds part) (optional (block source) part) :=
  (Yields.optional fun m found => block_yields layered (here m found)).mono
    fun _ each => List.forall_mem_map.mpr each

/-! Declarations -/

theorem declarator_yields {base : String} (known : Phrase source.compact among base)
    (bearer : Bearer among n) :
    Yields (relying source among holds)
      (fun d => d.span = source.span n ∧ DeclaratorReady source among holds d)
      (declarator source base n) := by
  refine Yields.skip fun name named => ?_
  refine (optional_yields fun m => layered.get here).bind fun initializer value => ?_
  exact Yields.ok _ ⟨rfl, ⟨n, bearer, name, named, rfl⟩, layered.dimensioned here known, value⟩

omit layered in
/-- The span of a declaration goes up to its last declarator. -/
theorem declaration_taken (sort : DeclaresVariables n) :
    Taken source among (Span.ofRange source.chars n.start
      (((n.all .declarator).getLast?.map Node.stop).getD n.stop)) := by
  cases last : (n.all .declarator).getLast? with
  | none => exact Taken.whole here
  | some d => exact ⟨n, here, Or.inr ⟨sort, d, List.mem_of_getLast? last, rfl⟩⟩

theorem variable_declaration_yields (sort : DeclaresVariables n) :
    Yields (relying source among holds) (fun d => holds (.declaration d))
      (variableDeclaration source n) := by
  refine Yields.skip fun base typed => ?_
  refine (Yields.mapM_shown Declarator.span source.span fun part member =>
    declarator_yields layered (layered.all here member) (.node base (layered.get here typed))
      (.declarator n here sort member)).bind fun declared ⟨spans, each⟩ => ?_
  refine Yields.ok _ (layered.closed _ rfl
    ⟨?_, ⟨n, here, .declarators sort spans rfl⟩, trivial, ?_, ?_⟩ ?_)
  · refine List.forall_mem_cons.mpr ⟨declaration_taken here sort, ?_⟩
    rw [spans, List.forall_mem_map]
    exact fun part member => Taken.whole (layered.all here member)
  · exact List.forall_mem_map.mpr fun d member => (each d member).type
  · exact List.forall_mem_map.mpr fun d member => (each d member).name
  · exact List.forall_mem_flatMap.mpr fun d member => (each d member).inner

theorem declaration_expression_yields (sort : DeclaresVariables n) :
    Yields (relying source among holds)
      (fun e => Starts holds (.expression e) ∧ (Visit.expression e).isDeclaration = true)
      (declarationExpression source n) :=
  (variable_declaration_yields layered here sort).bind fun declaration inner =>
    Yields.ok _ ⟨Or.inr ⟨declaration, rfl, inner⟩, rfl⟩

omit layered here in
theorem parameter_span {p : Parameter} (found : source.parameter? n = some p) :
    p.span = source.span n := by
  unfold Source.parameter? at found
  split at found
  · cases found
    rfl
  · split at found <;> cases found
    rfl

theorem parameter_type {p : Parameter} (found : source.parameter? n = some p) :
    Phrase source.compact among p.type := by
  have shown {part : Option Node} (inside : ∀ m, part = some m → among m) :
      Phrase source.compact among ((part.map source.compact).getD "") := by
    cases part with
    | none => exact .nothing
    | some m => exact .node m (inside m rfl)
  unfold Source.parameter? at found
  split at found
  · cases found
    exact layered.dimensioned here (shown fun m => layered.get here)
  · split at found <;> cases found
    exact shown fun m same => layered.part here (List.mem_of_find?_eq_some same)

theorem parameters_made :
    ∀ p ∈ (n.get? .parameters).elim [] source.parameters,
      Taken source among p.span ∧ Phrase source.compact among p.type := by
  intro p member
  cases found : n.get? .parameters with
  | none => simp [found] at member
  | some list =>
      rw [found, Option.elim_some] at member
      obtain ⟨part, inside, made⟩ := List.mem_filterMap.mp member
      have standing := layered.part (layered.get here found) inside
      exact ⟨parameter_span made ▸ Taken.whole standing, parameter_type layered standing made⟩

omit here in
theorem parts_of_part {part : Option Node} (here : ∀ m, part = some m → among m) :
    ∀ m ∈ part.elim [] Node.parts, among m := by
  cases part with
  | none => exact List.forall_mem_nil _
  | some list => exact fun m => layered.part (here list rfl)

theorem method_yields (bearer : Bearer among n) :
    Yields (relying source among holds) (fun m => holds (.method m) ∧ m.returnType.isSome =
      (n.is .methodDeclaration || n.is .annotationTypeElementDeclaration)) (method source n) := by
  have spans : ∀ span ∈ source.span n :: ((n.get? .parameters).elim [] source.parameters).map
      Parameter.span, Taken source among span :=
    List.forall_mem_cons.mpr ⟨Taken.whole here,
      List.forall_mem_map.mpr fun p member => (parameters_made layered here p member).1⟩
  have types {returnType : Option String}
      (known : ∀ text ∈ returnType.toList, Phrase source.compact among text) :
      ∀ text ∈ ((n.get? .typeParameters).elim [] Node.parts).map source.compact ++
        returnType.toList ++ ((n.get? .parameters).elim [] source.parameters).map Parameter.type ++
        ((n.ofKind? .throws).elim [] Node.parts).map source.compact,
        Phrase source.compact among text := by
    refine List.forall_mem_append.mpr ⟨List.forall_mem_append.mpr
      ⟨List.forall_mem_append.mpr ⟨.each ?_, known⟩, ?_⟩, .each ?_⟩
    · exact parts_of_part layered fun m => layered.get here
    · exact List.forall_mem_map.mpr fun p member => (parameters_made layered here p member).2
    · exact parts_of_part layered fun m => layered.ofKind here
  have body := optional_block_yields layered fun m => layered.get (f := .body) here
  refine Yields.skip fun name found => ?_
  have named : ∀ text ∈ [source.text name], NamedAfter source among text :=
    List.forall_mem_singleton.mpr ⟨n, bearer, name, found, rfl⟩
  dsimp only
  split
  · refine Yields.skip fun type typed => body.bind fun body inner => ?_
    have known := List.forall_mem_singleton.mpr
      (layered.dimensioned here (.node type (layered.get here typed)))
    exact Yields.ok _ ⟨layered.closed _ rfl ⟨spans, trivial, trivial, types known, named⟩ inner,
      by simp [*]⟩
  · refine body.bind fun body inner => ?_
    exact Yields.ok _ ⟨layered.closed _ rfl
      ⟨spans, trivial, trivial, types (List.forall_mem_nil _), named⟩ inner, by simp [*]⟩

end

/-! Members -/

/-- The member is as its origin has it, and its parts have the property. -/
def Ready (source : Source) (among : Node → Prop) (holds : Visit → Prop)
    (member : Member) : Prop :=
  MemberMade source among member ∧ ∀ part ∈ member.parts, holds part

def AllReady (source : Source) (among : Node → Prop) (holds : Visit → Prop)
    (found : List Member) : Prop :=
  ∀ member ∈ found, Ready source among holds member

theorem member_yields {α : Type} {result : Plan α} (member : α → Member)
    (inner : Yields (relying source among holds)
      (fun value => Ready source among holds (member value)) result) :
    Yields (relying source among holds) (fun found => AllReady source among holds found.toList)
      (result.map fun value => some (member value)) :=
  Yields.map _ (inner.mono fun _ ready => List.forall_mem_singleton.mpr ready)

theorem body_of_members (layered : Layered source among holds) (found : List Member)
    (each : AllReady source among holds found) {nodes : List Node}
    (here : nodes = [] ∨ ∃ n, among n ∧ n.children = nodes)
    (listed : List.Forall₂ (Stems source) found (memberNodes nodes)) :
    holds (.classBody (ClassBody.ofMembers found)) := by
  refine layered.closed _ rfl
    (body_made found (fun member inside => (each member inside).1) here listed) ?_
  rw [Visit.parts, ClassBody.members_replay]
  exact List.forall_mem_flatMap.mpr fun member inside => (each member inside).2

theorem plain_member_yields (layered : Layered source among holds) (here : among n) :
    Yields (relying source among holds) (fun found => AllReady source among holds found.toList)
      (plainMember source n) := by
  have method (bearer : Bearer among n)
      (sort : (n.is .methodDeclaration || n.is .annotationTypeElementDeclaration) = true) :
      Yields (relying source among holds) (fun found => AllReady source among holds found.toList)
        ((method source n).map fun m => some (.method m)) :=
    member_yields .method ((method_yields layered here bearer).mono fun m ⟨inner, typed⟩ =>
      ⟨typed.trans sort, List.forall_mem_singleton.mpr inner⟩)
  have constructor (bearer : Bearer among n)
      (sort : (n.is .methodDeclaration || n.is .annotationTypeElementDeclaration) = false) :
      Yields (relying source among holds) (fun found => AllReady source among holds found.toList)
        ((Lower.method source n).map fun m => some (.constructor m)) :=
    member_yields .constructor ((method_yields layered here bearer).mono fun m ⟨inner, typed⟩ =>
      ⟨(by simpa using typed.trans sort : m.returnType = none),
        List.forall_mem_singleton.mpr inner⟩)
  have field (sort : DeclaresVariables n) :
      Yields (relying source among holds) (fun found => AllReady source among holds found.toList)
        ((variableDeclaration source n).map fun d => some (.field d)) :=
    member_yields .field ((variable_declaration_yields layered here sort).mono fun _ inner =>
      ⟨trivial, List.forall_mem_singleton.mpr inner⟩)
  unfold plainMember
  split
  case h_1 kind => exact method (.rule here _ (by decide) kind) (by simp [Node.is, kind])
  case h_2 kind => exact method (.rule here _ (by decide) kind) (by simp [Node.is, kind])
  case h_3 kind => exact constructor (.rule here _ (by decide) kind) (by simp [Node.is, kind])
  case h_4 kind => exact constructor (.rule here _ (by decide) kind) (by simp [Node.is, kind])
  case h_5 kind => exact field (Or.inr (Or.inl kind))
  case h_6 kind => exact field (Or.inr (Or.inr kind))
  case h_7 =>
    refine Yields.map _ ((optional_block_yields layered fun m => layered.ofKind here).mono
      fun body inner => ?_)
    cases body with
    | none => exact List.forall_mem_nil _
    | some b => exact List.forall_mem_singleton.mpr ⟨trivial, inner⟩
  case h_8 =>
    exact member_yields .initializer ((block_yields layered here).mono fun _ inner =>
      ⟨trivial, List.forall_mem_singleton.mpr inner⟩)
  case h_9 =>
    split
    · exact member_yields .type ((type_asked here ‹_›).mono fun _ inner =>
        ⟨trivial, List.forall_mem_singleton.mpr inner⟩)
    · exact Yields.ok none (List.forall_mem_nil _)

-- The bodies of constants hold members again, on the same level: the recursion is on the nodes.
mutual

theorem members_yield (layered : Layered source among holds) (nodes : List Node)
    (here : ∀ n ∈ nodes, among n) :
    Yields (relying source among holds) (AllReady source among holds) (members source nodes) := by
  match nodes with
  | [] =>
      rw [members]
      exact Yields.ok [] (List.forall_mem_nil _)
  | .mk kind label start stop children :: rest =>
      obtain ⟨own, later⟩ := List.forall_mem_cons.mp here
      have inside : ∀ child ∈ children, among child := layered.children _ own
      rw [members]
      have joined (first : List Member) (each : AllReady source among holds first) :
          Yields (relying source among holds) (AllReady source among holds)
            (members source rest >>= fun others => pure (first ++ others)) :=
        (members_yield layered rest later).bind fun others behind =>
          Yields.ok _ (List.forall_mem_append.mpr ⟨each, behind⟩)
      split
      · exact (members_yield layered children inside).bind joined
      · split
        · refine Yields.skip fun name _ => ?_
          refine (arguments_yield layered own).bind fun arguments given => ?_
          refine (constant_body_yields layered children inside).bind fun body inner => ?_
          refine joined _ (List.forall_mem_singleton.mpr ⟨Taken.whole own, ?_⟩)
          exact List.forall_mem_append.mpr ⟨given, inner⟩
        · exact (Yields.map _ (plain_member_yields layered own)).bind joined

theorem constant_body_yields (layered : Layered source among holds) (nodes : List Node)
    (here : ∀ n ∈ nodes, among n) :
    Yields (relying source among holds)
      (fun found => ∀ part ∈ found.toList.map Visit.classBody, holds part)
      (constantBody source nodes) := by
  match nodes with
  | [] =>
      rw [constantBody]
      exact Yields.ok none (List.forall_mem_nil _)
  | .mk kind label start stop children :: rest =>
      obtain ⟨own, later⟩ := List.forall_mem_cons.mp here
      rw [constantBody]
      split
      · refine Yields.map _ (((members_yield layered children (layered.children _ own)).also
          (members_listed children) fun _ _ relied => relied.2).mono fun found ⟨each, listed⟩ => ?_)
        exact List.forall_mem_singleton.mpr
          (body_of_members layered found each (Or.inr ⟨_, own, rfl⟩) listed)
      · exact constant_body_yields layered rest later

end

section
variable (layered : Layered source among holds) (here : among n)
include layered here

theorem class_body_yields :
    Yields (relying source among holds) (fun b => holds (.classBody b)) (classBody source n) :=
  Yields.map _ (((members_yield layered n.children (layered.children n here)).also
    (members_listed n.children) fun _ _ relied => relied.2).mono fun found ⟨each, listed⟩ =>
      body_of_members layered found each (Or.inr ⟨n, here, rfl⟩) listed)

omit here in
theorem optional_body_yields {part : Option Node} (here : ∀ m, part = some m → among m) :
    Yields (relying source among holds)
      (fun found => ∀ part ∈ found.toList.map Visit.classBody, holds part)
      (optional (classBody source) part) :=
  (Yields.optional fun m found => class_body_yields layered (here m found)).mono
    fun _ each => List.forall_mem_map.mpr each

omit layered in
theorem type_bearer {kind : TypeKind} (sort : typeKind? n = some kind) : Bearer among n := by
  unfold typeKind? at sort
  split at sort
  case h_6 => cases sort
  all_goals
    rename_i rule
    exact .rule here _ (by decide) rule

theorem type_declaration_yields {kind : TypeKind} (sort : typeKind? n = some kind) :
    Yields (relying source among holds) (fun t => Made source among (.type t) ∧
      (∀ part ∈ (Visit.type t).parts, holds part) ∧ t.span = source.span n ∧ t.kind = kind)
      (typeDeclaration source n kind) := by
  refine Yields.skip fun name named => ?_
  refine (Yields.optional fun m found => class_body_yields layered (layered.get here found)).bind
    fun body inner => ?_
  refine Yields.ok _ ⟨⟨Layered.spanned here rfl, trivial, trivial, List.forall_mem_nil _,
      List.forall_mem_singleton.mpr ⟨n, type_bearer here sort, name, named, rfl⟩⟩,
    List.forall_mem_singleton.mpr ?_, rfl, rfl⟩
  cases body with
  | none =>
      have bare : List.Forall₂ (Stems source) [] (memberNodes []) := by
        rw [memberNodes]
        exact .nil
      exact body_of_members layered [] (List.forall_mem_nil _) (Or.inl rfl) bare
  | some body => exact inner body List.mem_cons_self

/-! Switches -/

theorem switch_label_yields :
    Yields (relying source among holds) (fun label => ∀ part ∈ label.parts, holds part)
      (switchLabel n) := by
  unfold switchLabel
  split
  · exact Yields.ok _ (List.forall_mem_nil _)
  · exact Yields.map _ (expressions_yield fun part => layered.part here)

theorem switch_part_yields (found : List SwitchLabel × List Statement)
    (inner : (∀ part ∈ found.1.flatMap SwitchLabel.parts, holds part) ∧
      ∀ part ∈ found.2.map Visit.statement, holds part) :
    Yields (relying source among holds)
      (fun found => (∀ part ∈ found.1.flatMap SwitchLabel.parts, holds part) ∧
        ∀ part ∈ found.2.map Visit.statement, holds part)
      (switchPart found n) := by
  obtain ⟨labels, statements⟩ := inner
  unfold switchPart
  split
  · refine Yields.map _ ((switch_label_yields layered here).mono fun label values =>
      ⟨?_, statements⟩)
    rw [List.flatMap_append]
    exact List.forall_mem_append.mpr ⟨labels, by simpa using values⟩
  · refine Yields.map _ ((statement_asked here).mono fun statement inner => ⟨labels, ?_⟩)
    rw [List.map_append]
    exact List.forall_mem_append.mpr ⟨statements, List.forall_mem_singleton.mpr inner⟩

theorem switch_entry_yields :
    Yields (relying source among holds) (fun found => ∀ entry ∈ found.toList,
      Taken source among entry.span ∧ ∀ part ∈ entry.parts, holds part) (switchEntry source n) := by
  unfold switchEntry
  split
  · refine (Yields.foldlM (fun found inner part member => switch_part_yields layered
      (layered.part here member) found inner) ([], [])
        ⟨List.forall_mem_nil _, List.forall_mem_nil _⟩).bind fun found inner => ?_
    refine Yields.ok _ (List.forall_mem_singleton.mpr ⟨Taken.whole here, ?_⟩)
    exact List.forall_mem_append.mpr inner
  · exact Yields.ok none (List.forall_mem_nil _)

theorem first_yields (part : String) :
    Yields (relying source among holds) (fun e => holds (.expression e))
      (source.require n part n.parts.head? >>= Below.expression) :=
  Yields.required fun _ found => expression_asked (layered.first here found)

theorem field_expression_yields (f : Field) :
    Yields (relying source among holds) (fun e => holds (.expression e))
      (fieldExpression source n f) :=
  Yields.required fun _ found => expression_asked (layered.get here found)

theorem switch_block_yields :
    Yields (relying source among holds) (fun b => holds (.switch b)) (switchBlock source n) := by
  refine (field_expression_yields layered here .condition).bind fun selector chosen => ?_
  refine Yields.required fun body found => ?_
  have inside := layered.get here found
  refine (Yields.mapM fun part member => switch_entry_yields layered
    (layered.part inside member)).bind fun entries each => ?_
  have kept : ∀ entry ∈ entries.filterMap id,
      Taken source among entry.span ∧ ∀ part ∈ entry.parts, holds part := by
    refine List.forall_mem_filterMap.mpr fun entry member found same => ?_
    exact each entry member found (by simpa using same)
  refine Yields.ok _ (layered.closed _ rfl ⟨?_, trivial, trivial, List.forall_mem_nil _,
    List.forall_mem_nil _⟩ (List.forall_mem_cons.mpr ⟨chosen, ?_⟩))
  · exact List.forall_mem_map.mpr fun entry member => (kept entry member).1
  · exact List.forall_mem_flatMap.mpr fun entry member => (kept entry member).2

end

/-! Expressions -/

structure KindReady (source : Source) (among : Node → Prop) (holds : Visit → Prop) (n : Node)
    (kind : ExpressionKind) : Prop where
  origin : KindFrom source n kind
  types : ∀ text ∈ kind.types, Phrase source.compact among text
  inner : ∀ part ∈ kind.parts, holds part

section
variable (layered : Layered source among holds) (here : among n)
include layered here

theorem method_call_yields (kind : n.kind = .rule .methodInvocation) :
    Yields (relying source among holds) (fun c => c.span = source.span n ∧ holds (.call c))
      (methodCall source n) := by
  refine (optional_yields fun m => layered.get here).bind fun scope inner => ?_
  refine Yields.skip fun name named => ?_
  refine (arguments_yield layered here).bind fun arguments given => ?_
  refine Yields.ok _ ⟨rfl, layered.closed _ rfl
    ⟨Layered.spanned here rfl, trivial, trivial, .each ?_, List.forall_mem_singleton.mpr
      ⟨n, .rule here _ (by decide) kind, name, named, rfl⟩⟩ ?_⟩
  · exact parts_of_part layered fun m => layered.get here
  · exact List.forall_mem_append.mpr ⟨inner, given⟩

theorem update_yields :
    Yields (relying source among holds) (KindReady source among holds n) (update source n) := by
  refine Yields.required fun operand found => ?_
  refine (expression_asked (layered.first here found)).bind fun value inner => ?_
  exact Yields.ok _ ⟨trivial, List.forall_mem_nil _, List.forall_mem_singleton.mpr inner⟩

/-- The last node before the word `new`, comments apart, is a child. -/
theorem owner_among (before : Node → Bool) (named : Node → Bool) (m : Node)
    (found : ((n.children.takeWhile before).filter named).getLast? = some m) : among m := by
  refine layered.children n here m ?_
  exact (List.takeWhile_sublist _).subset (List.mem_of_mem_filter (List.mem_of_getLast? found))

theorem object_creation_yields :
    Yields (relying source among holds) (fun created =>
      Phrase source.compact among created.type ∧ ∀ part ∈ created.parts, holds part)
      (objectCreation source n) := by
  refine (optional_yields (owner_among layered here _ _)).bind fun scope owner => ?_
  refine Yields.skip fun type typed => ?_
  refine (arguments_yield layered here).bind fun arguments given => ?_
  refine (optional_body_yields layered fun m => layered.ofKind here).bind fun body inner => ?_
  refine Yields.ok _ ⟨.node type (layered.get here typed), List.forall_mem_append.mpr ⟨?_, inner⟩⟩
  exact List.forall_mem_append.mpr ⟨owner, given⟩

theorem array_creation_yields :
    Yields (relying source among holds) (KindReady source among holds n)
      (arrayCreation source n) := by
  have sizes : ∀ size ∈ (n.parts.filter (·.is .dimensionsExpr)).filterMap fun d => d.parts.head?,
      among size := by
    refine List.forall_mem_filterMap.mpr fun d member size found => ?_
    exact layered.first (layered.part here (List.mem_of_mem_filter member)) found
  refine Yields.skip fun type typed => ?_
  refine (expressions_yield sizes).bind fun dimensions sizes => ?_
  refine (optional_yields fun m => layered.get here).bind fun initializer inner => ?_
  refine Yields.ok _ ⟨trivial, List.forall_mem_singleton.mpr ?_,
    List.forall_mem_append.mpr ⟨sizes, inner⟩⟩
  exact .node type (layered.get here typed)

theorem lambda_yields :
    Yields (relying source among holds) (KindReady source among holds n) (lambda source n) := by
  refine Yields.required fun parameters _ => ?_
  refine Yields.required fun body found => ?_
  have inside := layered.get here found
  have joined (lowered : LambdaBody) (inner : holds lowered.part) :
      Yields (relying source among holds) (KindReady source among holds n)
        (pure (ExpressionKind.lambda (lambdaNames source parameters) lowered)) :=
    Yields.ok _ ⟨trivial, List.forall_mem_nil _, List.forall_mem_singleton.mpr inner⟩
  dsimp only
  split
  · refine Yields.bind ?_ joined
    exact Yields.map _ (block_yields layered inside)
  · refine Yields.bind ?_ joined
    exact Yields.map _ (expression_asked inside)

theorem method_reference_yields :
    Yields (relying source among holds) (KindReady source among holds n)
      (methodReference source n) := by
  refine Yields.required fun scope found => ?_
  refine (expression_asked (layered.first here found)).bind fun value inner => ?_
  exact Yields.ok _ ⟨trivial, List.forall_mem_nil _, List.forall_mem_singleton.mpr inner⟩

theorem expression_kind_yields :
    Yields (relying source among holds) (KindReady source among holds n)
      (expressionKind source n) := by
  have part := field_expression_yields layered here
  have parts : ∀ part ∈ n.parts, among part := fun part => layered.part here
  have other : Yields (relying source among holds) (KindReady source among holds n)
      (otherExpression n) :=
    Yields.map _ ((expressions_yield parts).mono fun found inner =>
      ⟨rfl, List.forall_mem_nil _, inner⟩)
  have leaf (kind : ExpressionKind) (from' : KindFrom source n kind)
      (known : ∀ text ∈ kind.types, Phrase source.compact among text) (none : kind.parts = []) :
      Yields (relying source among holds) (KindReady source among holds n) (.done kind) :=
    Yields.ok kind ⟨from', known, by simp [none]⟩
  -- The cases are the rules in the order in which they are matched.
  dsimp only [expressionKind]
  split
  · exact other
  · split
    · exact leaf _ trivial (List.forall_mem_nil _) rfl
    · split
      · exact leaf _ trivial (List.forall_mem_nil _) rfl
      · exact leaf _ trivial (List.forall_mem_nil _) rfl
      · exact leaf _ trivial (List.forall_mem_nil _) rfl
      · exact Yields.map _ ((method_call_yields layered here ‹_›).mono fun call ⟨span, inner⟩ =>
          ⟨span, List.forall_mem_nil _, List.forall_mem_singleton.mpr inner⟩)
      · refine Yields.skip fun operator _ => ?_
        refine (part .left).bind fun target onLeft => ?_
        refine (part .right).bind fun value onRight => ?_
        refine Yields.ok _ ⟨rfl, List.forall_mem_nil _, List.forall_mem_singleton.mpr ?_⟩
        refine layered.closed _ rfl ⟨Layered.spanned here rfl, trivial, trivial,
          List.forall_mem_nil _, List.forall_mem_nil _⟩ ?_
        exact List.forall_mem_cons.mpr ⟨onLeft, List.forall_mem_singleton.mpr onRight⟩
      · refine Yields.skip fun operator _ => ?_
        refine (part .left).bind fun left onLeft => ?_
        refine (part .right).bind fun right onRight => ?_
        refine Yields.ok _ ⟨trivial, List.forall_mem_nil _, ?_⟩
        exact List.forall_mem_cons.mpr ⟨onLeft, List.forall_mem_singleton.mpr onRight⟩
      · refine Yields.skip fun operator _ => ?_
        refine (part .operand).bind fun operand inner => ?_
        exact Yields.ok _ ⟨trivial, List.forall_mem_nil _, List.forall_mem_singleton.mpr inner⟩
      · exact update_yields layered here
      · refine Yields.required fun inner found => ?_
        exact Yields.map _ ((expression_asked (layered.first here found)).mono fun value holds =>
          ⟨trivial, List.forall_mem_nil _, List.forall_mem_singleton.mpr holds⟩)
      · refine Yields.skip fun field _ => ?_
        refine (part .object).bind fun scope inner => ?_
        exact Yields.ok _ ⟨trivial, List.forall_mem_nil _, List.forall_mem_singleton.mpr inner⟩
      · refine (part .array).bind fun array onLeft => ?_
        refine (part .index).bind fun index onRight => ?_
        refine Yields.ok _ ⟨trivial, List.forall_mem_nil _, ?_⟩
        exact List.forall_mem_cons.mpr ⟨onLeft, List.forall_mem_singleton.mpr onRight⟩
      · exact Yields.map _ ((object_creation_yields layered here).mono fun _ ⟨known, inner⟩ =>
          ⟨trivial, List.forall_mem_singleton.mpr known, inner⟩)
      · exact array_creation_yields layered here
      · exact Yields.map _ ((expressions_yield parts).mono fun _ inner =>
          ⟨trivial, List.forall_mem_nil _, inner⟩)
      · refine (part .value).bind fun value inner => ?_
        refine Yields.ok _ ⟨trivial, List.forall_mem_singleton.mpr ?_,
          List.forall_mem_singleton.mpr inner⟩
        exact .joined " & " (Or.inl rfl) (.each fun m => layered.all here)
      · refine (part .condition).bind fun condition chosen => ?_
        refine (part .consequence).bind fun yes onYes => ?_
        refine (part .alternative).bind fun no onNo => ?_
        refine Yields.ok _ ⟨trivial, List.forall_mem_nil _, List.forall_mem_cons.mpr ⟨chosen, ?_⟩⟩
        exact List.forall_mem_cons.mpr ⟨onYes, List.forall_mem_singleton.mpr onNo⟩
      · refine (part .left).bind fun value inner => ?_
        refine Yields.ok _ ⟨trivial, List.forall_mem_singleton.mpr (.optional fun m found => ?_),
          List.forall_mem_singleton.mpr inner⟩
        rcases Option.or_eq_some_iff.mp found with right | ⟨_, pattern⟩
        · exact layered.get here right
        · exact layered.get here pattern
      · exact lambda_yields layered here
      · exact method_reference_yields layered here
      · exact Yields.map _ ((switch_block_yields layered here).mono fun _ inner =>
          ⟨trivial, List.forall_mem_nil _, List.forall_mem_singleton.mpr inner⟩)
      · exact leaf _ trivial
          (List.forall_mem_singleton.mpr (.optional fun m => layered.first here)) rfl
      · exact other

/-! Statements -/

theorem field_statement_yields (f : Field) :
    Yields (relying source among holds) (fun s => holds (.statement s))
      (fieldStatement source n f) :=
  Yields.required fun _ found => statement_asked (layered.get here found)

theorem loop_start_yields :
    Yields (relying source among holds) (fun e => Starts holds (.expression e))
      (loopStart source n) := by
  unfold loopStart
  split
  case isTrue sort =>
    exact (declaration_expression_yields layered here (Or.inl (by simpa [Node.is] using sort))).mono
      fun _ both => both.1
  case isFalse => exact (expression_asked here).mono fun _ inner => Or.inl inner

end

/-- A statement of this kind is as lowering makes it. -/
structure Composed (source : Source) (among : Node → Prop) (holds : Visit → Prop)
    (kind : StatementKind) : Prop where
  spans : ∀ span ∈ kind.spans, Taken source among span
  valued : ∀ span value, (⟨kind, span⟩ : Statement).value? = some value → Valued source among value
  rests : ∀ span, (Visit.statement ⟨kind, span⟩).Rests holds
  types : ∀ text ∈ kind.types, Phrase source.compact among text

structure HandlerReady (source : Source) (among : Node → Prop) (holds : Visit → Prop)
    (h : Handler) : Prop where
  spans : ∀ span ∈ [h.span, h.parameter.span], Taken source among span
  type : Phrase source.compact among h.parameter.type
  inner : holds (.block h.body)

theorem Composed.plain {kind : StatementKind} (bare : kind.spans = [])
    (mute : ∀ span, (⟨kind, span⟩ : Statement).value? = none) (none : kind.declarable = 0)
    (inner : ∀ part ∈ kind.parts, holds part) : Composed source among holds kind :=
  ⟨by simp [bare], by simp [mute], fun _ => .plain none inner,
    by simp [StatementKind.types_of_spans bare]⟩

section
variable (layered : Layered source among holds) (here : among n)
include layered here

theorem for_loop_yields :
    Yields (relying source among holds) (Composed source among holds) (forLoop source n) := by
  refine (Yields.mapM fun part member => loop_start_yields layered
    (layered.all here member)).bind fun init starts => ?_
  refine (optional_yields fun m => layered.get here).bind fun condition chosen => ?_
  refine (expressions_yield fun part => layered.all here).bind fun update steps => ?_
  refine (field_statement_yields layered here .body).bind fun body inner => ?_
  refine Yields.ok _ ⟨List.forall_mem_nil _, by rintro _ _ ⟨⟩, fun span =>
    .append (init.map .expression)
      (condition.toList.map .expression ++ (update.map .expression ++ [.statement body]))
      ?_ ?_ ?_ ?_, List.forall_mem_nil _⟩
  · simp [Visit.parts, StatementKind.parts]
  · exact (List.length_map _).symm
  · exact List.forall_mem_map.mpr starts
  · refine List.forall_mem_append.mpr ⟨chosen, ?_⟩
    exact List.forall_mem_append.mpr ⟨steps, List.forall_mem_singleton.mpr inner⟩

theorem for_each_yields :
    Yields (relying source among holds) (Composed source among holds) (forEach source n) := by
  refine Yields.skip fun type typed => ?_
  refine Yields.skip fun name _ => ?_
  refine (field_expression_yields layered here .value).bind fun iterable values => ?_
  refine (field_statement_yields layered here .body).bind fun body inner => ?_
  refine Yields.ok _ ⟨Layered.spanned here rfl, by rintro _ _ ⟨⟩, fun span => .plain rfl ?_,
    List.forall_mem_singleton.mpr (.node type (layered.get here typed))⟩
  exact List.forall_mem_cons.mpr ⟨values, List.forall_mem_singleton.mpr inner⟩

theorem resource_yields (kind : n.is .resource = true) :
    Yields (relying source among holds) (fun e => Starts holds (.expression e))
      (resource source n) := by
  unfold resource
  split
  case h_1 type typed =>
    have bearer : Bearer among n := .rule here .resource (by decide) (beq_iff_eq.mp kind)
    refine (declarator_yields layered here (.node type (layered.get here typed)) bearer).bind
      fun declared ⟨span, ready⟩ => ?_
    refine Yields.ok _ (Or.inr ⟨_, rfl, layered.closed _ rfl
      ⟨?_, ⟨n, here, .resource (by simp [span]) rfl⟩, trivial, ?_, ?_⟩ ?_⟩)
    · exact List.forall_mem_cons.mpr ⟨Taken.whole here, Layered.spanned here span⟩
    · exact List.forall_mem_singleton.mpr ready.type
    · exact List.forall_mem_singleton.mpr ready.name
    · exact List.forall_mem_flatMap.mpr (List.forall_mem_singleton.mpr ready.inner)
  case h_2 => exact (first_yields layered here "resource").mono fun _ inner => Or.inl inner

theorem handler_yields :
    Yields (relying source among holds) (HandlerReady source among holds) (handler source n) := by
  refine Yields.required fun parameter given => ?_
  refine Yields.skip fun name _ => ?_
  refine Yields.required fun body found => ?_
  refine (block_yields layered (layered.get here found)).bind fun lowered inner => ?_
  have standing := layered.ofKind here given
  refine Yields.ok _ ⟨List.forall_mem_cons.mpr ⟨Taken.whole here, ?_⟩, ?_, inner⟩
  · exact Layered.spanned standing rfl
  · exact .joined " | " (Or.inr rfl)
      (.each (parts_of_part layered fun m => layered.ofKind standing))

theorem attempt_part_yields (found : List Handler × Option Block)
    (inner : (∀ h ∈ found.1, HandlerReady source among holds h) ∧
      ∀ b ∈ found.2.toList, holds (.block b)) :
    Yields (relying source among holds)
      (fun found => (∀ h ∈ found.1, HandlerReady source among holds h) ∧
        ∀ b ∈ found.2.toList, holds (.block b))
      (attemptPart source found n) := by
  obtain ⟨handlers, finish⟩ := inner
  unfold attemptPart
  split
  · refine Yields.map _ ((handler_yields layered here).mono fun h inner => ⟨?_, finish⟩)
    exact List.forall_mem_append.mpr ⟨handlers, List.forall_mem_singleton.mpr inner⟩
  · split
    · refine Yields.map _ ((Yields.optional fun m found => block_yields layered
        (layered.ofKind here found)).mono fun body inner => ⟨handlers, ?_⟩)
      cases body with
      | none => exact finish
      | some b => exact inner
    · exact Yields.ok found ⟨handlers, finish⟩

theorem attempt_yields :
    Yields (relying source among holds) (fun tried => Composed source among holds (.attempt tried))
      (attempt source n) := by
  have resources : ∀ part ∈ ((n.get? .resources).elim [] Node.parts).filter (·.is .resource),
      among part := fun part member =>
    parts_of_part layered (fun m => layered.get here) part (List.mem_of_mem_filter member)
  refine (Yields.mapM fun part member => resource_yields layered (resources part member)
    (List.mem_filter.mp member).2).bind fun resources opened => ?_
  refine Yields.required fun body found => ?_
  refine (block_yields layered (layered.get here found)).bind fun lowered inner => ?_
  refine (Yields.foldlM (fun found each part member => attempt_part_yields layered
    (layered.part here member) found each) ([], none)
      ⟨List.forall_mem_nil _, List.forall_mem_nil _⟩).bind fun found each => ?_
  refine Yields.ok _ ⟨List.forall_mem_flatMap.mpr fun h member => (each.1 h member).spans,
    by rintro _ _ ⟨⟩, fun span => .append (resources.map .expression) (.block lowered ::
      found.1.map (fun handler => .block handler.body) ++ found.2.toList.map .block) ?_ ?_ ?_ ?_,
    List.forall_mem_map.mpr fun h member => (each.1 h member).type⟩
  · simp [Visit.parts, StatementKind.parts, Attempt.parts]
  · exact (List.length_map _).symm
  · exact List.forall_mem_map.mpr opened
  · refine List.forall_mem_append.mpr ⟨List.forall_mem_cons.mpr ⟨inner, ?_⟩, ?_⟩
    · exact List.forall_mem_map.mpr fun h member => (each.1 h member).inner
    · exact List.forall_mem_map.mpr each.2

theorem labeled_yields :
    Yields (relying source among holds) (Composed source among holds) (labeled source n) := by
  refine Yields.required fun body found => ?_
  have inside := layered.part here (List.mem_of_mem_tail (List.mem_of_getLast? found))
  refine Yields.map _ ((statement_asked inside).mono fun statement inner =>
    .plain rfl (fun _ => rfl) rfl ?_)
  exact List.forall_mem_singleton.mpr inner

theorem asserts_yields :
    Yields (relying source among holds) (Composed source among holds) (asserts source n) := by
  refine Yields.required fun check found => ?_
  have second (m : Node) (found : n.parts.tail.head? = some m) : among m :=
    layered.part here (List.mem_of_mem_tail (List.mem_of_mem_head? found))
  refine (optional_yields second).bind fun message told => ?_
  refine (expression_asked (layered.first here found)).bind fun condition inner => ?_
  exact Yields.ok _ (.plain rfl (fun _ => rfl) rfl (List.forall_mem_cons.mpr ⟨inner, told⟩))

theorem synchronized_block_yields :
    Yields (relying source among holds) (Composed source among holds)
      (synchronizedBlock source n) := by
  refine Yields.required fun lock locks => ?_
  refine Yields.required fun body found => ?_
  refine (expression_asked (layered.ofKind here locks)).bind fun value locked => ?_
  refine (block_yields layered (layered.get here found)).bind fun lowered inner => ?_
  refine Yields.ok _ (.plain rfl (fun _ => rfl) rfl ?_)
  exact List.forall_mem_cons.mpr ⟨locked, List.forall_mem_singleton.mpr inner⟩

theorem constructor_call_yields :
    Yields (relying source among holds) (fun called => ∀ part ∈ called.parts, holds part)
      (constructorCall source n) := by
  refine Yields.skip fun target _ => ?_
  refine (optional_yields fun m => layered.get here).bind fun qualifier inner => ?_
  refine (arguments_yield layered here).bind fun arguments given => ?_
  exact Yields.ok _ (List.forall_mem_append.mpr ⟨inner, given⟩)

omit layered in
theorem other_statement_yields :
    Yields (relying source among holds) (Composed source among holds) (otherStatement n) := by
  unfold otherStatement
  split
  · exact Yields.map _ ((type_asked here ‹_›).mono fun type inner =>
      .plain rfl (fun _ => rfl) rfl (List.forall_mem_singleton.mpr inner))
  · exact Yields.ok _ (.plain rfl (fun _ => rfl) rfl (List.forall_mem_nil _))

theorem statement_kind_yields :
    Yields (relying source among holds) (Composed source among holds) (statementKind source n) := by
  have part := field_expression_yields layered here
  have body := field_statement_yields layered here
  have first : Yields (relying source among holds)
      (fun found => ∀ e ∈ found.toList, holds (.expression e) ∧ Valued source among e)
      (optional Below.expression n.parts.head?) :=
    Yields.optional fun m found => named_expression_asked (layered.first here found) (by
      have named := (List.mem_filter.mp (List.mem_of_mem_head? found)).2
      exact ((Bool.and_eq_true _ _).mp named).1)
  have thrown : Yields (relying source among holds) (Composed source among holds)
      ((firstExpression source n).map .throws) :=
    Yields.map _ ((first_yields layered here _).mono fun _ inner =>
      .plain rfl (fun _ => rfl) rfl (List.forall_mem_singleton.mpr inner))
  have yielded : Yields (relying source among holds) (Composed source among holds)
      ((firstExpression source n).map .yields) :=
    Yields.map _ ((first_yields layered here _).mono fun _ inner =>
      .plain rfl (fun _ => rfl) rfl (List.forall_mem_singleton.mpr inner))
  have tried : Yields (relying source among holds) (Composed source among holds)
      ((attempt source n).map .attempt) :=
    Yields.map _ (attempt_yields layered here)
  have started (e : Expression) (inner : Starts holds (.expression e))
      (valued : Valued source among e) : Composed source among holds (.expression e) :=
    ⟨List.forall_mem_nil _, by rintro _ _ ⟨⟩; exact valued, fun span => .append [.expression e] []
      rfl rfl (List.forall_mem_singleton.mpr inner) (List.forall_mem_nil _), List.forall_mem_nil _⟩
  -- The cases are the rules in the order in which they are matched.
  dsimp only [statementKind]
  split
  · refine Yields.ok _ ?_
    split <;> exact .plain rfl (fun _ => rfl) rfl (List.forall_mem_nil _)
  · split
    case h_1 =>
      refine Yields.map _ (first.mono fun value inner => ?_)
      cases value with
      | none => exact .plain rfl (fun _ => rfl) rfl (List.forall_mem_nil _)
      | some value =>
          obtain ⟨holding, valued⟩ := List.forall_mem_singleton.mp inner
          exact started value (Or.inl holding) valued
    case h_2 =>
      have sort : DeclaresVariables n := Or.inl ‹n.kind = .rule .localVariableDeclaration›
      exact Yields.map _ ((declaration_expression_yields layered here sort).mono
        fun e ⟨inner, declares⟩ => started e inner (Or.inl declares))
    case h_3 =>
      refine (part .condition).bind fun condition chosen => ?_
      refine (body .consequence).bind fun yes onYes => ?_
      refine (Yields.optional fun m found => statement_asked (layered.get here found)).bind
        fun no onNo => ?_
      refine Yields.ok _ (.plain rfl (fun _ => rfl) rfl (List.forall_mem_cons.mpr ⟨chosen, ?_⟩))
      exact List.forall_mem_cons.mpr ⟨onYes, List.forall_mem_map.mpr onNo⟩
    case h_4 =>
      refine (part .condition).bind fun condition chosen => ?_
      refine (body .body).bind fun repeated inner => ?_
      refine Yields.ok _ (.plain rfl (fun _ => rfl) rfl ?_)
      exact List.forall_mem_cons.mpr ⟨chosen, List.forall_mem_singleton.mpr inner⟩
    case h_5 =>
      refine (body .body).bind fun repeated inner => ?_
      refine (part .condition).bind fun condition chosen => ?_
      refine Yields.ok _ (.plain rfl (fun _ => rfl) rfl ?_)
      exact List.forall_mem_cons.mpr ⟨inner, List.forall_mem_singleton.mpr chosen⟩
    case h_6 => exact for_loop_yields layered here
    case h_7 => exact for_each_yields layered here
    case h_8 =>
      exact Yields.map _ ((block_yields layered here).mono fun _ inner =>
        .plain rfl (fun _ => rfl) rfl (List.forall_mem_singleton.mpr inner))
    case h_9 =>
      refine Yields.map _ (first.mono fun found inner => ⟨List.forall_mem_nil _, ?_, fun span =>
        .plain rfl (List.forall_mem_map.mpr fun e member => (inner e member).1),
        List.forall_mem_nil _⟩)
      intro span value same
      exact (inner value (Option.mem_toList.mpr same)).2
    case h_10 =>
      exact Yields.map _ ((switch_block_yields layered here).mono fun _ inner =>
        .plain rfl (fun _ => rfl) rfl (List.forall_mem_singleton.mpr inner))
    case h_11 => exact synchronized_block_yields layered here
    case h_12 => exact tried
    case h_13 => exact tried
    case h_14 => exact thrown
    case h_15 => exact yielded
    case h_16 => exact Yields.ok _ (.plain rfl (fun _ => rfl) rfl (List.forall_mem_nil _))
    case h_17 => exact Yields.ok _ (.plain rfl (fun _ => rfl) rfl (List.forall_mem_nil _))
    case h_18 => exact labeled_yields layered here
    case h_19 => exact asserts_yields layered here
    case h_20 =>
      exact Yields.map _ ((constructor_call_yields layered here).mono fun _ inner =>
        .plain rfl (fun _ => rfl) rfl inner)
    case h_21 => exact other_statement_yields here

end

/-! Levels -/

theorem answer_yields (layered : Layered source among holds) (request : Ask)
    (here : among request.node) (apt : request.Apt) :
    Yields (relying source among holds) (fun found => (Made source among (request.visit found) ∧
        (request.visit found).Rests holds ∧ (request.visit found).isDeclaration = false) ∧
        Answers source request found)
      (answer source request) := by
  cases request with
  | expression n =>
      refine Yields.map _ ((expression_kind_yields layered here).mono
        fun kind ⟨from', known, inner⟩ => ?_)
      refine ⟨⟨⟨Layered.spanned here rfl, ?_, trivial, known, List.forall_mem_nil _⟩,
        .plain rfl inner, ?_⟩, rfl, from'⟩
      · cases kind <;> first | exact from'.elim | exact ⟨n, here, rfl, from'⟩
      · cases kind <;> first | exact from'.elim | rfl
  | statement n =>
      refine Yields.map _ ((statement_kind_yields layered here).mono fun kind composed => ?_)
      exact ⟨⟨⟨List.forall_mem_cons.mpr ⟨Taken.whole here, composed.spans⟩, composed.valued _,
        trivial, composed.types, List.forall_mem_nil _⟩, composed.rests _, rfl⟩, rfl⟩
  | type n kind =>
      exact (type_declaration_yields layered here apt).mono fun type ⟨made, inner, same⟩ =>
        ⟨⟨made, .plain rfl inner, rfl⟩, same⟩

/-- Properties of the levels, each of which carries over to the level above it. -/
structure Stacked (source : Source) (among : Node → Prop) (holds : Nat → Visit → Prop) : Prop where
  layered : ∀ left, Layered source among (holds left)
  above : ∀ left whole, Made source among whole → whole.Rests (holds left) →
    whole.isDeclaration = false → holds (left + 1) whole

section
variable {level : Nat → Visit → Prop} (stacked : Stacked source among level)
include stacked

theorem levels_stacked (left : Nat) (request : Ask) (here : among request.node)
    (apt : request.Apt) :
    (levels source left request).Has
      (fun found => level left (request.visit found) ∧ Answers source request found)
      fun _ => True := by
  induction left generalizing request with
  | zero => trivial
  | succ left ih =>
      refine ((answer_yields (stacked.layered left) request here apt).mono ?_).run _ _
        (fun asked inside => ih asked inside.1 inside.2) fun _ _ => trivial
      rintro found ⟨⟨made, rests, apart⟩, answers⟩
      exact ⟨stacked.above left _ made rests apart, answers⟩

end

theorem package_made (layered : Layered source among holds) (here : among n)
    {d : PackageDeclaration} (found : packageDeclaration? source n = some d) :
    d.span = source.span n ∧ Written source among d.name := by
  unfold packageDeclaration? at found
  split at found
  · obtain ⟨name, dotted, rfl⟩ := Option.map_eq_some_iff.mp found
    have inside := layered.part here (List.mem_of_find?_eq_some dotted)
    refine ⟨rfl, name, inside, ?_, rfl⟩
    simpa [Node.is] using List.find?_some dotted
  · cases found

theorem import_span {d : ImportDeclaration} (found : importDeclaration? source n = some d) :
    d.span = source.span n := by
  unfold importDeclaration? at found
  split at found
  · obtain ⟨path, _, rfl⟩ := Option.map_eq_some_iff.mp found
    rfl
  · cases found

theorem outline_yields (layered : Layered source among holds) (root : Node) (here : among root) :
    Yields (relying source among holds) (fun u => Made source among (.unit u) ∧
      ∀ part ∈ (Visit.unit u).parts, holds part) (outline source root) := by
  have tops (n : Node) (member : n ∈ root.parts) :
      Yields (relying source among holds) (fun found => ∀ type ∈ found.toList, holds (.type type))
        (topType n) := by
    unfold topType
    split
    · exact Yields.map _ ((type_asked (layered.part here member) ‹_›).mono fun type inner =>
        List.forall_mem_singleton.mpr inner)
    · exact Yields.ok none (List.forall_mem_nil _)
  have package : ∀ d ∈ root.parts.findSome? (packageDeclaration? source),
      Taken source among d.span ∧ Written source among d.name := by
    intro d found
    obtain ⟨n, member, made⟩ := List.exists_of_findSome?_eq_some found
    have own := layered.part here member
    obtain ⟨span, name⟩ := package_made layered own made
    exact ⟨span ▸ Taken.whole own, name⟩
  have imports : ∀ d ∈ root.parts.filterMap (importDeclaration? source),
      Taken source among d.span := by
    refine List.forall_mem_filterMap.mpr fun n member d made => ?_
    rw [import_span made]
    exact Taken.whole (layered.part here member)
  refine (Yields.mapM tops).bind fun found each => ?_
  refine Yields.ok _ ⟨⟨List.forall_mem_append.mpr ⟨?_, List.forall_mem_map.mpr imports⟩,
    ⟨rfl, fun d found => (package d found).2⟩, trivial, List.forall_mem_nil _,
    List.forall_mem_nil _⟩, ?_⟩
  · exact List.forall_mem_cons.mpr ⟨Taken.whole here, List.forall_mem_map.mpr fun d found =>
      (package d (Option.mem_toList.mp found)).1⟩
  · refine List.forall_mem_map.mpr (List.forall_mem_filterMap.mpr fun entry inside type same => ?_)
    exact each entry inside type (by simpa using same)

theorem unit_stacked {level : Nat → Visit → Prop} (chars : List Char) (limit : Nat) (root : Node)
    (stacked : Stacked ⟨chars⟩ among level) (here : among root) (u : CompilationUnit)
    (ok : unit chars limit root = .ok u) :
    Made ⟨chars⟩ among (.unit u) ∧ ∀ part ∈ (Visit.unit u).parts, level limit part := by
  have has := (outline_yields (stacked.layered limit) root here).run (levels ⟨chars⟩ limit)
    (fun _ => True) (fun asked inside => levels_stacked stacked limit asked inside.1 inside.2)
    fun _ _ => trivial
  rw [unit] at ok
  rwa [ok] at has

end Lower

/-- What is read is the outline of the tree of the text. -/
theorem read_lowered (path : String) (chars : List Char) (limit : Nat) (u : CompilationUnit)
    (accepted : CompilationUnit.read path chars limit = .ok u) :
    ∃ root, Grammar.tree? chars = some root ∧
      Lower.unit chars (min limit largestDepth) root = .ok u := by
  simp only [CompilationUnit.read] at accepted
  split at accepted
  · cases accepted
  · rename_i root follows
    refine ⟨root, follows, ?_⟩
    split at accepted
    · rename_i lowered
      cases accepted
      exact lowered
    · cases accepted
    · cases accepted

end JavaOutline
