import JavaOutline.Proofs.Grammar.Spacing
import JavaOutline.Proofs.Lower.Alike

/-!
Comments do not matter to lowering: each part that lowering looks for is found in the tree with
comments and in the tree without them. Two places look at the first or the last child whatever it
is, so comments must not stand there.
-/
namespace JavaOutline.Lower

open JavaOutline.Tree

variable {α : Type}

section
variable (source : Source)

theorem switch_label_steady : Steady switchLabel := by
  intro n spaced
  unfold switchLabel
  rw [Node.parts_uncommented, List.isEmpty_map]
  split
  · exact .done rfl
  · rw [← Node.parts_uncommented]
    exact (parts_alike spaced expression_steady).mapped fun _ => rfl

theorem switch_part_steady (found : List SwitchLabel × List Statement) :
    Steady (switchPart found) := by
  intro n spaced
  unfold switchPart
  rw [Node.is_uncommented]
  split
  · exact (switch_label_steady n spaced).mapped fun _ => rfl
  · exact (statement_steady n spaced).mapped fun _ => rfl

theorem switch_entry_steady : Steady (switchEntry source) := by
  intro n spaced
  unfold switchEntry
  rw [Node.is_uncommented, Node.is_uncommented, Node.parts_uncommented, span_uncommented]
  split
  · refine Alike.next (.foldlM _ (fun found part member => ?_) _) fun found => .done rfl
    exact switch_part_steady found part (spaced.parts part member)
  · exact .done rfl

theorem switch_block_steady : Steady (switchBlock source) := by
  intro n spaced
  refine (field_then_alike spaced expression_steady source .condition).next fun selector => ?_
  refine (field_alike spaced .body).bind ?_
  rintro body _ ⟨inner, rfl⟩
  exact (parts_alike inner (switch_entry_steady source)).next fun entries => .done rfl

theorem method_call_steady : Steady (methodCall source) := by
  intro n spaced
  refine (get_alike spaced expression_steady .object).next fun scope => ?_
  refine (field_text_alike spaced .name).next fun name => ?_
  refine (arguments_steady n spaced).next fun values => .done ?_
  rw [Node.get_uncommented spaced.tidy, parts_of_uncommented, compacts_uncommented,
    span_uncommented]

theorem first_alike {n : Node} (spaced : n.Spaced) (name : String) :
    Alike Pruned (source.require n name n.parts.head?)
      (source.require n.uncommented name n.uncommented.parts.head?) := by
  rw [Node.parts_uncommented, List.head?_map]
  refine require_alike source n name _ fun part found => ?_
  exact spaced.parts part (List.mem_of_head? found)

theorem update_steady : Steady (update source) := by
  intro n spaced
  refine (first_alike source spaced "operand").bind ?_
  rintro operand _ ⟨inner, rfl⟩
  refine (expression_steady operand inner).next fun value => .done ?_
  have sign : n.uncommented.children.find? (fun child => !child.isNamed) =
      (n.children.find? fun child => !child.isNamed).map Node.uncommented := by
    apply Node.find_uncommented
    · simp
    · intro child _ comment
      rcases Node.comment_kind comment with kind | kind <;> simp [Node.isNamed, kind]
  rw [sign, Node.head_uncommented spaced.tidy]
  cases n.children.head? <;> cases n.children.find? (fun child => !child.isNamed) <;> simp

theorem owner_uncommented (nodes : List Node) :
    ((((nodes.filter fun n => !n.isComment).map Node.uncommented).takeWhile
        fun child => child.kind != .token "new").filter
          fun child => child.isNamed && !child.isComment) =
      (((nodes.takeWhile fun child => child.kind != .token "new").filter
        fun child => child.isNamed && !child.isComment)).map Node.uncommented := by
  induction nodes with
  | nil => rfl
  | cons n rest ih =>
      by_cases comment : n.isComment = true
      · have other : n.kind ≠ .token "new" := by
          rcases Node.comment_kind comment with kind | kind <;> simp [kind]
        simp [comment, other, ih]
      · by_cases word : n.kind = .token "new"
        · simp [comment, word]
        · by_cases named : n.isNamed = true
          · simp [comment, word, named, ih]
          · simp [comment, word, named, ih]

theorem object_creation_steady : Steady (objectCreation source) := by
  intro n spaced
  unfold objectCreation
  simp only [Node.children_uncommented, Node.solid, owner_uncommented, List.getLast?_map]
  refine Alike.next (.optional _ fun owner found => ?_) fun scope => ?_
  · refine expression_steady owner (spaced.child ?_)
    have inside := (List.mem_filter.mp (List.mem_of_getLast? found)).1
    exact List.takeWhile_subset _ inside
  · refine (field_compact_alike spaced .type).next fun type => ?_
    refine (arguments_steady n spaced).next fun values => ?_
    refine Alike.next (of_kind_alike spaced (class_body_steady source) .classBody (by decide)
      (by decide)) fun body => .done rfl

theorem array_creation_steady : Steady (arrayCreation source) := by
  intro n spaced
  have sizes : (n.uncommented.parts.filter (·.is .dimensionsExpr)).filterMap
        (fun d => d.parts.head?) =
      ((n.parts.filter (·.is .dimensionsExpr)).filterMap fun d => d.parts.head?).map
        Node.uncommented := by
    simp [List.filter_map, List.filterMap_map, Function.comp_def, List.map_filterMap]
  unfold arrayCreation
  rw [sizes]
  refine (field_compact_alike spaced .type).next fun type => ?_
  refine Alike.next (.mapM _ fun size member => ?_) fun dimensions => ?_
  · obtain ⟨dimension, among, first⟩ := List.mem_filterMap.mp member
    have inner := spaced.parts dimension (List.mem_filter.mp among).1
    exact expression_steady size (inner.parts size (List.mem_of_head? first))
  · exact (get_alike spaced expression_steady .value).next fun initializer => .done rfl

theorem lambda_names_uncommented {n : Node} (spaced : n.Spaced) :
    lambdaNames source n.uncommented = lambdaNames source n := by
  simp only [lambdaNames, Node.is_uncommented, text_uncommented, Node.parts_uncommented,
    texts_uncommented, parameters_uncommented spaced]

theorem lambda_steady : Steady (lambda source) := by
  intro n spaced
  refine (field_alike spaced .parameters).bind ?_
  rintro parameters _ ⟨given, rfl⟩
  refine (field_alike spaced .body).bind ?_
  rintro body _ ⟨inner, rfl⟩
  rw [lambda_names_uncommented source given, Node.is_uncommented]
  dsimp only
  split
  · exact ((block_steady source body inner).mapped fun _ => rfl).next fun lowered => .done rfl
  · exact ((expression_steady body inner).mapped fun _ => rfl).next fun lowered => .done rfl

theorem method_reference_steady : Steady (methodReference source) := by
  intro n spaced
  refine (first_alike source spaced "scope").bind ?_
  rintro scope _ ⟨inner, rfl⟩
  refine (expression_steady scope inner).next fun value => .done ?_
  rw [Node.last_uncommented spaced.tidy]
  cases n.children.getLast? <;> simp

theorem other_expression_steady : Steady otherExpression := by
  intro n spaced
  unfold otherExpression
  rw [Node.kind_uncommented]
  exact (parts_alike spaced expression_steady).mapped fun _ => rfl

theorem expression_kind_steady : Steady (expressionKind source) := by
  intro n spaced
  have part (f : Field) : Alike Eq (fieldExpression source n f)
      (fieldExpression source n.uncommented f) := field_expression_alike spaced f
  have word (f : Field) : Alike Eq (source.fieldText n f) (source.fieldText n.uncommented f) :=
    field_text_alike spaced f
  unfold expressionKind
  rw [Node.kind_uncommented]
  split
  · exact other_expression_steady n spaced
  · split
    · rw [text_uncommented]
      exact .done rfl
    · split
      · rw [text_uncommented]
        exact .done rfl
      · exact .done rfl
      · exact .done rfl
      · exact (method_call_steady source n spaced).mapped fun _ => rfl
      · refine (word .operator).next fun operator => (part .left).next fun target => ?_
        refine (part .right).next fun value => .done ?_
        rw [span_uncommented]
      · exact (word .operator).next fun operator => (part .left).next fun left =>
          (part .right).next fun right => .done rfl
      · exact (word .operator).next fun operator => (part .operand).next fun operand => .done rfl
      · exact update_steady source n spaced
      · refine (first_alike source spaced "expression").bind ?_
        rintro inner _ ⟨below, rfl⟩
        exact (expression_steady inner below).mapped fun _ => rfl
      · exact (word .field).next fun field => (part .object).next fun scope => .done rfl
      · exact (part .array).next fun array => (part .index).next fun index => .done rfl
      · exact (object_creation_steady source n spaced).mapped fun _ => rfl
      · exact array_creation_steady source n spaced
      · exact (parts_alike spaced expression_steady).mapped fun _ => rfl
      · refine (part .value).next fun value => .done ?_
        rw [Node.all_uncommented spaced.tidy, compacts_uncommented]
      · exact (part .condition).next fun condition => (part .consequence).next fun yes =>
          (part .alternative).next fun no => .done rfl
      · refine (part .left).next fun value => .done ?_
        rw [Node.get_uncommented spaced.tidy .right, Node.get_uncommented spaced.tidy .pattern,
          field_get_text spaced]
        cases n.get? .right <;> cases n.get? .pattern <;> simp
      · exact lambda_steady source n spaced
      · exact method_reference_steady source n spaced
      · exact (switch_block_steady source n spaced).mapped fun _ => rfl
      · rw [Node.parts_uncommented, List.head?_map]
        refine .done ?_
        cases n.parts.head? <;> simp
      · exact other_expression_steady n spaced

theorem first_expression_steady : Steady (firstExpression source) := by
  intro n spaced
  refine (first_alike source spaced "expression").bind ?_
  rintro part _ ⟨inner, rfl⟩
  exact expression_steady part inner

theorem field_statement_alike {n : Node} (spaced : n.Spaced) (f : Field) :
    Alike Eq (fieldStatement source n f) (fieldStatement source n.uncommented f) :=
  field_then_alike spaced statement_steady source f

theorem first_part_alike {n : Node} (spaced : n.Spaced) :
    Alike Eq (optional Below.expression n.parts.head?)
      (optional Below.expression n.uncommented.parts.head?) := by
  rw [Node.parts_uncommented, List.head?_map]
  refine .optional _ fun part found => ?_
  exact expression_steady part (spaced.parts part (List.mem_of_head? found))

theorem loop_start_steady : Steady (loopStart source) := by
  intro n spaced
  unfold loopStart
  rw [Node.is_uncommented]
  split
  · exact declaration_expression_steady source n spaced
  · exact expression_steady n spaced

theorem for_loop_steady : Steady (forLoop source) := by
  intro n spaced
  refine (all_alike spaced (loop_start_steady source) .init).next fun init => ?_
  refine (get_alike spaced expression_steady .condition).next fun condition => ?_
  refine (all_alike spaced expression_steady .update).next fun update => ?_
  exact (field_statement_alike source spaced .body).next fun body => .done rfl

theorem for_each_steady : Steady (forEach source) := by
  intro n spaced
  refine (field_compact_alike spaced .type).next fun type => ?_
  refine (field_text_alike spaced .name).next fun name => ?_
  refine (field_expression_alike spaced .value).next fun iterable => ?_
  refine (field_statement_alike source spaced .body).next fun body => .done ?_
  rw [modifiers_uncommented spaced, span_uncommented]

theorem resource_steady : Steady (resource source) := by
  intro n spaced
  unfold resource
  rw [Node.get_uncommented spaced.tidy]
  cases n.get? .type with
  | none => exact first_alike source spaced "resource" |>.bind fun _ _ => below_expression
  | some type =>
      simp only [Option.map_some, compact_uncommented, span_uncommented,
        modifiers_uncommented spaced]
      exact (declarator_steady source _ n spaced).next fun declared => .done rfl

theorem handler_steady : Steady (handler source) := by
  intro n spaced
  unfold handler
  rw [Node.of_kind_uncommented n .catchFormalParameter (by decide) (by decide)]
  refine (require_alike source n "parameter" _ (spaced.ofKind .catchFormalParameter)).bind ?_
  rintro parameter _ ⟨given, rfl⟩
  refine (field_text_alike given .name).next fun name => ?_
  refine (field_alike spaced .body).bind ?_
  rintro body _ ⟨inner, rfl⟩
  refine (block_steady source body inner).next fun lowered => .done ?_
  rw [modifiers_uncommented given, span_uncommented, span_uncommented,
    Node.of_kind_uncommented parameter .catchType (by decide) (by decide), parts_of_uncommented,
    compacts_uncommented]

theorem attempt_part_steady (found : List Handler × Option Block) :
    Steady (attemptPart source found) := by
  intro n spaced
  unfold attemptPart
  rw [Node.is_uncommented, Node.is_uncommented]
  split
  · exact (handler_steady source n spaced).mapped fun _ => rfl
  · split
    · exact (of_kind_alike spaced (block_steady source) .block (by decide) (by decide)).mapped
        fun _ => rfl
    · exact .done rfl

theorem resources_alike {n : Node} (spaced : n.Spaced) :
    Alike Eq
      ((((n.get? .resources).elim [] Node.parts).filter (·.is .resource)).mapM (resource source))
      ((((n.uncommented.get? .resources).elim [] Node.parts).filter (·.is .resource)).mapM
        (resource source)) := by
  rw [Node.get_uncommented spaced.tidy, parts_of_uncommented, List.filter_map]
  simp only [Function.comp_def, Node.is_uncommented]
  refine .mapM _ fun part member => resource_steady source part ?_
  have inside := (List.mem_filter.mp member).1
  cases found : n.get? .resources with
  | none => simp [found] at inside
  | some list =>
      rw [found] at inside
      exact (spaced.get .resources list found).parts part inside

theorem attempt_steady : Steady (attempt source) := by
  intro n spaced
  refine (resources_alike source spaced).next fun resources => ?_
  refine (field_alike spaced .body).bind ?_
  rintro body _ ⟨inner, rfl⟩
  refine (block_steady source body inner).next fun lowered => ?_
  rw [Node.parts_uncommented]
  refine Alike.next (.foldlM _ (fun found part member => ?_) _) fun found => .done rfl
  exact attempt_part_steady source found part (spaced.parts part member)

theorem labeled_steady : Steady (labeled source) := by
  intro n spaced
  unfold labeled
  rw [Node.parts_uncommented, ← List.map_tail, List.getLast?_map, List.head?_map]
  refine (require_alike source n "statement" _ fun part found => ?_).bind ?_
  · exact spaced.parts part (List.mem_of_mem_tail (List.mem_of_getLast? found))
  · rintro body _ ⟨inner, rfl⟩
    refine (statement_steady body inner).mapped fun statement => ?_
    cases n.parts.head? <;> simp

theorem asserts_steady : Steady (asserts source) := by
  intro n spaced
  refine (first_alike source spaced "condition").bind ?_
  rintro check _ ⟨inner, rfl⟩
  rw [Node.parts_uncommented, ← List.map_tail, List.head?_map]
  refine Alike.next (.optional _ fun message found => ?_) fun message => ?_
  · have among := List.mem_of_mem_tail (List.mem_of_head? found)
    exact expression_steady message (spaced.parts message among)
  · exact (expression_steady check inner).next fun condition => .done rfl

theorem synchronized_block_steady : Steady (synchronizedBlock source) := by
  intro n spaced
  unfold synchronizedBlock
  rw [Node.of_kind_uncommented n .parenthesizedExpression (by decide) (by decide)]
  refine (require_alike source n "lock" _ (spaced.ofKind .parenthesizedExpression)).bind ?_
  rintro lock _ ⟨guard, rfl⟩
  refine (field_alike spaced .body).bind ?_
  rintro body _ ⟨inner, rfl⟩
  refine (expression_steady lock guard).next fun value => ?_
  exact (block_steady source body inner).next fun lowered => .done rfl

theorem constructor_call_steady : Steady (constructorCall source) := by
  intro n spaced
  refine (field_text_alike spaced .constructor).next fun target => ?_
  refine (get_alike spaced expression_steady .object).next fun qualifier => ?_
  exact (arguments_steady n spaced).next fun values => .done rfl

theorem jump_label_uncommented (n : Node) : jumpLabel source n.uncommented = jumpLabel source n := by
  unfold jumpLabel
  rw [Node.of_kind_uncommented n .identifier (by decide) (by decide)]
  cases n.ofKind? .identifier <;> simp

theorem other_statement_steady : Steady otherStatement := by
  intro n spaced
  unfold otherStatement
  rw [type_kind_uncommented, Node.kind_uncommented]
  split
  · exact (below_type _ ⟨spaced, rfl⟩).mapped fun _ => rfl
  · exact .done rfl

theorem statement_kind_steady : Steady (statementKind source) := by
  intro n spaced
  have value (f : Field) : Alike Eq (fieldExpression source n f)
      (fieldExpression source n.uncommented f) := field_expression_alike spaced f
  have part := field_statement_alike source spaced
  unfold statementKind
  rw [Node.kind_uncommented]
  split
  · exact .done rfl
  · split
    · exact (first_part_alike spaced).mapped fun _ => rfl
    · exact (declaration_expression_steady source n spaced).mapped fun _ => rfl
    · exact (value .condition).next fun condition => (part .consequence).next fun yes =>
        (get_alike spaced statement_steady .alternative).next fun no => .done rfl
    · exact (value .condition).next fun condition => (part .body).next fun body => .done rfl
    · exact (part .body).next fun body => (value .condition).next fun condition => .done rfl
    · exact for_loop_steady source n spaced
    · exact for_each_steady source n spaced
    · exact (block_steady source n spaced).mapped fun _ => rfl
    · exact (first_part_alike spaced).mapped fun _ => rfl
    · exact (switch_block_steady source n spaced).mapped fun _ => rfl
    · exact synchronized_block_steady source n spaced
    · exact (attempt_steady source n spaced).mapped fun _ => rfl
    · exact (attempt_steady source n spaced).mapped fun _ => rfl
    · exact (first_expression_steady source n spaced).mapped fun _ => rfl
    · exact (first_expression_steady source n spaced).mapped fun _ => rfl
    · rw [jump_label_uncommented]
      exact .done rfl
    · rw [jump_label_uncommented]
      exact .done rfl
    · exact labeled_steady source n spaced
    · exact asserts_steady source n spaced
    · exact (constructor_call_steady source n spaced).mapped fun _ => rfl
    · exact other_statement_steady n spaced

end

theorem levels_unmoved (source : Source) (left : Nat) : Unmoved (levels source left) := by
  induction left with
  | zero => exact ⟨fun _ _ => rfl, fun _ _ => rfl, fun _ _ _ => rfl⟩
  | succ left ih =>
      constructor
      · intro n spaced
        refine Alike.run ?_ ih
        refine (expression_kind_steady source n spaced).mapped fun kind => ?_
        rw [span_uncommented]
      · intro n spaced
        refine Alike.run ?_ ih
        refine (statement_kind_steady source n spaced).mapped fun kind => ?_
        rw [span_uncommented]
      · intro n kind spaced
        exact (type_declaration_steady source kind n spaced).run ih

theorem dotted_name_uncommented (n : Node) :
    dottedName? n.uncommented = (dottedName? n).map Node.uncommented := by
  unfold dottedName?
  rw [Node.parts_uncommented, List.find?_map]
  simp only [Function.comp_def, Node.is_uncommented]

theorem package_uncommented (source : Source) (n : Node) :
    packageDeclaration? source n.uncommented = packageDeclaration? source n := by
  unfold packageDeclaration?
  rw [Node.is_uncommented, dotted_name_uncommented, span_uncommented]
  cases dottedName? n <;> simp

theorem import_uncommented (source : Source) (n : Node) :
    importDeclaration? source n.uncommented = importDeclaration? source n := by
  have word : n.uncommented.children.any (fun child => child.kind == .token "static") =
      n.children.any fun child => child.kind == .token "static" := by
    simp only [← List.isSome_find?]
    rw [Node.find_uncommented]
    · simp
    · simp
    · intro child _ comment
      rcases Node.comment_kind comment with kind | kind <;> simp [kind]
  unfold importDeclaration?
  rw [Node.is_uncommented, dotted_name_uncommented, span_uncommented, word,
    Node.of_kind_uncommented n .asterisk (by decide) (by decide)]
  cases dottedName? n <;> simp

theorem top_type_steady : Steady topType := by
  intro n spaced
  unfold topType
  rw [type_kind_uncommented]
  split
  · exact (below_type _ ⟨spaced, rfl⟩).mapped fun _ => rfl
  · exact .done rfl

theorem outline_alike (source : Source) (root : Node) (spaced : ∀ child ∈ root.children, child.Spaced) :
    Alike Eq (outline source root) (outline source root.uncommented) := by
  unfold outline
  simp only [Node.parts_uncommented, span_uncommented, List.findSome?_map, List.filterMap_map,
    Function.comp_def, package_uncommented, import_uncommented]
  refine Alike.next (.mapM _ fun part member => ?_) fun types => .done rfl
  exact top_type_steady part (spaced part (List.mem_filter.mp member).1)

theorem unit_uncommented (chars : List Char) (limit : Nat) (root : Node)
    (spaced : ∀ child ∈ root.children, child.Spaced) : unit chars limit root.uncommented = unit chars limit root :=
  ((outline_alike ⟨chars⟩ root spaced).run (levels_unmoved ⟨chars⟩ limit)).symm

end JavaOutline.Lower

namespace JavaOutline

open JavaOutline.Tree

/-- Comments may stand anywhere below a node but first and last, and at the top anywhere. Trees of
texts are like that. -/
theorem comments_never_matter (chars : List Char) (limit : Nat) (root : Node) :
    ((∀ child ∈ root.children, child.Spaced) →
      Lower.unit chars limit root.uncommented = Lower.unit chars limit root) ∧
    (Grammar.tree? chars = some root → ∀ child ∈ root.children, child.Spaced) :=
  ⟨Lower.unit_uncommented chars limit root, Grammar.tree_spaced chars root⟩

set_option maxRecDepth 100000 in
/-- Comments at the top, between the parts of a call and behind an update. -/
theorem commented_call_lowered :
    ∃ root, Grammar.tree? "/*a*/class T{int m(){return f(/*b*/x++/*c*/);}}//d".toList = some root ∧
      root.children.length = 3 ∧ root.uncommented.children.length = 1 ∧
      Lower.unit "/*a*/class T{int m(){return f(/*b*/x++/*c*/);}}//d".toList 8 root.uncommented =
        Lower.unit "/*a*/class T{int m(){return f(/*b*/x++/*c*/);}}//d".toList 8 root := by
  have read : ((Grammar.tree?
      "/*a*/class T{int m(){return f(/*b*/x++/*c*/);}}//d".toList).any fun root =>
        root.children.length == 3 && root.uncommented.children.length == 1) = true := by
    decide +kernel
  obtain ⟨root, found, counts⟩ := (Option.any_eq_true _ _).mp read
  simp only [Bool.and_eq_true, beq_iff_eq] at counts
  have law := comments_never_matter "/*a*/class T{int m(){return f(/*b*/x++/*c*/);}}//d".toList 8 root
  exact ⟨root, found, counts.1, counts.2, law.1 (law.2 found)⟩

end JavaOutline
