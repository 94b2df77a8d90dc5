import JavaOutline.Proofs.Lower.Echo
import JavaOutline.Proofs.Outline.Members

/-!
The outlines of declarations echo them: variables, methods, members and types.
-/
namespace JavaOutline.Lower

open JavaOutline.Tree
open JavaOutline.Grammar
open JavaOutline.Walk

variable {source : Source} {root : Node} {given : Subject → Prop} {n : Node} {r : Rule}

theorem block_echo (stands : Stands source root given n) (kind : n.kind = .rule r)
    (among : r ∈ [Rule.block, .constructorBody]) :
    Yields (echoing source root) (fun b => Echoes source root given [.block b] [n])
      (block source n) := by
  have checked : ∀ r ∈ [Rule.block, .constructorBody],
      Stands.covers r [.named] = true ∧ hasSorts (layouts r) .named stated = true := by decide
  obtain ⟨covered, sorted⟩ := checked r among
  have list : statementTraits r = [.of stated.rules] := by
    simp only [List.mem_cons, List.not_mem_nil, or_false] at among
    rcases among with rfl | rfl <;> rfl
  -- A block is told apart from what surrounds it, so only what is below itself may be left out.
  have own : Stands source root (fun subject => source.Exposed subject n) n :=
    ⟨stands.toSits, stands.laid, fun _ exposed => exposed⟩
  have told : picked n .named = n.statements := by
    rw [picked_statements kind list]
    refine named_stated n.solid fun m member named => ?_
    exact picked_sorted (own.goes kind) .named stated sorted m (List.mem_filter.mpr ⟨member, named⟩)
  unfold block
  rw [parts_picked]
  refine (picked_statements_echo own (own.goes kind) .named sorted).bind fun statements inner => ?_
  have whole := own.made_of_told kind [.named] inner (.of_eq told) covered
  refine Yields.ok _ ((Echoes.block stands.has ?_ rfl whole).weaken stands.exposed)
  simpa [Node.is, kind] using among

def blocks : Sorts := ⟨[.block, .constructorBody], some []⟩

theorem block_sort_echo (stands : Stands source root given n)
    (sort : blocks.admits n.kind = true) :
    Yields (echoing source root) (fun b => Echoes source root given [.block b] [n])
      (block source n) := by
  obtain ⟨_, among, kind⟩ := of_rules sort
  exact block_echo stands kind among

theorem arguments_echo {alternatives : List Layout} (stands : Stands source root given n)
    (goes : Goes alternatives n)
    (found : single alternatives (.under .arguments) (onlyRule .argumentList) = true) :
    Yields (echoing source root)
      (fun es => Echoes source root given (es.map Visit.expression) (picked n (.under .arguments)))
      (arguments n) := by
  unfold arguments
  rcases list_cases stands goes .arguments .argumentList found with
    ⟨absent, none⟩ | ⟨list, present, only, inside, kind⟩
  · rw [absent, none]
    exact Yields.ok [] Echoes.nil
  · rw [present, only]
    have asked := picked_expressions_echo inside (inside.goes kind) .named (by decide)
    have whole := asked.mono fun values echoes => inside.made_of kind [.named] echoes (by decide)
    rwa [← parts_picked] at whole

theorem declarator_value_echo {alternatives : List Layout} (base : String)
    (stands : Stands source root given n) (goes : Goes alternatives n)
    (named : sole alternatives (.under .name) anySort = true)
    (valued : single alternatives (.under .value) voiced = true) :
    Yields (echoing source root)
      (fun d => Echoes source root given d.parts (picked n (.under .value)))
      (declarator source base n) := by
  refine (field_text_echo stands goes .name _ named).bind fun name _ => ?_
  refine (optional_expression_echo stands goes .value valued).bind fun value inner => ?_
  exact Yields.ok _ inner

theorem declarator_echo (base : String) (stands : Stands source root given n)
    (kind : n.kind = .rule .variableDeclarator) :
    Yields (echoing source root) (fun d => Echoes source root given d.parts [n])
      (declarator source base n) :=
  (declarator_value_echo base stands (stands.goes kind) (by decide) (by decide)).mono
    fun _ inner => stands.made_of kind [.under .value] inner (by decide)

def declarationRules : List Rule :=
  [.localVariableDeclaration, .fieldDeclaration, .constantDeclaration]

theorem declaration_checked : ∀ r ∈ declarationRules,
    sole (layouts r) (.under .type) anySort = true ∧
      hasSorts (layouts r) (.under .declarator) (onlyRule .variableDeclarator) = true ∧
      Stands.serves r [.under .declarator] = true := by
  decide

def declaredEnd (n : Node) : Nat :=
  ((picked n (.under .declarator)).getLast?.map Node.stop).getD n.stop

theorem declared_echo (stands : Stands source root given n) (kind : n.kind = .rule r)
    (among : r ∈ declarationRules) :
    Yields (echoing source root)
      (fun d => d.span = Span.ofRange source.chars n.start (declaredEnd n) ∧
        Echoes source root given (Visit.declaration d).parts (picked n (.under .declarator)))
      (variableDeclaration source n) := by
  obtain ⟨typed, sorted, _⟩ := declaration_checked r among
  have goes := stands.goes kind
  refine (field_text_echo stands goes .type _ typed).bind fun base _ => ?_
  dsimp only
  rw [all_picked stands.own]
  refine (map_echo Echoes.joins (picked n (.under .declarator)) fun m member =>
    declarator_echo base (stands.picked member)
      (only_rule _ _ (picked_sorted goes _ _ sorted m member))).bind fun declared inner => ?_
  exact Yields.ok _ ⟨rfl, inner⟩

theorem variable_declaration_echo (stands : Stands source root given n) (kind : n.kind = .rule r)
    (among : r ∈ declarationRules) :
    Yields (echoing source root) (fun d => Echoes source root given [.declaration d] [n])
      (variableDeclaration source n) := by
  refine (declared_echo stands kind among).mono fun d ⟨_, inner⟩ => ?_
  refine Echoes.whole ⟨⟨rfl, rfl⟩, rfl⟩ (by rintro _ ⟨⟩) rfl ?_
  exact stands.made_of kind [.under .declarator] inner (declaration_checked r among).2.2

/-- The expression ends before the semicolon, with the last of the variables. -/
theorem declaration_expression_echo (stands : Stands source root given n)
    (kind : n.kind = .rule .localVariableDeclaration) :
    Yields (echoing source root) (fun e => Echoes source root given [.expression e] [n])
      (declarationExpression source n) := by
  have among : Rule.localVariableDeclaration ∈ declarationRules := by decide
  refine (declared_echo stands kind among).bind fun declaration ⟨span, inner⟩ => ?_
  have whole : Echoes source root given [.declaration declaration] [n] :=
    Echoes.whole ⟨⟨rfl, rfl⟩, rfl⟩ (by rintro _ ⟨⟩) rfl
      (stands.made_of kind [.under .declarator] inner (declaration_checked _ among).2.2)
  refine Yields.ok _ (Echoes.framed (by rintro _ ⟨⟩) (Echoes.Unmarked.nothing ⟨⟨rfl, rfl⟩, rfl⟩)
    whole fun low high lies => ?_)
  have own := stands.firm.here
  obtain ⟨filled, ends, room⟩ := (own.ordered.sublist List.filter_sublist).trim own.filled
  have parts := Echoes.free_nests rfl inner n.start _ room
  refine .bounded rfl ?_ ?_ ?_ (.nil ?_)
  all_goals simp only [span, Span.ofRange]
  · exact lies.1
  · exact filled
  · exact parts
  · exact Nat.le_trans ends lies.2.2

theorem method_echo (stands : Stands source root given n) (kind : n.kind = .rule r)
    (among : r ∈ [Rule.methodDeclaration, .annotationTypeElementDeclaration,
      .constructorDeclaration, .compactConstructorDeclaration]) :
    Yields (echoing source root) (fun m => Echoes source root given [.method m] [n])
      (method source n) := by
  have checked : ∀ r ∈ [Rule.methodDeclaration, .annotationTypeElementDeclaration,
      .constructorDeclaration, .compactConstructorDeclaration],
      sole (layouts r) (.under .name) anySort = true ∧
        single (layouts r) (.under .body) blocks = true ∧
        (r ∈ [Rule.methodDeclaration, .annotationTypeElementDeclaration] →
          sole (layouts r) (.under .type) anySort = true) ∧
        Stands.undone r = true ∧
        (r ∈ Source.veiled ∨ Stands.serves r [.under .body] = true) := by
    decide
  obtain ⟨named, bodied, typed, plain, covered⟩ := checked r among
  have goes := stands.goes kind
  have body := optional_field_echo stands goes Echoes.joins .body blocks bodied
    fun _ => block_sort_echo
  have whole (m : MethodDeclaration) (span : m.span = source.span n)
      (inner : Echoes source root given (Visit.method m).parts (picked n (.under .body))) :
      Echoes source root given [.method m] [n] := by
    refine Echoes.bounded ⟨⟨rfl, rfl⟩, rfl⟩ (by rintro _ ⟨⟩) (congrArg some span) ?_
    rcases covered with veiled | covered
    · refine stands.vain kind plain (fun subject holds => (stands.exposed subject holds).veils ?_)
        inner
      simpa [Node.is, kind] using veiled
    · exact stands.made_of kind [.under .body] inner covered
  refine (field_text_echo stands goes .name _ named).bind fun name _ => ?_
  dsimp only
  split
  · rename_i returns
    have typed := typed (by simpa [Node.is, kind] using returns)
    refine (field_text_echo stands goes .type _ typed).bind fun returnType _ => ?_
    exact body.bind fun body inner => Yields.ok _ (whole _ rfl inner)
  · exact body.bind fun body inner => Yields.ok _ (whole _ rfl inner)

theorem declared_type (kind : n.kind = .rule r) (among : r ∈ declaredTypes) :
    ∃ sort, typeKind? n = some sort := by
  simp only [declaredTypes, List.mem_cons, List.not_mem_nil, or_false] at among
  rcases among with rfl | rfl | rfl | rfl | rfl <;> simp [typeKind?, kind]

theorem type_declared (sort : TypeKind) (declares : typeKind? n = some sort) :
    ∃ r ∈ declaredTypes, n.kind = .rule r := by
  unfold typeKind? at declares
  split at declares
  case h_6 => cases declares
  all_goals
    refine ⟨_, ?_, ‹_›⟩
    decide

def bodied : Sorts := ⟨memberRules ++ [.enumConstant, .enumBodyDeclarations], none⟩

theorem member_echo {α : Type} {plan : Plan α} {visit : α → Visit} {nodes : List Node}
    (member : α → Member) (own : ∀ value, (member value).parts = [visit value])
    (inner : Yields (echoing source root)
      (fun value => Echoes source root given [visit value] nodes) plan) :
    Yields (echoing source root)
      (fun found => Echoes source root given (found.toList.flatMap Member.parts) nodes)
      (plan.map fun value => some (member value)) := by
  refine Yields.map _ (inner.mono fun value echoes => ?_)
  simpa [own] using echoes

theorem plain_member_echo (stands : Stands source root given n)
    (sort : bodied.admits n.kind = true)
    (plain : n.kind ≠ .rule .enumConstant ∧ n.kind ≠ .rule .enumBodyDeclarations) :
    Yields (echoing source root)
      (fun found => Echoes source root given (found.toList.flatMap Member.parts) [n])
      (plainMember source n) := by
  unfold plainMember
  split
  case h_1 kind => exact member_echo .method (fun _ => rfl) (method_echo stands kind (by simp))
  case h_2 kind => exact member_echo .method (fun _ => rfl) (method_echo stands kind (by simp))
  case h_3 kind => exact member_echo .constructor (fun _ => rfl) (method_echo stands kind (by simp))
  case h_4 kind => exact member_echo .constructor (fun _ => rfl) (method_echo stands kind (by simp))
  case h_5 kind =>
    exact member_echo .field (fun _ => rfl) (variable_declaration_echo stands kind (by decide))
  case h_6 kind =>
    exact member_echo .field (fun _ => rfl) (variable_declaration_echo stands kind (by decide))
  case h_7 kind =>
    have inner := optional_picked_echo stands (stands.goes kind) Echoes.joins (.of [.block])
      (onlyRule .block) (by decide) fun _ inside sort =>
        block_echo inside (only_rule _ _ sort) (by simp)
    rw [← of_kind_picked n .block (by decide)] at inner
    refine Yields.map _ (inner.mono fun found echoes => ?_)
    have whole := stands.made_of kind [.of [.block]] echoes (by decide)
    cases found <;> exact whole
  case h_8 kind => exact member_echo .initializer (fun _ => rfl) (block_echo stands kind (by simp))
  case h_9 =>
    split
    · exact member_echo .type (fun _ => rfl) (type_echo stands _ ‹_›)
    · rename_i undeclared
      refine Yields.ok none (stands.mute ?_)
      cases kind : n.kind with
      | token text => rfl
      | rule r =>
          have apart : r ∉ declaredTypes := fun inside => by
            obtain ⟨_, same⟩ := declared_type kind inside
            simp [same] at undeclared
          simp only [bodied, Sorts.admits, memberRules, kind, List.contains_iff_mem] at sort
          simp_all

def bodyRules : List Rule :=
  [.classBody, .interfaceBody, .annotationTypeBody, .enumBody, .enumBodyDeclarations]

theorem body_checked : ∀ r ∈ bodyRules,
    allSorts (layouts r) bodied = true ∧ Stands.bare r = true := by
  decide

theorem body_children (stands : Stands source root given n) (kind : n.kind = .rule r)
    (among : r ∈ bodyRules) :
    ∀ m ∈ n.solid, Stands source root given m ∧ bodied.admits m.kind = true := by
  intro m member
  exact ⟨stands.child member,
    solid_sorted (stands.goes kind) bodied (body_checked r among).1 m member⟩

theorem body_of_members_echo {nodes : List Node} (found : List Member)
    (inner : Echoes source root given (found.flatMap Member.parts) nodes) :
    Echoes source root given [.classBody (ClassBody.ofMembers found)] nodes := by
  refine Echoes.whole ⟨⟨rfl, rfl⟩, rfl⟩ (by rintro _ ⟨⟩) rfl ?_
  rwa [Visit.parts, ClassBody.members_replay]

-- Constants have bodies with members again, on the same level: the recursion is on the nodes.
mutual

theorem members_echo (nodes : List Node)
    (each : ∀ m ∈ nodes.filter fun m => !m.isComment,
      Stands source root given m ∧ bodied.admits m.kind = true) :
    Yields (echoing source root)
      (fun found => Echoes source root given (found.flatMap Member.parts)
        (nodes.filter fun m => !m.isComment))
      (members source nodes) := by
  match nodes with
  | [] =>
      rw [members]
      exact Yields.ok [] Echoes.nil
  | .mk kind label start stop children :: rest =>
      by_cases comment : (Node.mk kind label start stop children).isComment = true
      · rw [List.filter_cons_of_neg (by simp [comment])] at each ⊢
        rw [members_comment source _ rest comment]
        exact members_echo rest each
      · rw [List.filter_cons_of_pos (by simp [comment])] at each ⊢
        rw [members]
        obtain ⟨⟨stands, sort⟩, others⟩ := List.forall_mem_cons.mp each
        have joined (own : List Member)
            (first : Echoes source root given (own.flatMap Member.parts)
              [.mk kind label start stop children]) :
            Yields (echoing source root)
              (fun found => Echoes source root given (found.flatMap Member.parts)
                (.mk kind label start stop children :: rest.filter fun m => !m.isComment))
              (members source rest >>= fun others => pure (own ++ others)) := by
          refine (members_echo rest others).bind fun found behind => Yields.ok _ ?_
          rw [List.flatMap_append]
          exact first.append behind
        by_cases declarations : kind = .rule .enumBodyDeclarations
        · rw [if_pos (by simpa using declarations)]
          refine Yields.bind ?_ joined
          refine (members_echo children ?_).mono fun found inner => ?_
          · exact body_children stands declarations (by decide)
          · have whole : (Node.mk kind label start stop children).kind =
                .rule .enumBodyDeclarations := declarations
            exact stands.around whole inner (by decide)
        · rw [if_neg (by simpa using declarations)]
          by_cases constant : kind = .rule .enumConstant
          · rw [if_pos (by simpa using constant)]
            have goes := stands.goes constant
            have few : hasFew (layouts .enumConstant) (.under .body) = true := by decide
            have sorted : hasSorts (layouts .enumConstant) (.under .body) (onlyRule .classBody) =
              true := by decide
            refine (field_text_echo stands goes .name _ (by decide)).bind fun name _ => ?_
            refine (arguments_echo stands goes (by decide)).bind fun values passed => ?_
            refine (constant_body_echo children fun m member labelled => ?_).bind
              fun body inner => ?_
            · have found : m ∈ picked (.mk kind label start stop children) (.under .body) := by
                rw [← all_picked stands.own]
                exact List.mem_filter.mpr ⟨member, by simp [labelled]⟩
              exact ⟨stands.picked found, only_rule _ _ (picked_sorted goes _ _ sorted m found)⟩
            · refine joined _ (stands.made_of constant [.under .arguments, .under .body]
                ?_ (by decide))
              have all := head_all goes (.under .body) few
              rw [← get_picked stands.own] at all
              simp only [picks]
              rw [← all, List.flatMap_singleton]
              exact passed.append inner
          · rw [if_neg (by simpa using constant)]
            exact (Yields.map _ (plain_member_echo stands sort ⟨constant, declarations⟩)).bind
              joined

theorem constant_body_echo (nodes : List Node)
    (each : ∀ m ∈ nodes, m.label = some .body →
      Stands source root given m ∧ m.kind = .rule .classBody) :
    Yields (echoing source root)
      (fun found => Echoes source root given (found.toList.map Visit.classBody)
        (nodes.find? fun m => m.label == some .body).toList)
      (constantBody source nodes) := by
  match nodes with
  | [] =>
      rw [constantBody]
      exact Yields.ok none Echoes.nil
  | .mk kind label start stop children :: rest =>
      rw [constantBody]
      obtain ⟨own, others⟩ := List.forall_mem_cons.mp each
      by_cases labelled : label = some .body
      · rw [if_pos (by simpa using labelled),
          List.find?_cons_of_pos (by simp [Node.label, labelled])]
        obtain ⟨stands, body⟩ := own labelled
        refine Yields.map _ ((members_echo children ?_).mono fun found inner => ?_)
        · exact body_children stands body (by decide)
        · exact body_of_members_echo found (stands.around body inner (by decide))
      · rw [if_neg (by simpa using labelled),
          List.find?_cons_of_neg (by simp [Node.label, labelled])]
        exact constant_body_echo rest others

end

theorem class_body_echo (stands : Stands source root given n) (kind : n.kind = .rule r)
    (among : r ∈ bodyRules) :
    Yields (echoing source root) (fun b => Echoes source root given [.classBody b] [n])
      (classBody source n) := by
  refine Yields.map _ ((members_echo n.children (body_children stands kind among)).mono
    fun found inner => body_of_members_echo found ?_)
  exact stands.around kind inner (body_checked r among).2

theorem body_sort_echo (stands : Stands source root given n)
    (sort : Sorts.admits ⟨bodyRules, some []⟩ n.kind = true) :
    Yields (echoing source root) (fun b => Echoes source root given [.classBody b] [n])
      (classBody source n) := by
  obtain ⟨_, among, kind⟩ := of_rules sort
  exact class_body_echo stands kind among

theorem type_declaration_echo (stands : Stands source root given n) (sort : TypeKind)
    (declares : typeKind? n = some sort) :
    Yields (echoing source root) (fun t => Echoes source root given [.type t] [n])
      (typeDeclaration source n sort) := by
  have checked : ∀ r ∈ declaredTypes,
      sole (layouts r) (.under .name) anySort = true ∧
        single (layouts r) (.under .body) ⟨bodyRules, some []⟩ = true ∧
        Stands.serves r [.under .body] = true := by
    decide
  obtain ⟨r, among, kind⟩ := type_declared sort declares
  obtain ⟨named, bodied, covered⟩ := checked r among
  have goes := stands.goes kind
  refine (field_text_echo stands goes .name _ named).bind fun name _ => ?_
  refine (optional_field_echo stands goes Echoes.joins .body _ bodied
    fun _ => body_sort_echo).bind fun body inner => ?_
  refine Yields.ok _ (Echoes.bounded ⟨⟨rfl, rfl⟩, rfl⟩ (by rintro _ ⟨⟩) rfl ?_)
  refine stands.made_of kind [.under .body] ?_ covered
  cases body with
  | some body => exact inner
  | none => exact Echoes.whole ⟨⟨rfl, rfl⟩, rfl⟩ (by rintro _ ⟨⟩) rfl inner

end JavaOutline.Lower
