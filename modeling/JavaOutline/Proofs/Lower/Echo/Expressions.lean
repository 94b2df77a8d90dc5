import JavaOutline.Proofs.Lower.Echo.Declarations

/-!
The outlines of switches and expressions echo them.
-/
namespace JavaOutline.Lower

open JavaOutline.Tree
open JavaOutline.Grammar
open JavaOutline.Walk

variable {source : Source} {root : Node} {given : Subject → Prop} {n : Node} {r : Rule}

theorem switch_label_echo (stands : Stands source root given n)
    (kind : n.kind = .rule .switchLabel) :
    Yields (echoing source root) (fun label => Echoes source root given label.parts [n])
      (switchLabel n) := by
  have sorted : hasSorts (layouts .switchLabel) .named
      ⟨.pattern :: voiced.rules, some []⟩ = true := by decide
  have covered : Stands.serves .switchLabel [.named] = true := by decide
  have goes := stands.goes kind
  unfold switchLabel
  rw [parts_picked]
  split
  · rename_i empty
    refine Yields.ok _ (stands.made_of kind [.named] ?_ covered)
    simp only [picks, List.isEmpty_iff.mp empty]
    exact Echoes.nil
  · -- A pattern is taken for an expression; it holds nothing.
    have fair (m : Node) (member : m ∈ picked n .named) (subject : Subject)
        (holds : given subject) : voiced.admits m.kind = true ∨ m.Hushed subject := by
      obtain ⟨own, among, same⟩ := of_rules (picked_sorted goes .named _ sorted m member)
      rcases List.mem_cons.mp among with rfl | spoken
      · refine Or.inr ((stands.exposed subject holds).shown ?_ (mem_picked member).1 ?_)
        · simp [Node.is, kind]
        · simp [Node.is, same]
      · rw [same]
        exact Or.inl (List.contains_iff_mem.mpr spoken)
    have asked := each_echo Echoes.joins (picked n .named) fun m member =>
      expression_echo (stands.picked member) (fair m member)
    exact Yields.map _ (asked.mono fun values inner => stands.made_of kind [.named] inner covered)

def entryParts (found : List SwitchLabel × List Statement) : List Visit :=
  found.1.flatMap SwitchLabel.parts ++ found.2.map Visit.statement

theorem switch_part_echo (found : List SwitchLabel × List Statement) (done told : List Node)
    (stands : Stands source root given n) (sort : stated.admits n.kind = true)
    (before : Echoes source root given (entryParts found) done told) :
    Yields (echoing source root)
      (fun next => Echoes source root given (entryParts next) (done ++ [n]) (told ++ [n]))
      (switchPart found n) := by
  have other : ¬ n.is .switchLabel = true := by
    intro label
    have kind : n.kind = .rule .switchLabel := by simpa [Node.is] using label
    rw [kind] at sort
    cases sort
  unfold switchPart
  rw [if_neg other]
  refine Yields.map _ ((statement_echo stands sort).mono fun value own => ?_)
  simpa [entryParts] using before.append own

theorem entry_picked (kind : n.kind = .rule r) (goes : Goes (layouts r) n)
    (among : r ∈ [Rule.switchRule, .switchBlockStatementGroup]) :
    ∃ label, picked n .named = label :: n.statements ∧ label.kind = .rule .switchLabel ∧
      ∀ m ∈ n.statements, stated.admits m.kind = true := by
  have parted (layout : Layout) (list : statementTraits r = [.of stated.rules])
      (sorted : hasSorts [layout] .named stated = true)
      (accepts : Accepts (.one (only [.switchLabel]) :: layout) n.solid) :
      ∃ label, picked n .named = label :: n.statements ∧ label.kind = .rule .switchLabel ∧
        ∀ m ∈ n.statements, stated.admits m.kind = true := by
    obtain ⟨label, others, solid, admits, behind⟩ := accepts
    have own : label.kind = .rule .switchLabel := only_rule _ _ (Slot.admits_split admits).2.1
    have sorts : ∀ m ∈ others, m.isNamed = true → stated.admits m.kind = true := by
      intro m inside fits
      obtain ⟨slot, stands, admitted⟩ := accepts_slots layout others behind m inside
      have checked := List.all_eq_true.mp (List.all_eq_true.mp sorted layout
        List.mem_cons_self) slot stands
      have may : slot.may .named = true := Slot.may_sound fits admitted
      rw [may, Bool.not_true, Bool.false_or] at checked
      exact Sorts.admits_mono checked m.kind (Slot.admits_split admitted).2.1
    have apart : ¬ Trait.fits (.of stated.rules) label = true := by
      rw [Trait.fits_rule own]
      decide
    have statements : n.statements = others.filter (Trait.fits .named) := by
      rw [picked_statements kind list, picked, solid, List.filter_cons_of_neg apart,
        named_stated others sorts]
    refine ⟨label, ?_, own, fun m member => ?_⟩
    · rw [picked, solid, statements,
        List.filter_cons_of_pos (by simp [Trait.fits, Node.isNamed, own])]
    · rw [statements] at member
      obtain ⟨inside, fits⟩ := List.mem_filter.mp member
      exact sorts m inside fits
  obtain ⟨layout, member, accepts⟩ := goes
  simp only [List.mem_cons, List.not_mem_nil, or_false] at among
  rcases among with rfl | rfl
  · rw [List.mem_singleton.mp member] at accepts
    exact parted _ rfl (by decide) accepts
  · rw [List.mem_singleton.mp member] at accepts
    exact parted _ rfl (by decide) accepts

theorem switch_entry_echo (stands : Stands source root given n) (kind : n.kind = .rule r)
    (among : r ∈ [Rule.switchRule, .switchBlockStatementGroup]) :
    Yields (echoing source root)
      (fun found => Echoes source root given (found.toList.flatMap SwitchEntry.parts) [n])
      (switchEntry source n) := by
  have checked : ∀ r ∈ [Rule.switchRule, .switchBlockStatementGroup],
      Stands.covers r [.named] = true := by decide
  have entry : (n.is .switchRule || n.is .switchBlockStatementGroup) = true := by
    simpa [Node.is, kind] using among
  obtain ⟨label, parts, labelled, sorts⟩ := entry_picked kind (stands.goes kind) among
  have inside (m : Node) (member : m ∈ label :: n.statements) : Stands source root given m :=
    stands.picked (by rwa [parts])
  unfold switchEntry
  rw [if_pos entry, parts_picked, parts, List.foldlM_cons, switchPart,
    if_pos (by simp [Node.is, labelled])]
  have first : Yields (echoing source root)
      (fun found => Echoes source root given (entryParts found) [label])
      ((switchLabel label).map fun own => (([] : List SwitchLabel) ++ [own], [])) := by
    have starts := switch_label_echo (inside label List.mem_cons_self) labelled
    exact Yields.map _ (starts.mono fun own inner => by simpa [entryParts] using inner)
  have folded := first.bind fun found before =>
    fold_echo n.statements (fun found m done told member before =>
      switch_part_echo found done told (inside m (List.mem_cons_of_mem _ member)) (sorts m member)
        before) found [label] [] before
  refine folded.bind fun found inner => ?_
  refine Yields.ok _ (stands.made_of_told kind [.named] ?_ (List.Perm.refl _) (checked r among))
  simpa [SwitchEntry.parts, entryParts, picks, parts] using inner

theorem switch_block_echo (stands : Stands source root given n)
    (kind : n.kind = .rule .switchExpression) :
    Yields (echoing source root) (fun b => Echoes source root given [.switch b] [n])
      (switchBlock source n) := by
  have goes := stands.goes kind
  refine (field_expression_echo stands goes .condition (by decide)).bind fun selector chosen => ?_
  refine (field_echo stands goes .body (onlyRule .switchBlock) (by decide)).bind
    fun body ⟨only, inside, sort⟩ => ?_
  have block := only_rule _ _ sort
  have sorted : hasSorts (layouts .switchBlock) .named
      ⟨[.switchRule, .switchBlockStatementGroup], some []⟩ = true := by decide
  rw [parts_picked]
  have entries := map_echo Echoes.joins (picked body .named) fun m member => by
    obtain ⟨own, among, kind⟩ :=
      of_rules (picked_sorted (inside.goes block) .named _ sorted m member)
    exact switch_entry_echo (inside.picked member) kind among
  refine entries.bind fun entries inner => ?_
  have whole := inside.made_of block [.named] inner (by decide)
  refine Yields.ok _ (Echoes.whole ⟨⟨rfl, rfl⟩, rfl⟩ (by rintro _ ⟨⟩) rfl ?_)
  refine stands.made_of kind [.under .condition, .under .body] ?_ (by decide)
  simp only [picks, only, Visit.parts, List.filterMap_eq_flatMap_toList, List.flatMap_assoc, id]
  exact chosen.cons whole

theorem method_call_echo (stands : Stands source root given n)
    (kind : n.kind = .rule .methodInvocation) :
    Yields (echoing source root) (fun c => Echoes source root given [.call c] [n])
      (methodCall source n) := by
  have goes := stands.goes kind
  refine (optional_expression_echo stands goes .object (by decide)).bind fun scope on => ?_
  refine (field_text_echo stands goes .name _ (by decide)).bind fun name _ => ?_
  refine (arguments_echo stands goes (by decide)).bind fun arguments passed => ?_
  refine Yields.ok _ (stands.deed kind (by rintro _ ⟨⟩) rfl ?_ ?_ (by decide))
  · rintro ((_ | _) | _) <;>
      simp [Subject.span?, Deed.span?, Subject.marks, Deed.rule, Visit.call?, Visit.assignment?,
        Visit.statement?, Node.is, kind]
  · exact stands.children goes [.under .object, .under .arguments] (on.append passed) (by decide)

theorem assignment_echo (target value : Expression) (operator : String)
    (stands : Stands source root given n) (kind : n.kind = .rule .assignmentExpression)
    (inner : Echoes source root given [.expression target, .expression value]
      (picks n [.under .left, .under .right])) :
    Echoes source root given [.assign ⟨target, operator, value, source.span n⟩] [n] := by
  refine stands.deed kind (by rintro _ ⟨⟩) rfl ?_ ?_ (by decide)
  · rintro ((_ | _) | _) <;>
      simp [Subject.span?, Deed.span?, Subject.marks, Deed.rule, Visit.call?, Visit.assignment?,
        Visit.statement?, Node.is, kind]
  · exact stands.children (stands.goes kind) [.under .left, .under .right] inner (by decide)

theorem update_echo (stands : Stands source root given n)
    (kind : n.kind = .rule .updateExpression) :
    Yields (echoing source root) (fun found => Echoes source root given found.parts [n])
      (update source n) := by
  refine (part_echo stands (stands.goes kind) _ (by decide)).bind
    fun operand ⟨only, inside, sort⟩ => ?_
  refine (expression_echo inside fun _ _ => Or.inl sort).bind fun value inner => ?_
  refine Yields.ok _ (stands.made_of kind [.named] ?_ (by decide))
  rw [picks, only]
  exact inner

/-- What is passed over anyway does not end the run. -/
theorem take_while_filter {α : Type} (ends keeps counts : α → Bool) (items : List α)
    (passed : ∀ item ∈ items, counts item = false → ends item = true) :
    (items.takeWhile ends).filter (fun item => keeps item && counts item) =
      ((items.filter counts).takeWhile ends).filter keeps := by
  induction items with
  | nil => rfl
  | cons item rest ih =>
      obtain ⟨own, others⟩ := List.forall_mem_cons.mp passed
      by_cases counted : counts item = true
      · by_cases stop : ends item = true
        · simp [counted, stop, List.filter_cons, ih others]
        · simp [counted, stop]
      · have skipped : counts item = false := by simpa using counted
        simp [skipped, own skipped, ih others]

/-- What stands before the word `new` is the only expression among the children. -/
theorem owner_picked (stands : Stands source root given n)
    (kind : n.kind = .rule .objectCreationExpression) :
    ((n.children.takeWhile fun child => child.kind != .token "new").filter fun child =>
      child.isNamed && !child.isComment).getLast?.toList = picked n (.of expressionRules) := by
  obtain ⟨layout, member, accepts⟩ := stands.goes kind
  rw [List.mem_singleton.mp member] at accepts
  obtain ⟨owner, behind, front, admitted, dot, further, next, dotted, word, others, last, new,
    inner⟩ := accepts
  have bare (m : Node) (text : String) (same : m.kind = .token text) :
      m.isNamed = false ∧ Trait.fits (.of expressionRules) m = false := by
    simp [Node.isNamed, Trait.fits, Node.is, same]
  have newWord := word_kind "new" word new
  have dots : ∀ m ∈ dot.toList, m.kind = .token "." := fun m inside =>
    word_kind "." m (dotted m (by simpa using inside))
  have owners : ∀ m ∈ owner.toList, m.isNamed = true ∧ (m.kind != .token "new") = true ∧
      Trait.fits (.of expressionRules) m = true := by
    intro m inside
    have admits := admitted m (by simpa using inside)
    have fits := Slot.must_sound
      (by decide : (plain expressions).must (.of expressionRules) = true) admits
    obtain ⟨r, _, same⟩ := of_rules (Slot.admits_split admits).2.1
    exact ⟨by simp [Node.isNamed, same], by simp [same], fits⟩
  have none : others.filter (Trait.fits (.of expressionRules)) = [] := by
    have bound := most_sound _ (.of expressionRules) others 0 (by decide) inner
    exact List.eq_nil_of_length_eq_zero (by omega)
  have comments : ∀ child ∈ n.children, (!child.isComment) = false →
      (child.kind != .token "new") = true := by
    intro child _ comment
    cases same : child.kind with
    | rule r => rfl
    | token text => simp [Node.isComment, Node.is, same] at comment
  rw [take_while_filter (fun child : Node => child.kind != .token "new") Node.isNamed
    (fun child => !child.isComment) n.children comments, picked, ← Node.solid, front, next, last]
  -- Before the word `new` stand the owner, if there is one, and a dot.
  have found : (owner.toList ++ (dot.toList ++ word :: others)).filter
      (Trait.fits (.of expressionRules)) = owner.toList := by
    have own : owner.toList.filter (Trait.fits (.of expressionRules)) = owner.toList :=
      List.filter_eq_self.mpr fun m inside => (owners m inside).2.2
    have dotless : dot.toList.filter (Trait.fits (.of expressionRules)) = [] :=
      List.filter_eq_nil_iff.mpr fun m inside => by simp [(bare m _ (dots m inside)).2]
    rw [List.filter_append, List.filter_append, own, dotless,
      List.filter_cons_of_neg (by simp [(bare word _ newWord).2]), none]
    simp
  have passed : ((owner.toList ++ (dot.toList ++ word :: others)).takeWhile fun child =>
      child.kind != .token "new").filter Node.isNamed = owner.toList := by
    have own : owner.toList.filter Node.isNamed = owner.toList :=
      List.filter_eq_self.mpr fun m inside => (owners m inside).1
    have dotless : dot.toList.filter Node.isNamed = [] :=
      List.filter_eq_nil_iff.mpr fun m inside => by simp [(bare m _ (dots m inside)).1]
    rw [List.takeWhile_append_of_pos fun m inside => (owners m inside).2.1,
      List.takeWhile_append_of_pos fun m inside => by simp [dots m inside],
      List.takeWhile_cons_of_neg (by simp [newWord]), List.append_nil, List.filter_append, own,
      dotless, List.append_nil]
  rw [found, passed]
  cases owner <;> rfl

theorem object_creation_echo (stands : Stands source root given n)
    (kind : n.kind = .rule .objectCreationExpression) :
    Yields (echoing source root) (fun made => Echoes source root given made.parts [n])
      (objectCreation source n) := by
  have goes := stands.goes kind
  have sorted : hasSorts (layouts .objectCreationExpression) (.of expressionRules) voiced =
    true := by decide
  have owner : Yields (echoing source root)
      (fun found => Echoes source root given (found.toList.map Visit.expression)
        (picked n (.of expressionRules)))
      (optional Below.expression ((n.children.takeWhile fun child =>
        child.kind != .token "new").filter fun child =>
          child.isNamed && !child.isComment).getLast?) := by
    have same := owner_picked stands kind
    rw [← same]
    refine optional_echo Echoes.joins _ fun m member => ?_
    have inside : m ∈ picked n (.of expressionRules) := by
      rw [← same]
      simpa using member
    exact expression_echo (stands.picked inside)
      fun _ _ => Or.inl (picked_sorted goes _ _ sorted m inside)
  have body := optional_picked_echo stands goes Echoes.joins (.of [.classBody])
    (onlyRule .classBody) (by decide)
    fun _ inside sort => class_body_echo inside (only_rule _ _ sort) (by decide)
  rw [← of_kind_picked n .classBody (by decide)] at body
  refine owner.bind fun scope before => ?_
  refine (field_text_echo stands goes .type _ (by decide)).bind fun type _ => ?_
  refine (arguments_echo stands goes (by decide)).bind fun arguments passed => ?_
  refine body.bind fun body inner => ?_
  refine Yields.ok _ (stands.made_of kind
    [.of expressionRules, .under .arguments, .of [.classBody]] ?_ (by decide))
  rw [ObjectCreation.parts, List.append_assoc]
  exact before.append (passed.append inner)

/-- Without annotations before it, the size is the only named part. -/
theorem size_picked (stands : Stands source root given n)
    (kind : n.kind = .rule .dimensionsExpr)
    (plain : ∀ child ∈ n.children, child.annotates = false) :
    picked n .named = picked n (.of expressionRules) := by
  have sorted : allSorts (layouts .dimensionsExpr) ⟨annotationRules ++ expressionRules, none⟩ =
    true := by decide
  refine List.filter_congr fun child inside => ?_
  have sort := solid_sorted (stands.goes kind) _ sorted child inside
  have bare := plain child (List.mem_of_mem_filter inside)
  cases same : child.kind with
  | token text => simp [Trait.fits, Node.isNamed, Node.is, same]
  | rule r =>
      have among : r ∈ expressionRules := by
        simp only [Sorts.admits, same, List.contains_iff_mem, List.mem_append] at sort
        refine sort.resolve_left fun annotating => ?_
        simp [annotationRules, Node.annotates, Node.is, same] at annotating bare
        simp_all
      simp [Trait.fits, Node.isNamed, Node.is, same, among]

theorem size_echo (stands : Stands source root given n)
    (kind : n.kind = .rule .dimensionsExpr) :
    ∃ m, n.parts.head? = some m ∧ Yields (echoing source root)
      (fun e => Echoes source root given [.expression e] [n]) (Below.expression m) := by
  have goes := stands.goes kind
  obtain ⟨m, rest, first⟩ := picked_some goes .named (by decide)
  have member : m ∈ picked n .named := by simp [first]
  refine ⟨m, by rw [parts_picked, first, List.head?_cons], ?_⟩
  by_cases plain : ∀ child ∈ n.children, child.annotates = false
  · obtain ⟨size, only, _, sort⟩ := sole_child stands goes (.of expressionRules) voiced
      (by decide)
    have alike := first.symm.trans ((size_picked stands kind plain).trans only)
    cases alike
    refine (expression_echo (stands.picked member) fun _ _ => Or.inl sort).mono fun e inner => ?_
    refine stands.made_of kind [.of expressionRules] ?_ (by decide)
    rwa [picks, only]
  · -- The first part is an annotation, but there is nothing below the size either.
    simp only [not_forall, Bool.not_eq_false] at plain
    obtain ⟨child, inside, annotating⟩ := plain
    have hushed (subject : Subject) (holds : given subject) : n.Hushed subject :=
      (stands.exposed subject holds).sizes (by simp [Node.is, kind])
        (List.any_eq_true.mpr ⟨child, inside, annotating⟩)
    have below : n.Has m := .deeper (mem_picked member).1 (.self m)
    have among : [m].Sublist n.solid := List.singleton_sublist.mpr (List.mem_of_mem_filter member)
    refine (expression_echo (stands.picked member) fun subject holds =>
      Or.inr ((hushed subject holds).below below)).mono fun e inner =>
        inner.moved (fun subject holds => ?_) (stands.inside among)
    simp [source.hushed_sounds n (hushed subject holds),
      source.hushed_sounds m ((hushed subject holds).below below)]

theorem sizes_echo (sizes : List Node)
    (each : ∀ d ∈ sizes, Stands source root given d ∧ d.kind = .rule .dimensionsExpr) :
    Yields (echoing source root)
      (fun found => Echoes source root given (found.map Visit.expression) sizes)
      ((sizes.filterMap fun d => d.parts.head?).mapM Below.expression) := by
  induction sizes with
  | nil => exact Yields.ok [] Echoes.nil
  | cons d rest ih =>
      obtain ⟨⟨stands, kind⟩, others⟩ := List.forall_mem_cons.mp each
      obtain ⟨m, first, asked⟩ := size_echo stands kind
      simp only [List.filterMap_cons, first, List.mapM_cons]
      refine asked.bind fun value own => ?_
      refine (ih others).bind fun values behind => ?_
      exact Yields.ok _ (own.cons behind)

theorem array_creation_echo (stands : Stands source root given n)
    (kind : n.kind = .rule .arrayCreationExpression) :
    Yields (echoing source root) (fun found => Echoes source root given found.parts [n])
      (arrayCreation source n) := by
  have goes := stands.goes kind
  have same : n.parts.filter (·.is .dimensionsExpr) = picked n (.of [.dimensionsExpr]) := by
    rw [parts_picked, picked, picked, List.filter_filter]
    refine List.filter_congr fun child _ => ?_
    by_cases own : child.kind = .rule .dimensionsExpr
    · simp [Trait.fits, Node.is, Node.isNamed, own]
    · simp [Trait.fits, Node.is, own]
  have sizes := sizes_echo (picked n (.of [.dimensionsExpr])) fun d member => by
    refine ⟨stands.picked member, ?_⟩
    simpa [Trait.fits, Node.is] using (mem_picked member).2
  refine (field_text_echo stands goes .type _ (by decide)).bind fun type _ => ?_
  dsimp only
  rw [same]
  refine sizes.bind fun dimensions given => ?_
  refine (optional_expression_echo stands goes .value (by decide)).bind fun initializer inner => ?_
  exact Yields.ok _ (stands.made_of kind [.of [.dimensionsExpr], .under .value]
    (given.append inner) (by decide))

theorem lambda_echo (stands : Stands source root given n)
    (kind : n.kind = .rule .lambdaExpression) :
    Yields (echoing source root) (fun found => Echoes source root given found.parts [n])
      (lambda source n) := by
  have goes := stands.goes kind
  refine (field_echo stands goes .parameters anySort (by decide)).bind fun parameters _ => ?_
  refine (field_echo stands goes .body ⟨expressionRules ++ [.block], some []⟩ (by decide)).bind
    fun body ⟨only, inside, sort⟩ => ?_
  have whole (lowered : LambdaBody)
      (inner : Echoes source root given [lowered.part] [body]) :
      Yields (echoing source root) (fun found => Echoes source root given found.parts [n])
        (pure (ExpressionKind.lambda (lambdaNames source parameters) lowered)) := by
    refine Yields.ok _ (stands.made_of kind [.under .body] ?_ (by decide))
    rwa [picks, only]
  obtain ⟨r, among, own⟩ := of_rules sort
  dsimp only
  split
  · rename_i block
    have isBlock : body.kind = .rule .block := by simpa [Node.is] using block
    refine Yields.bind ?_ whole
    exact Yields.map _ (block_echo inside isBlock (by simp))
  · rename_i other
    have spoken : r ∈ expressionRules := by
      refine (List.mem_append.mp among).resolve_right fun block => other ?_
      rw [List.mem_singleton.mp block] at own
      simp [Node.is, own]
    refine Yields.bind ?_ whole
    refine Yields.map _ (expression_echo inside fun _ _ => Or.inl ?_)
    rw [own]
    exact List.contains_iff_mem.mpr (List.mem_append_left _ spoken)

theorem method_reference_echo (stands : Stands source root given n)
    (kind : n.kind = .rule .methodReference) :
    Yields (echoing source root) (fun found => Echoes source root given found.parts [n])
      (methodReference source n) := by
  obtain ⟨layout, member, accepts⟩ := stands.goes kind
  rw [List.mem_singleton.mp member] at accepts
  obtain ⟨scope, others, solid, admits, behind⟩ := accepts
  obtain ⟨r, among, own⟩ := of_rules (Slot.admits_split admits).2.1
  have inside : scope ∈ n.solid := by simp [solid]
  have first : n.parts.head? = some scope := by
    rw [parts_picked, picked, solid,
      List.filter_cons_of_pos (by simp [Trait.fits, Node.isNamed, own])]
    rfl
  -- Behind the scope there are type arguments and a name at most.
  have mute : ∀ m ∈ others, Source.mute m.kind = true := by
    intro m member
    obtain ⟨slot, stands, admits⟩ := accepts_slots _ others behind m member
    have sort := (Slot.admits_split admits).2.1
    have sorted : ∀ slot ∈ slotsOf [marks, .maybe (only [.typeArguments]), marks,
        .maybe (only [.identifier])], slot.sorts.below ⟨Source.muteRules, none⟩ = true := by
      decide
    have quiet := Sorts.admits_mono (sorted slot stands) m.kind sort
    cases same : m.kind with
    | token text => rfl
    | rule r =>
        rw [same] at quiet
        exact quiet
  have fair (subject : Subject) (holds : given subject) :
      voiced.admits scope.kind = true ∨ scope.Hushed subject := by
    rcases List.mem_append.mp among with spoken | type
    · rw [own]
      exact Or.inl (List.contains_iff_mem.mpr (List.mem_append_left _ spoken))
    · refine Or.inr ((stands.exposed subject holds).shown (by simp [Node.is, kind])
        (List.mem_of_mem_filter inside) ?_)
      simp [Node.is, own, type]
  unfold methodReference
  rw [first]
  refine Yields.bind (Yields.ok scope rfl) fun found same => ?_
  cases same
  refine (expression_echo (stands.child inside) fair).bind fun value inner => ?_
  refine Yields.ok _ (stands.around kind (inner.moved (fun subject _ => ?_) fun low high lies =>
    lies.sublist (List.singleton_sublist.mpr inside)) (by decide))
  have none : others.flatMap (source.sounds subject) = [] := by
    refine List.flatMap_eq_nil_iff.mpr fun m member => ?_
    have below := stands.child (show m ∈ n.solid by simp [solid, member])
    exact source.mute_sounds m (below.laid.below below.has) (mute m member)
  rw [solid]
  simp [none]

theorem literal_echo (stands : Stands source root given n) (kind : n.kind = .rule r)
    (literal : isLiteral r = true) : Echoes source root given [] [n] := by
  have checked : ∀ r, isLiteral r = true → r ∈ Source.muteRules ∨ r ∈ Source.veiled := by
    intro r literal
    have among := List.contains_iff_mem.mp literal
    clear literal
    revert r
    decide
  rcases checked r literal with quiet | veil
  · refine stands.mute ?_
    rw [kind]
    exact List.contains_iff_mem.mpr quiet
  · exact Stands.silent fun subject holds =>
      (stands.exposed subject holds).veils (by simpa [Node.is, kind] using veil)

/-- Nodes of no particular rule are voiced if and only if they are guards or templates. -/
theorem other_expression_echo (stands : Stands source root given n)
    (fair : ∀ subject, given subject →
      (n.kind = .rule .guard ∨ n.kind = .rule .templateExpression) ∨
      n.Hushed subject) :
    Yields (echoing source root) (fun found => Echoes source root given found.parts [n])
      (otherExpression n) := by
  have checked : ∀ r ∈ [Rule.guard, .templateExpression],
      hasSorts (layouts r) .named voiced = true ∧ Stands.serves r [.named] = true := by decide
  unfold otherExpression
  rw [parts_picked]
  by_cases spoken : ∃ r ∈ [Rule.guard, .templateExpression], n.kind = .rule r
  · obtain ⟨r, among, kind⟩ := spoken
    obtain ⟨sorted, covered⟩ := checked r among
    exact Yields.map _ ((picked_expressions_echo stands (stands.goes kind) .named sorted).mono
      fun values inner => stands.made_of kind [.named] inner covered)
  · have hushed (subject : Subject) (holds : given subject) : n.Hushed subject := by
      refine (fair subject holds).resolve_left fun kinds => spoken ?_
      rcases kinds with kind | kind
      · exact ⟨_, by simp, kind⟩
      · exact ⟨_, by simp, kind⟩
    have below (m : Node) (member : m ∈ picked n .named) (subject : Subject)
        (holds : given subject) :
        m.Hushed subject :=
      (hushed subject holds).below (.deeper (mem_picked member).1 (.self m))
    have asked := each_echo Echoes.joins (picked n .named) fun m member =>
      expression_echo (stands.picked member) fun subject holds =>
        Or.inr (below m member subject holds)
    refine Yields.map _ (asked.mono fun values inner =>
      inner.moved (fun subject holds => ?_) (stands.inside List.filter_sublist))
    have none : (picked n .named).flatMap (source.sounds subject) = [] :=
      List.flatMap_eq_nil_iff.mpr fun m member =>
        source.hushed_sounds m (below m member subject holds)
    simp [none, source.hushed_sounds n (hushed subject holds)]

theorem expression_kind_echo (laid : WellLaid root) (sits : Sits root n) :
    Yields (echoing source root)
      (fun found =>
        Echoes source root (fun subject => Fair source subject (.expression n)) found.parts [n])
      (expressionKind source n) := by
  have stands : Stands source root (fun subject => Fair source subject (.expression n)) n :=
    ⟨sits, laid, fun _ fair => fair.1⟩
  have leaf (r : Rule) (kind : n.kind = .rule r) (quiet : r ∈ Source.muteRules) :
      Echoes source root (fun subject => Fair source subject (.expression n)) [] [n] := by
    refine stands.mute ?_
    rw [kind]
    exact List.contains_iff_mem.mpr quiet
  dsimp only [expressionKind]
  split
  case h_1 text token =>
    refine other_expression_echo stands fun _ fair => Or.inr ?_
    refine fair.2.resolve_left fun spoken => ?_
    rw [token] at spoken
    cases spoken
  case h_2 r kind =>
    split
    · exact Yields.ok _ (literal_echo stands kind ‹_›)
    · have goes := stands.goes kind
      -- The cases are the rules in the order in which they are matched.
      split
      · exact Yields.ok _ (leaf _ kind (by decide))
      · exact Yields.ok _ (leaf _ kind (by decide))
      · exact Yields.ok _ (leaf _ kind (by decide))
      · exact Yields.map _ (method_call_echo stands kind)
      · refine (field_text_echo stands goes .operator _ (by decide)).bind fun operator _ => ?_
        refine (field_expression_echo stands goes .left (by decide)).bind fun target onLeft => ?_
        refine (field_expression_echo stands goes .right (by decide)).bind fun value onRight => ?_
        exact Yields.ok _ (assignment_echo target value operator stands kind (onLeft.cons onRight))
      · refine (field_text_echo stands goes .operator _ (by decide)).bind fun operator _ => ?_
        refine (field_expression_echo stands goes .left (by decide)).bind fun left onLeft => ?_
        refine (field_expression_echo stands goes .right (by decide)).bind fun right onRight => ?_
        exact Yields.ok _ (stands.made_of kind [.under .left, .under .right]
          (onLeft.cons onRight) (by decide))
      · refine (field_text_echo stands goes .operator _ (by decide)).bind fun operator _ => ?_
        refine (field_expression_echo stands goes .operand (by decide)).bind fun operand inner => ?_
        exact Yields.ok _ (stands.made_of kind [.under .operand] inner (by decide))
      · exact update_echo stands kind
      · refine (part_echo stands goes _ (by decide)).bind fun m ⟨only, inside, sort⟩ => ?_
        refine Yields.map _ ((expression_echo inside fun _ _ => Or.inl sort).mono
          fun e inner => stands.made_of kind [.named] ?_ (by decide))
        rwa [picks, only]
      · refine (field_text_echo stands goes .field _ (by decide)).bind fun field _ => ?_
        refine (field_expression_echo stands goes .object (by decide)).bind fun scope inner => ?_
        exact Yields.ok _ (stands.made_of kind [.under .object] inner (by decide))
      · refine (field_expression_echo stands goes .array (by decide)).bind fun array onLeft => ?_
        refine (field_expression_echo stands goes .index (by decide)).bind fun index onRight => ?_
        exact Yields.ok _ (stands.made_of kind [.under .array, .under .index]
          (onLeft.cons onRight) (by decide))
      · exact Yields.map _ (object_creation_echo stands kind)
      · exact array_creation_echo stands kind
      · rw [parts_picked]
        exact Yields.map _ ((picked_expressions_echo stands goes .named (by decide)).mono
          fun values inner => stands.made_of kind [.named] inner (by decide))
      · refine (field_expression_echo stands goes .value (by decide)).bind fun value inner => ?_
        exact Yields.ok _ (stands.made_of kind [.under .value] inner (by decide))
      · refine (field_expression_echo stands goes .condition (by decide)).bind
          fun condition chosen => ?_
        refine (field_expression_echo stands goes .consequence (by decide)).bind fun yes onYes => ?_
        refine (field_expression_echo stands goes .alternative (by decide)).bind fun no onNo => ?_
        exact Yields.ok _ (stands.made_of kind [.under .condition, .under .consequence,
          .under .alternative] (chosen.cons (onYes.cons onNo)) (by decide))
      · refine (field_expression_echo stands goes .left (by decide)).bind fun value inner => ?_
        exact Yields.ok _ (stands.made_of kind [.under .left] inner (by decide))
      · exact lambda_echo stands kind
      · exact method_reference_echo stands kind
      · exact Yields.map _ (switch_block_echo stands kind)
      · exact Yields.ok _ (leaf _ kind (by decide))
      · refine other_expression_echo stands fun _ fair => fair.2.imp_left fun spoken => ?_
        have among : r ∈ voiced.rules := by
          rw [kind] at spoken
          exact List.contains_iff_mem.mp spoken
        have checked : ∀ r ∈ voiced.rules, isLiteral r = true ∨ r ∈ [Rule.identifier, .thisWord,
            .superWord, .classLiteral, .methodInvocation, .assignmentExpression, .binaryExpression,
            .unaryExpression, .updateExpression, .parenthesizedExpression, .fieldAccess,
            .arrayAccess, .objectCreationExpression, .arrayCreationExpression, .arrayInitializer,
            .castExpression, .ternaryExpression, .instanceofExpression, .lambdaExpression,
            .methodReference, .switchExpression] ∨ r = .guard ∨ r = .templateExpression := by
          decide
        rcases checked r among with literal | matched | rfl | rfl
        · contradiction
        · simp only [List.mem_cons, List.not_mem_nil, or_false] at matched
          simp_all
        · exact Or.inl kind
        · exact Or.inr kind

end JavaOutline.Lower
