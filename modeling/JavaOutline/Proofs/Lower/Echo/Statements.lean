import JavaOutline.Proofs.Lower.Echo.Expressions

/-!
The outlines of statements echo them. The one statement without an outline is a label before a
lone semicolon.
-/
namespace JavaOutline.Lower

open JavaOutline.Tree
open JavaOutline.Grammar
open JavaOutline.Walk

variable {source : Source} {root : Node} {given : Subject → Prop} {n : Node} {r : Rule}

theorem first_expression_echo (stands : Stands source root given n) (kind : n.kind = .rule r)
    (among : r ∈ [Rule.throwStatement, .yieldStatement]) :
    Yields (echoing source root) (fun e => Echoes source root given [.expression e] [n])
      (firstExpression source n) := by
  have checked : ∀ r ∈ [Rule.throwStatement, .yieldStatement],
      sole (layouts r) .named voiced = true ∧ Stands.serves r [.named] = true := by decide
  obtain ⟨found, covered⟩ := checked r among
  exact (part_expression_echo stands (stands.goes kind) _ found).mono
    fun e inner => stands.made_of kind [.named] inner covered

theorem field_statement_echo {alternatives : List Layout} (stands : Stands source root given n)
    (goes : Goes alternatives n) (f : Field)
    (found : sole alternatives (.under f) stated = true) :
    Yields (echoing source root)
      (fun s => Echoes source root given [.statement s] (picked n (.under f)) (picked n (.under f)))
      (fieldStatement source n f) := by
  refine (field_echo stands goes f stated found).bind fun m ⟨only, inside, sort⟩ => ?_
  rw [only]
  exact statement_echo inside sort

theorem loop_start_echo (stands : Stands source root given n)
    (sort : Sorts.admits ⟨.localVariableDeclaration :: voiced.rules, some []⟩ n.kind = true) :
    Yields (echoing source root) (fun e => Echoes source root given [.expression e] [n])
      (loopStart source n) := by
  obtain ⟨r, among, kind⟩ := of_rules sort
  unfold loopStart
  split
  · rename_i declaration
    exact declaration_expression_echo stands (by simpa [Node.is] using declaration)
  · rename_i other
    refine expression_echo stands fun _ _ => Or.inl ?_
    rcases List.mem_cons.mp among with rfl | spoken
    · simp [Node.is, kind] at other
    · rw [kind]
      exact List.contains_iff_mem.mpr spoken

theorem for_loop_echo (stands : Stands source root given n) (kind : n.kind = .rule .forStatement) :
    Yields (echoing source root) (fun found => Echoes source root given found.parts [n])
      (forLoop source n) := by
  have goes := stands.goes kind
  have sorted : hasSorts (layouts .forStatement) (.under .init)
    ⟨.localVariableDeclaration :: voiced.rules, some []⟩ = true := by decide
  have starts := each_echo Echoes.joins (picked n (.under .init)) fun m member =>
    loop_start_echo (stands.picked member) (picked_sorted goes _ _ sorted m member)
  have steps := picked_expressions_echo stands goes (.under .update) (by decide)
  rw [← all_picked stands.own] at starts steps
  refine starts.bind fun init first => ?_
  refine (optional_expression_echo stands goes .condition (by decide)).bind
    fun condition chosen => ?_
  refine steps.bind fun update next => ?_
  refine (field_statement_echo stands goes .body (by decide)).bind fun body inner => ?_
  refine Yields.ok _ (stands.made_of_told kind [.under .init, .under .condition, .under .update,
    .under .body] ?_ (.of_eq (picked_statements kind rfl).symm) (by decide))
  rw [all_picked stands.own] at first next
  simp only [StatementKind.parts, List.append_assoc]
  exact first.append (chosen.append (next.append inner))

theorem for_each_echo (stands : Stands source root given n)
    (kind : n.kind = .rule .enhancedForStatement) :
    Yields (echoing source root) (fun found => Echoes source root given found.parts [n])
      (forEach source n) := by
  have goes := stands.goes kind
  refine (field_text_echo stands goes .type _ (by decide)).bind fun type _ => ?_
  refine (field_text_echo stands goes .name _ (by decide)).bind fun name _ => ?_
  refine (field_expression_echo stands goes .value (by decide)).bind fun iterable values => ?_
  refine (field_statement_echo stands goes .body (by decide)).bind fun body inner => ?_
  exact Yields.ok _ (stands.made_of_told kind [.under .value, .under .body] (values.cons inner)
    (.of_eq (picked_statements kind rfl).symm) (by decide))

/-- A declared resource and one that is an expression are told apart by their layouts. -/
theorem resource_echo (stands : Stands source root given n) (kind : n.kind = .rule .resource) :
    Yields (echoing source root) (fun e => Echoes source root given [.expression e] [n])
      (resource source n) := by
  obtain ⟨layout, member, accepts⟩ := stands.goes kind
  rcases List.mem_pair.mp member with rfl | rfl
  · have goes : Goes _ n := ⟨_, List.mem_singleton.mpr rfl, accepts⟩
    obtain ⟨type, only, _, _⟩ := sole_child stands goes (.under .type) anySort (by decide)
    have typed : n.get? .type = some type := by rw [get_picked stands.own, only, List.head?_cons]
    unfold resource
    rw [typed]
    refine (declarator_value_echo _ stands goes (by decide) (by decide)).bind
      fun declared inner => ?_
    have children := stands.children goes [.under .value] inner (by decide)
    have whole := stands.around kind children (by decide)
    refine Yields.ok _ (Echoes.expression (Echoes.whole ⟨⟨rfl, rfl⟩, rfl⟩ (by rintro _ ⟨⟩) rfl ?_))
    simpa [Visit.parts] using whole
  · have goes : Goes _ n := ⟨_, List.mem_singleton.mpr rfl, accepts⟩
    have untyped : n.get? .type = none := by
      obtain ⟨m, _, solid, admits, rfl⟩ := accepts
      have bare : m.label = none := by simpa [plain, Tag.admits] using (Slot.admits_split admits).1
      rw [get_picked stands.own, picked, solid]
      simp [Trait.fits, bare]
    unfold resource
    rw [untyped]
    exact (part_expression_echo stands goes _ (by decide)).mono
      fun e inner => stands.around kind (stands.children goes [.named] inner (by decide))
        (by decide)

theorem resources_echo {alternatives : List Layout} (stands : Stands source root given n)
    (goes : Goes alternatives n)
    (found : single alternatives (.under .resources) (onlyRule .resourceSpecification) = true) :
    Yields (echoing source root)
      (fun es => Echoes source root given (es.map Visit.expression) (picked n (.under .resources)))
      ((((n.get? .resources).elim [] Node.parts).filter (·.is .resource)).mapM
        (resource source)) := by
  rcases list_cases stands goes .resources .resourceSpecification found with
    ⟨absent, empty⟩ | ⟨list, present, only, inside, kind⟩
  · rw [absent, empty]
    exact Yields.ok [] Echoes.nil
  · have each : ∀ m ∈ picked list .named, m.kind = .rule .resource := fun m member =>
      only_rule _ _ (picked_sorted (inside.goes kind) .named _ (by decide) m member)
    have all : (picked list .named).filter (·.is .resource) = picked list .named :=
      List.filter_eq_self.mpr fun m member => by simp [Node.is, each m member]
    rw [present, only, Option.elim_some, parts_picked, all]
    have asked := each_echo Echoes.joins (picked list .named) fun m member =>
      resource_echo (inside.picked member) (each m member)
    exact asked.mono fun values echoes => inside.made_of kind [.named] echoes (by decide)

theorem handler_echo (stands : Stands source root given n) (kind : n.kind = .rule .catchClause) :
    Yields (echoing source root) (fun h => Echoes source root given [.block h.body] [n])
      (handler source n) := by
  have goes := stands.goes kind
  obtain ⟨parameter, only, inside, sort⟩ := sole_child stands goes (.of [.catchFormalParameter])
    (onlyRule .catchFormalParameter) (by decide)
  have found : n.ofKind? .catchFormalParameter = some parameter := by
    rw [of_kind_picked n _ (by decide), only, List.head?_cons]
  unfold handler
  rw [found]
  refine Yields.bind (Yields.ok parameter rfl) fun same equal => ?_
  cases equal
  refine (field_text_echo inside (inside.goes (only_rule _ _ sort)) .name _ (by decide)).bind
    fun name _ => ?_
  refine (field_echo stands goes .body (onlyRule .block) (by decide)).bind
    fun body ⟨alone, below, block⟩ => ?_
  refine (block_echo below (only_rule _ _ block) (by simp)).bind fun lowered inner => ?_
  refine Yields.ok _ (stands.made_of kind [.under .body] ?_ (by decide))
  rwa [picks, alone]

theorem finally_echo (stands : Stands source root given n)
    (kind : n.kind = .rule .finallyClause) :
    Yields (echoing source root)
      (fun b => Echoes source root given (b.toList.map Visit.block) [n])
      (optional (block source) (n.ofKind? .block)) := by
  rw [of_kind_picked n .block (by decide)]
  refine (optional_picked_echo stands (stands.goes kind) Echoes.joins (.of [.block])
    (onlyRule .block) (by decide) fun _ inside sort => block_echo inside (only_rule _ _ sort)
      (by simp)).mono fun b inner => ?_
  exact stands.made_of kind [.of [.block]] inner (by decide)

def rescueParts (found : List Handler × Option Block) : List Visit :=
  found.1.map (fun handler => .block handler.body) ++ found.2.toList.map .block

def rescues (m : Node) : Bool :=
  [Rule.catchClause, .finallyClause].any m.is

theorem attempt_part_echo (found : List Handler × Option Block) (done : List Node)
    (stands : Stands source root given n) (free : rescues n = true → found.2 = none)
    (before : Echoes source root given (rescueParts found) done) :
    Yields (echoing source root)
      (fun next => (n.is .finallyClause = false → next.2 = found.2) ∧
        Echoes source root given (rescueParts next) (done ++ [n].filter rescues))
      (attemptPart source found n) := by
  unfold attemptPart
  split
  · rename_i caught
    have kind : n.kind = .rule .catchClause := by simpa [Node.is] using caught
    have counts : rescues n = true := by simp [rescues, Node.is, kind]
    rw [List.filter_cons_of_pos counts, List.filter_nil]
    refine Yields.map _ ((handler_echo stands kind).mono fun h inner => ⟨fun _ => rfl, ?_⟩)
    have joined := before.append inner
    simp only [rescueParts, free counts] at joined ⊢
    simpa using joined
  · rename_i uncaught
    split
    · rename_i last
      have kind : n.kind = .rule .finallyClause := by simpa [Node.is] using last
      have counts : rescues n = true := by simp [rescues, Node.is, kind]
      rw [List.filter_cons_of_pos counts, List.filter_nil]
      refine Yields.map _ ((finally_echo stands kind).mono fun b inner => ⟨?_, ?_⟩)
      · intro other
        simp [last] at other
      · have joined := before.append inner
        simp only [rescueParts, free counts, Option.or_none] at joined ⊢
        simpa using joined
    · rename_i other
      have skipped : [n].filter rescues = [] := by simp_all [rescues]
      rw [skipped, List.append_nil]
      exact Yields.ok found ⟨fun _ => rfl, before⟩

def LastRescue (nodes : List Node) : Prop :=
  nodes.Pairwise fun first second => first.is .finallyClause = true → rescues second = false

-- While there is more to come that rescues, the last block has not been found.
theorem attempt_parts_echo (nodes : List Node) (stands : ∀ m ∈ nodes, Stands source root given m)
    (ordered : LastRescue nodes) (found : List Handler × Option Block) (done : List Node)
    (free : (∃ m ∈ nodes, rescues m = true) → found.2 = none)
    (before : Echoes source root given (rescueParts found) done) :
    Yields (echoing source root)
      (fun last => Echoes source root given (rescueParts last) (done ++ nodes.filter rescues))
      (nodes.foldlM (attemptPart source) found) := by
  induction nodes generalizing found done with
  | nil =>
      rw [List.filter_nil, List.append_nil]
      exact Yields.ok found before
  | cons m rest ih =>
      obtain ⟨own, others⟩ := List.forall_mem_cons.mp stands
      obtain ⟨first, later⟩ := List.pairwise_cons.mp ordered
      rw [List.foldlM_cons]
      have open' : rescues m = true → found.2 = none := fun counts =>
        free ⟨m, List.mem_cons_self, counts⟩
      refine (attempt_part_echo found done own open' before).bind fun next ⟨kept, inner⟩ => ?_
      have further := ih others later next _ ?_ inner
      · rwa [List.append_assoc, ← List.filter_append, List.singleton_append] at further
      · rintro ⟨other, member, counts⟩
        have early : m.is .finallyClause = false := by
          by_contra last
          have never := first other member (by simpa using last)
          rw [counts] at never
          cases never
        rw [kept early]
        exact free ⟨other, List.mem_cons_of_mem m member, counts⟩

theorem finally_last (goes : Goes (layouts r) n)
    (among : r ∈ [Rule.tryStatement, .tryWithResourcesStatement]) : LastRescue n.solid := by
  have parted (front : Layout) (lacking : lacks front (.of [.finallyClause]) = true)
      (accepts : Accepts (front ++ [.maybe (only [.finallyClause])]) n.solid) :
      LastRescue n.solid := by
    obtain ⟨before, rest, solid, fore, behind⟩ := accepts_split _ _ _ accepts
    obtain ⟨last, _, rfl, _, rfl⟩ := behind
    have early : ∀ m ∈ before, m.is .finallyClause = false := by
      intro m member
      have none := lacks_sound front _ before lacking fore
      simpa [Trait.fits] using List.filter_eq_nil_iff.mp none m member
    rw [LastRescue, solid, List.pairwise_append]
    refine ⟨?_, ?_, fun m member other _ ends => ?_⟩
    · refine List.pairwise_of_forall_mem_list fun m member other _ ends => ?_
      simp [early m member] at ends
    · cases last <;> simp
    · simp [early m member] at ends
  obtain ⟨layout, member, accepts⟩ := goes
  simp only [List.mem_cons, List.not_mem_nil, or_false] at among
  rcases among with rfl | rfl
  · rw [List.mem_singleton.mp member] at accepts
    exact parted [marks, .one (under .body [.block]), .several [only [.catchClause]]] (by decide)
      accepts
  · rw [List.mem_singleton.mp member] at accepts
    exact parted [marks, .one (under .resources [.resourceSpecification]),
      .one (under .body [.block]), .several [only [.catchClause]]] (by decide) accepts

theorem attempt_echo (stands : Stands source root given n) (kind : n.kind = .rule r)
    (among : r ∈ [Rule.tryStatement, .tryWithResourcesStatement]) :
    Yields (echoing source root) (fun tried => Echoes source root given tried.parts [n])
      (attempt source n) := by
  have checked : ∀ r ∈ [Rule.tryStatement, .tryWithResourcesStatement],
      single (layouts r) (.under .resources) (onlyRule .resourceSpecification) = true ∧
        sole (layouts r) (.under .body) (onlyRule .block) = true ∧
        Stands.serves r [.under .resources, .under .body, .of [.catchClause, .finallyClause]] =
          true := by decide
  obtain ⟨resourced, bodied, covered⟩ := checked r among
  have goes := stands.goes kind
  have clauses : n.parts.filter rescues = picked n (.of [.catchClause, .finallyClause]) := by
    rw [parts_picked, picked, List.filter_filter]
    refine List.filter_congr fun m _ => ?_
    show (rescues m && m.isNamed) = rescues m
    by_cases passes : rescues m = true
    · obtain ⟨_, _, own⟩ := List.any_eq_true.mp passes
      simp [passes, Node.isNamed, beq_iff_eq.mp own]
    · simp [passes]
  have ordered : LastRescue n.parts := by
    rw [parts_picked]
    exact (finally_last goes among).sublist List.filter_sublist
  refine (resources_echo stands goes resourced).bind fun resources opened => ?_
  refine (field_echo stands goes .body (onlyRule .block) bodied).bind fun body found => ?_
  obtain ⟨only, inside, block⟩ := found
  refine (block_echo inside (only_rule _ _ block) (by simp)).bind fun lowered inner => ?_
  have within (m : Node) (member : m ∈ n.parts) : Stands source root given m := by
    rw [parts_picked] at member
    exact stands.picked member
  refine (attempt_parts_echo n.parts within ordered ([], none) [] (fun _ => rfl) Echoes.nil).bind
    fun found rescued => ?_
  refine Yields.ok _ (stands.made_of kind [.under .resources, .under .body,
    .of [.catchClause, .finallyClause]] ?_ covered)
  rw [List.nil_append, clauses] at rescued
  simp only [Attempt.parts, picks, only, List.append_assoc, List.cons_append]
  exact opened.append (inner.cons rescued)

theorem labeled_echo (stands : Stands source root given n)
    (kind : n.kind = .rule .labeledStatement) :
    Yields (echoing source root) (fun found => Echoes source root given found.parts [n])
      (labeled source n) := by
  obtain ⟨layout, member, accepts⟩ := stands.goes kind
  rw [List.mem_singleton.mp member] at accepts
  obtain ⟨label, _, solid, labelled, colon, _, rfl, colons, body, _, rfl, bodied, rfl⟩ := accepts
  have labelKind : label.kind = .rule .identifier :=
    only_rule _ _ (Slot.admits_split labelled).2.1
  have colonKind := word_kind ":" colon colons
  have sort := (Slot.admits_split bodied).2.1
  have member : body ∈ n.solid := by simp [solid]
  unfold labeled
  cases own : body.kind with
  | token text =>
      -- The semicolon is no part, so there is nothing behind the label.
      have lone : text = ";" := by simpa [own, Sorts.admits, plain, Grammar.statements] using sort
      have parts : n.parts = [label] := by
        rw [parts_picked, picked, solid]
        simp [Trait.fits, Node.isNamed, labelKind, colonKind, own]
      rw [parts]
      exact ⟨n, stands.has, ⟨by simp [Node.is, kind], body, List.mem_of_mem_filter member,
        by rw [own, lone]⟩, rfl⟩
  | rule r =>
      have among : r ∈ statementRules := by
        simpa [own, Sorts.admits, plain, Grammar.statements] using sort
      have parts : n.parts = [label, body] := by
        rw [parts_picked, picked, solid]
        simp [Trait.fits, Node.isNamed, labelKind, colonKind, own]
      have inside : stated.rules.contains r = true :=
        List.contains_iff_mem.mpr (List.mem_append_left _ among)
      have found : picked n (.of stated.rules) = [body] := by
        have apart : stated.rules.contains .identifier = false := by decide
        rw [picked, solid, List.filter_cons_of_neg (by rw [Trait.fits_rule labelKind, apart]; simp),
          List.filter_cons_of_neg (by rw [Trait.fits_token colonKind]; simp),
          List.filter_cons_of_pos (by rw [Trait.fits_rule own, inside]), List.filter_nil]
      rw [parts]
      refine Yields.bind (Yields.ok body rfl) fun same equal => ?_
      cases equal
      refine Yields.map _ ((statement_echo (stands.child member) ?_).mono fun s inner => ?_)
      · rw [own]
        exact inside
      · have told : [body] = n.statements := by rw [picked_statements kind rfl, found]
        refine stands.made_of_told kind [.of stated.rules] ?_ (.of_eq told) (by decide)
        rwa [picks, found]

theorem asserts_echo (stands : Stands source root given n)
    (kind : n.kind = .rule .assertStatement) :
    Yields (echoing source root) (fun found => Echoes source root given found.parts [n])
      (asserts source n) := by
  have goes := stands.goes kind
  have sorted : hasSorts (layouts .assertStatement) .named voiced = true := by decide
  obtain ⟨check, rest, parts⟩ := picked_some goes .named (by decide)
  have bound : (picked n .named).length ≤ 2 := by
    obtain ⟨layout, member, accepts⟩ := goes
    rw [List.mem_singleton.mp member] at accepts
    exact most_sound _ .named n.solid 2 (by decide) accepts
  have message : rest.head?.toList = rest := by
    rw [parts, List.length_cons] at bound
    match rest, bound with
    | [], _ => rfl
    | [_], _ => rfl
  have asked (m : Node) (member : m ∈ picked n .named) :
      Yields (echoing source root) (fun e => Echoes source root given [.expression e] [m])
        (Below.expression m) :=
    expression_echo (stands.picked member)
      fun _ _ => Or.inl (picked_sorted goes .named _ sorted m member)
  unfold asserts
  rw [parts_picked, parts]
  refine Yields.bind (Yields.ok check rfl) fun same equal => ?_
  cases equal
  have told := optional_echo Echoes.joins rest.head? fun m member =>
    asked m (by rw [parts]; exact List.mem_cons_of_mem _ (List.mem_of_mem_head? member))
  rw [message] at told
  refine told.bind fun message inner => ?_
  refine (asked check (by simp [parts])).bind fun condition first => ?_
  refine Yields.ok _ (stands.made_of kind [.named] ?_ (by decide))
  rw [picks, parts]
  exact first.cons inner

theorem synchronized_block_echo (stands : Stands source root given n)
    (kind : n.kind = .rule .synchronizedStatement) :
    Yields (echoing source root) (fun found => Echoes source root given found.parts [n])
      (synchronizedBlock source n) := by
  have goes := stands.goes kind
  obtain ⟨lock, only, inside, sort⟩ := sole_child stands goes (.of [.parenthesizedExpression])
    voiced (by decide)
  have found : n.ofKind? .parenthesizedExpression = some lock := by
    rw [of_kind_picked n _ (by decide), only, List.head?_cons]
  unfold synchronizedBlock
  rw [found]
  refine Yields.bind (Yields.ok lock rfl) fun same equal => ?_
  cases equal
  refine (field_echo stands goes .body (onlyRule .block) (by decide)).bind
    fun body ⟨alone, below, block⟩ => ?_
  refine (expression_echo inside fun _ _ => Or.inl sort).bind fun value locked => ?_
  refine (block_echo below (only_rule _ _ block) (by simp)).bind fun lowered inner => ?_
  refine Yields.ok _ (stands.made_of kind [.of [.parenthesizedExpression], .under .body]
    ?_ (by decide))
  simp only [picks, only, alone]
  exact locked.cons inner

theorem constructor_call_echo (stands : Stands source root given n)
    (kind : n.kind = .rule .explicitConstructorInvocation) :
    Yields (echoing source root) (fun called => Echoes source root given called.parts [n])
      (constructorCall source n) := by
  have goes := stands.goes kind
  refine (field_text_echo stands goes .constructor _ (by decide)).bind fun target _ => ?_
  refine (optional_expression_echo stands goes .object (by decide)).bind fun qualifier on => ?_
  refine (arguments_echo stands goes (by decide)).bind fun arguments passed => ?_
  exact Yields.ok _ (stands.made_of kind [.under .object, .under .arguments]
    (on.append passed) (by decide))

theorem other_statement_echo (stands : Stands source root given n)
    (quiet : typeKind? n = none → Source.mute n.kind = true) :
    Yields (echoing source root) (fun found => Echoes source root given found.parts [n])
      (otherStatement n) := by
  unfold otherStatement
  split
  · exact Yields.map _ (type_echo stands _ ‹_›)
  · exact Yields.ok _ (stands.mute (quiet ‹_›))

theorem statement_kind_echo (laid : WellLaid root) (sits : Sits root n)
    (sort : stated.admits n.kind = true) :
    Yields (echoing source root)
      (fun found => Echoes source root (fun subject => source.Exposed subject n) found.parts [n])
      (statementKind source n) := by
  have stands : Stands source root (fun subject => source.Exposed subject n) n :=
    ⟨sits, laid, fun _ exposed => exposed⟩
  dsimp only [statementKind]
  split
  case h_1 text token =>
    refine Yields.ok _ ?_
    have quiet := stands.mute (by rw [token]; rfl)
    split <;> exact quiet
  case h_2 r kind =>
    have goes := stands.goes kind
    -- The cases are the rules in the order in which they are matched.
    split
    · refine Yields.map _ ((optional_part_echo stands goes (by decide)).mono fun value inner => ?_)
      have whole := stands.made_of kind [.named] inner (by decide)
      cases value <;> exact whole
    · exact Yields.map _ (declaration_expression_echo stands kind)
    · refine (field_expression_echo stands goes .condition (by decide)).bind
        fun condition chosen => ?_
      refine (field_statement_echo stands goes .consequence (by decide)).bind fun yes onYes => ?_
      refine (optional_field_echo stands goes Echoes.joins_told .alternative stated (by decide)
        fun _ => statement_echo).bind fun no onNo => ?_
      exact Yields.ok _ (stands.made_of_told kind [.under .condition, .under .consequence,
        .under .alternative] (chosen.cons (onYes.append onNo)) (branch_statements kind) (by decide))
    · refine (field_expression_echo stands goes .condition (by decide)).bind
        fun condition chosen => ?_
      refine (field_statement_echo stands goes .body (by decide)).bind fun body inner => ?_
      exact Yields.ok _ (stands.made_of_told kind [.under .condition, .under .body]
        (chosen.cons inner) (.of_eq (picked_statements kind rfl).symm) (by decide))
    · refine (field_statement_echo stands goes .body (by decide)).bind fun body inner => ?_
      refine (field_expression_echo stands goes .condition (by decide)).bind
        fun condition chosen => ?_
      refine Yields.ok _ (stands.made_of_told kind [.under .body, .under .condition]
        (inner.append chosen) (.of_eq ?_) (by decide))
      rw [List.append_nil, picked_statements kind rfl]
    · exact for_loop_echo stands kind
    · exact for_each_echo stands kind
    · exact Yields.map _ (block_echo stands kind (by simp))
    · exact Yields.map _ ((optional_part_echo stands goes (by decide)).mono
        fun value inner => stands.made_of kind [.named] inner (by decide))
    · exact Yields.map _ (switch_block_echo stands kind)
    · exact synchronized_block_echo stands kind
    · exact Yields.map _ (attempt_echo stands kind (by simp))
    · exact Yields.map _ (attempt_echo stands kind (by simp))
    · exact Yields.map _ (first_expression_echo stands kind (by simp))
    · exact Yields.map _ (first_expression_echo stands kind (by simp))
    · exact Yields.ok _ (stands.mute (by rw [kind]; decide))
    · exact Yields.ok _ (stands.mute (by rw [kind]; decide))
    · exact labeled_echo stands kind
    · exact asserts_echo stands kind
    · exact Yields.map _ (constructor_call_echo stands kind)
    · refine other_statement_echo stands fun undeclared => ?_
      have among : r ∈ stated.rules := by
        rw [kind] at sort
        exact List.contains_iff_mem.mp sort
      have checked : ∀ r ∈ stated.rules, r ∈ [Rule.expressionStatement, .localVariableDeclaration,
          .ifStatement, .whileStatement, .doStatement, .forStatement, .enhancedForStatement, .block,
          .returnStatement, .switchExpression, .synchronizedStatement, .tryStatement,
          .tryWithResourcesStatement, .throwStatement, .yieldStatement, .breakStatement,
          .continueStatement, .labeledStatement, .assertStatement,
          .explicitConstructorInvocation] ∨ r ∈ declaredTypes ∨ r ∈ Source.muteRules := by
        decide
      rcases checked r among with matched | declared | quiet
      · simp only [List.mem_cons, List.not_mem_nil, or_false] at matched
        simp_all
      · obtain ⟨_, same⟩ := declared_type kind declared
        simp [same] at undeclared
      · rw [kind]
        exact List.contains_iff_mem.mpr quiet

end JavaOutline.Lower
