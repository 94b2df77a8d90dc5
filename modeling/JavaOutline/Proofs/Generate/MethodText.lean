import JavaOutline.Proofs.Generate.Headings

/-!
Methods without lines in their bodies, from their marks to their outlines. As a member of a class
the marks are read as one method, and as nothing else that a class may hold.
-/
namespace JavaOutline.Generate

open JavaOutline.Grammar
open JavaOutline.Lower
open JavaOutline.Tree

variable {fuel : Nat} {built : List Node} {rest us : List Token} {source : Source}
  {spec : MethodSpec}

structure SymbolMark (text : String) (t : Token) : Prop where
  symbol : t.shape = .symbol
  text : t.text = text

theorem SymbolMark.reads {text : String} {t : Token} (mark : SymbolMark text t)
    (other : text ≠ ">") : Reads fuel (Shape.sym text) built (t :: rest) [bareNode t] rest := by
  obtain ⟨symbol, rfl⟩ := mark
  exact .symbol symbol (by simp) other

theorem SymbolMark.apart {text : String} {t : Token} (mark : SymbolMark text t)
    {symbols : List String} (missing : text ∉ symbols ∧ ">>" ∉ symbols ∧ ">>>" ∉ symbols) :
    Apart t symbols := by
  intro _
  rwa [mark.text]

theorem SymbolMark.wordless {text : String} {t : Token} (mark : SymbolMark text t)
    (words : List String) : t.shape = .word → t.text ∉ words := by
  simp [mark.symbol]

inductive MethodMarks (source : Source) (spec : MethodSpec) : List Token → Prop
  | intro {ms ts ps : List Token} {name o c ob cb : Token}
      (modifiers : ModifiersMarks spec.modifiers ms) (type : TypeMarks source spec.returnType ts)
      (named : WordMark source spec.name name) (opens : SymbolMark "(" o)
      (parameters : ParameterList source spec.parameters ps) (closes : SymbolMark ")" c)
      (begins : SymbolMark openBrace ob) (ends : SymbolMark closeBrace cb) :
      MethodMarks source spec (ms ++ (ts ++ name :: o :: (ps ++ [c, ob, cb])))

/-- Words that name types and start something else in front of a member. -/
def contextualWords : List String :=
  ["record", "sealed"]

structure FitMethod (spec : MethodSpec) : Prop where
  name : isIdentifier spec.name = true
  plain : leadingWord spec.returnType ∉ contextualWords
  parameters : ∀ p ∈ spec.parameters, FitParameter p

/-- A method that was read is the one that was written. -/
structure SameMethod (spec : MethodSpec) (decl : MethodDeclaration) : Prop where
  name : decl.name = spec.name
  modifiers : decl.modifiers = { keywords := spec.modifiers }
  typeParameters : decl.typeParameters = []
  returnType : decl.returnType = some (Text.oneLine spec.returnType)
  parameters : List.Forall₂ SameParameter spec.parameters decl.parameters
  throws : decl.throws = []
  body : ∃ span, decl.body = some ⟨[], span⟩

def emptyBlock (ob cb : Token) : Node :=
  Node.ofRule .block [bareNode ob, bareNode cb]

theorem empty_block_reads {ob cb : Token} (begins : SymbolMark openBrace ob)
    (ends : SymbolMark closeBrace cb) :
    Reads (fuel + 1) (.call .block) built (ob :: cb :: rest) [emptyBlock ob cb] rest :=
  .call (.node (.seq (begins.reads (by decide))
    (.seq (.pick (ends.reads (by decide)) .done) (ends.reads (by decide)))))

def methodParts (type : Node) (name : Token) (parameters : Node) (ob cb : Token) : List Node :=
  [type.labelled .type, (leafNode .identifier name).labelled .name,
    parameters.labelled .parameters, (emptyBlock ob cb).labelled .body]

def methodNode (modifiers : List Node) (type : Node) (name : Token) (parameters : Node)
    (ob cb : Token) : Node :=
  Node.ofRule .methodDeclaration (modifiers ++ methodParts type name parameters ob cb)

theorem Modified.bare {ms : List Modifier} {nodes : List Node} (modified : Modified ms nodes) :
    ∀ n ∈ nodes, n.label = none ∧ n.kind = .rule .modifiers := by
  cases ms with
  | nil =>
      have nothing : nodes = [] := modified
      simp [nothing]
  | cons m ms =>
      obtain ⟨children, rfl, _⟩ := modified
      simp [Node.ofRule, Node.label, Node.kind]

/-- Children without a field are passed over where a field is asked for. -/
theorem get_behind {r : Rule} {front others : List Node} (bare : ∀ n ∈ front, n.label = none)
    (f : Field) :
    (Node.ofRule r (front ++ others)).get? f =
      others.find? fun child => child.label == some f := by
  have nothing : front.find? (fun child => child.label == some f) = none := by
    rw [List.find?_eq_none]
    intro n member
    simp [bare n member]
  rw [Node.get?, Node.ofRule, Node.children, List.find?_append, nothing, Option.none_or]

theorem of_kind_missing {r s : Rule} {children : List Node}
    (kinds : ∀ n ∈ children, n.kind ≠ .rule s) : (Node.ofRule r children).ofKind? s = none := by
  rw [Node.ofKind?, Node.ofRule, Node.children, List.find?_eq_none]
  intro n member
  simp [Node.is, kinds n member]

section

variable {ts : List Token} {name ob cb : Token} {modifiers : List Node} {type parameters : Node}

theorem method_parts_kinds (kind : OfRules (.arrayType :: simpleTypeRules) type)
    (listed : parameters.kind = .rule .formalParameters) {r : Rule}
    (missing : r ∉ [.identifier, .formalParameters, .block])
    (untyped : r ∉ Rule.arrayType :: simpleTypeRules) :
    ∀ child ∈ methodParts type name parameters ob cb, child.kind ≠ .rule r := by
  have typeKind : (type.labelled .type).kind ≠ .rule r := by
    rw [kind_labelled]
    exact kind.other untyped
  simp only [List.mem_cons, List.not_mem_nil, or_false, not_or] at missing
  simp only [methodParts, List.forall_mem_cons, kind_labelled .parameters parameters, listed]
  refine ⟨typeKind, ?_, ?_, ?_, List.forall_mem_nil _⟩
  · rintro ⟨rfl⟩
    exact missing.1 rfl
  · rintro ⟨rfl⟩
    exact missing.2.1 rfl
  · rintro ⟨rfl⟩
    exact missing.2.2 rfl

theorem method_told (ob cb : Token) (modified : Modified spec.modifiers modifiers)
    (typed : TypeMarks source spec.returnType ts) (covers : Covers type ts)
    (kind : OfRules (.arrayType :: simpleTypeRules) type)
    (named : WordMark source spec.name name)
    (parametrized : Parametrized source spec.parameters parameters) :
    ∃ decl, method source (methodNode modifiers type name parameters ob cb) = .done decl ∧
      SameMethod spec decl := by
  have bare := modified.bare
  have keywords : source.modifiers (methodNode modifiers type name parameters ob cb) =
      { keywords := spec.modifiers } := by
    apply modifiers_told source modified rfl
    exact method_parts_kinds kind parametrized.kind (by decide) (by decide)
  have throws : (methodNode modifiers type name parameters ob cb).ofKind? .throws = none := by
    apply of_kind_missing
    intro n member
    rcases List.mem_append.mp member with modifier | part
    · simp [bare n modifier]
    · exact method_parts_kinds kind parametrized.kind (by decide) (by decide) n part
  have found (f : Field) : (methodNode modifiers type name parameters ob cb).get? f =
      (methodParts type name parameters ob cb).find? fun child => child.label == some f :=
    get_behind (fun n member => (bare n member).1) f
  have hasName : (methodNode modifiers type name parameters ob cb).get? .name =
      some ((leafNode .identifier name).labelled .name) := by simp [found, methodParts, label_labelled]
  have hasType : (methodNode modifiers type name parameters ob cb).get? .type =
      some (type.labelled .type) := by simp [found, methodParts, label_labelled]
  have hasBody : (methodNode modifiers type name parameters ob cb).get? .body =
      some ((emptyBlock ob cb).labelled .body) := by simp [found, methodParts, label_labelled]
  have hasList : (methodNode modifiers type name parameters ob cb).get? .parameters =
      some (parameters.labelled .parameters) := by simp [found, methodParts, label_labelled]
  have unbound : (methodNode modifiers type name parameters ob cb).get? .typeParameters = none := by
    simp [found, methodParts, label_labelled]
  have flat : (methodNode modifiers type name parameters ob cb).get? .dimensions = none := by
    simp [found, methodParts, label_labelled]
  have nameText := named.told ((leafNode .identifier name).labelled .name) rfl rfl
  have typeText := typed.told _ (covers.labelled .type)
  refine ⟨⟨spec.name, { keywords := spec.modifiers }, [], some (Text.oneLine spec.returnType),
    source.parameters (parameters.labelled .parameters), [],
    some ⟨[], source.span (emptyBlock ob cb)⟩,
    source.span (methodNode modifiers type name parameters ob cb)⟩,
    ?_, ?_⟩
  · unfold method
    simp only [Source.fieldText, Source.field, Source.withDimensions, hasName, hasType, hasBody,
      hasList, unbound, flat, keywords, throws, Source.require, Plan.map, Plan.bind, nameText,
      typeText]
    rfl
  · obtain ⟨k, label, start, stop, children⟩ := parameters
    exact ⟨rfl, rfl, rfl, rfl, parametrized.told, rfl, _, rfl⟩

end

section

variable {mods : List Modifier} {text : String} {ms ts others : List Token} {t next : Token}

theorem heading_starts (modifiers : ModifiersMarks mods ms) (type : TypeMarks source text ts) :
    ∃ t others, ms ++ (ts ++ rest) = t :: others ∧ t.shape = .word := by
  cases modifiers with
  | none =>
      obtain ⟨t, others, rfl, word, _⟩ := type.written.leads rfl
      exact ⟨t, others ++ rest, rfl, word⟩
  | more first later =>
      cases first with
      | word plain => exact ⟨_, _, rfl, rfl⟩
      | nonSealed => exact ⟨_, _, rfl, rfl⟩

theorem return_type_front (type : TypeMarks source text (t :: ts))
    (plain : leadingWord text ∉ contextualWords) :
    t.text ∉ ["class", "interface", "enum", "record"] := by
  obtain ⟨_, _, same, _, leads⟩ := type.written.leads rfl
  obtain ⟨rfl, rfl⟩ := List.cons.inj same
  have known : ∀ w ∈ ["class", "interface", "enum", "record"],
      (isReserved w = true ∨ w ∈ contextualWords) ∧ w ∉ primitiveWords := by decide
  intro among
  obtain ⟨taken, unprimitive⟩ := known _ among
  rcases leads with named | ⟨primitive, _⟩
  · rcases taken with reserved | contextual
    · exact identifier_not named _ reserved rfl
    · rw [type.leads t rfl] at contextual
      exact plain contextual
  · exact unprimitive primitive

theorem unsealed (plain : leadingWord text ∉ contextualWords) : leadingWord text ≠ "sealed" := by
  intro same
  exact plain (by simp [contextualWords, same])

variable (modifiers : ModifiersMarks mods ms) (type : TypeMarks source text ts)
  (plain : leadingWord text ∉ contextualWords)

include modifiers type plain

/-- No initializer stands there: a word follows whatever modifier comes first. -/
theorem initializer_refused :
    Refuses fuel (Shape.all [Shape.key "static", Shape.sym openBrace]) built
      (ms ++ (ts ++ next :: others)) := by
  cases modifiers with
  | none =>
      obtain ⟨t, more, rfl, _, _, _, unmodified, _⟩ := type.front (unsealed plain)
      have static : "static" ∈ modifierWords := by decide
      apply Refuses.early
      apply Refuses.keyword
      intro _ among
      rw [List.mem_singleton.mp among] at unmodified
      exact unmodified static
  | @more m _ vs us first later =>
      obtain ⟨second, behind, same, follows⟩ : ∃ t more,
          us ++ (ts ++ next :: others) = t :: more ∧ t.shape = .word := heading_starts later type
      cases first with
      | word single =>
          have wordy : Refuses fuel (Shape.sym openBrace) built (second :: behind) :=
            .symbol fun symbol => by simp [follows] at symbol
          rw [List.append_assoc, same]
          by_cases static : m.keyword = "static"
          · exact .late (.keyword rfl (by simp [static])) wordy
          · exact .early (.keyword fun _ => by simpa using static)
      | nonSealed => exact .early (.keyword fun _ => by simp)

variable (word : next.shape = .word)

include word

theorem heading_skipped : ∃ nodes, Reads fuel skippedModifiers built
    (ms ++ (ts ++ next :: others)) nodes (ts ++ next :: others) := by
  exact modifiers.skipped (type.unmodified (unsealed plain) word)

theorem declaration_refused : Refuses fuel (Shape.either [declared "class", declared "interface",
      declared "enum", declared "record", Shape.all [skippedModifiers, .cut "@interface"]]) built
    (ms ++ (ts ++ next :: others)) := by
  have skipped : ∃ nodes, Reads fuel skippedModifiers built (ms ++ (ts ++ next :: others)) nodes _ :=
    heading_skipped modifiers type plain word
  obtain ⟨nodes, skips⟩ := skipped
  obtain ⟨t, more, c, own, rfl, _, chars, start⟩ := type.written.starts rfl
  have other := return_type_front type plain
  simp only [List.mem_cons, List.not_mem_nil, or_false, not_or] at other
  have key (w : String) (apart : t.text ≠ w) : Refuses fuel (declared w) built
      (ms ++ (t :: more ++ next :: others)) := .late skips (.keyword fun _ => by simpa using apart)
  apply Refuses.either
  intro probe member
  simp only [List.mem_cons, List.not_mem_nil, or_false] at member
  rcases member with rfl | rfl | rfl | rfl | rfl
  · exact key _ other.1
  · exact key _ other.2.1
  · exact key _ other.2.2.1
  · exact key _ other.2.2.2
  · have mark : "@interface".toList = '@' :: "interface".toList := rfl
    have apart : c ≠ '@' := by
      rintro rfl
      cases start
    exact .late skips (.cut chars mark apart)

/-- Behind the first word of a return type stands neither a parenthesis nor a brace. -/
theorem named_refused {symbol : String} (unlike : symbol ∉ typeSymbols ∧ symbol ∉ [">>", ">>>"]) :
    Refuses fuel (Shape.all [Shape.all [skippedModifiers, identifierBut primitiveWords],
      Shape.sym symbol]) built (ms ++ (ts ++ next :: others)) := by
  have skipped : ∃ nodes, Reads fuel skippedModifiers built (ms ++ (ts ++ next :: others)) nodes _ :=
    heading_skipped modifiers type plain word
  obtain ⟨nodes, skips⟩ := skipped
  obtain ⟨t, more, rfl, own, _⟩ := type.written.leads rfl
  obtain ⟨_, _, same, follows⟩ := type.written.next rfl
  obtain ⟨rfl, rfl⟩ := List.cons.inj same
  by_cases primitive : t.text ∈ primitiveWords
  · exact .early (.late skips (.word fun _ => by simpa using primitive))
  · have named : Reads fuel (Shape.all [skippedModifiers, identifierBut primitiveWords]) built
        (ms ++ (t :: more ++ next :: others)) _ (more ++ next :: others) :=
      .seq skips (.word own (by simpa using primitive))
    apply Refuses.late named
    cases more with
    | nil => exact .symbol fun symbol => by simp [word] at symbol
    | cons u more =>
        obtain ⟨_, among⟩ := follows u rfl
        apply Refuses.symbol
        intro _
        simp only [List.mem_cons, List.not_mem_nil, or_false, not_or] at unlike ⊢
        refine ⟨?_, Ne.symm unlike.2.1, Ne.symm unlike.2.2⟩
        rintro rfl
        exact unlike.1 among

/-- No alternative in front of methods takes the heading, so that a parenthesis behind the name
makes the member a method. -/
theorem method_member {made returned opened : List Node} {behind rest : List Token}
    (named : next.text ∉ ["_"])
    (typed : Reads fuel (.call (.plainType .free)) [] (ts ++ next :: others) returned
      (next :: others))
    (opens : Reads fuel (Shape.sym "(") [] others opened behind)
    (heading : Reads fuel methodDeclaration [] (ms ++ (ts ++ next :: others)) made rest) :
    Reads (fuel + 1) (.call .member) built (ms ++ (ts ++ next :: others)) made rest := by
  obtain ⟨nodes, skips⟩ : ∃ nodes, Reads fuel skippedModifiers []
      (ms ++ (ts ++ next :: others)) nodes (ts ++ next :: others) :=
    heading_skipped modifiers type plain word
  have wordy (symbols : List String) :
      Refuses fuel (.symbol symbols) [] (ms ++ (ts ++ next :: others)) := by
    obtain ⟨first, more, front, word⟩ : ∃ t more,
        ms ++ (ts ++ next :: others) = t :: more ∧ t.shape = .word := heading_starts modifiers type
    rw [front]
    exact .symbol fun symbol => by simp [word] at symbol
  have angle : Refuses fuel (Shape.all [skippedModifiers, Shape.sym "<"]) []
      (ms ++ (ts ++ next :: others)) := by
    obtain ⟨first, more, rfl, word, _⟩ := type.written.leads rfl
    exact .late skips (.symbol fun symbol => by simp [word] at symbol)
  have probe : Reads fuel (Shape.all [Shape.all [skippedModifiers, .call (.plainType .free),
      identifierBut ["_"]], Shape.sym "("]) [] _ _ _ :=
    .seq (.seq skips (.seq typed (.word word (by simpa using named)))) opens
  apply Reads.call
  exact .pass (wordy _) (.pass (wordy _)
    (.pass (initializer_refused modifiers type plain)
    (.pass (declaration_refused modifiers type plain word)
    (.pass angle
    (.pass (named_refused modifiers type plain word (by decide))
    (.pass (named_refused modifiers type plain word (by decide))
    (.pick probe heading)))))))

end

theorem SymbolMark.solid {symbol : String} {t : Token} (mark : SymbolMark symbol t)
    (other : symbol ≠ ">") : t.text ≠ ">" := by
  rwa [mark.text]

theorem method_reads (marks : MethodMarks source spec us) (fit : FitMethod spec) :
    ∃ n decl, n.kind = .rule .methodDeclaration ∧ method source n = .done decl ∧
      SameMethod spec decl ∧ ∀ fuel built rest, 4 * solid us + 4 ≤ fuel →
        Reads fuel (.call .member) built (us ++ rest) [n] rest := by
  cases marks with
  | @intro ms ts ps name o c ob cb modifiers type named opens parameters closes begins ends =>
      obtain ⟨mods, modified, modifies⟩ := modifiers.reads
      obtain ⟨typeNode, covers, kind, types⟩ := type.written.readable
      obtain ⟨list, parametrized, lists⟩ := formal_parameters_read parameters fit.parameters
        ⟨opens.symbol, opens.text⟩ ⟨closes.symbol, closes.text⟩
      obtain ⟨decl, lowered, same⟩ :=
        method_told ob cb modified type covers kind named parametrized
      refine ⟨_, decl, rfl, lowered, same, ?_⟩
      intro fuel built rest enough
      rw [solid_append, solid_append, solid_cons, solid_cons, solid_append] at enough
      obtain ⟨fuel, rfl⟩ := Nat.exists_eq_add_of_le' (Nat.le_of_add_left_le enough)
      have whole : ms ++ (ts ++ name :: o :: (ps ++ [c, ob, cb])) ++ rest =
          ms ++ (ts ++ name :: (o :: (ps ++ c :: ob :: cb :: rest))) := by simp
      rw [whole]
      have reserved : name.text ∉ ["_"] := by
        rw [named.text]
        simpa using identifier_not fit.name "_" rfl
      have unmodified : Unmodified (ts ++ name :: o :: (ps ++ c :: ob :: cb :: rest)) :=
        type.unmodified (unsealed fit.plain) named.word
      have typed := types (fuel + 3) [] (name :: o :: (ps ++ c :: ob :: cb :: rest)) (by omega)
        (word_quiet named.word)
      have listed := lists (fuel + 3) [] (ob :: cb :: rest) (by omega)
      have flat : Refuses (fuel + 3) dimensionsAhead [] (ob :: cb :: rest) :=
        .late (notes_pass (begins.apart (by decide))) (.early (.symbol (begins.apart (by decide))))
      have heading : Reads (fuel + 3) methodDeclaration []
          (ms ++ (ts ++ name :: (o :: (ps ++ c :: ob :: cb :: rest))))
          [methodNode mods typeNode name list ob cb] rest := by
        obtain ⟨first, more, rfl, word, _⟩ := type.written.leads rfl
        exact .node (.seq (modifies _ _ _ unmodified)
          (.seq (.omitted (.symbol fun symbol => by simp [word] at symbol))
          (.seq (.field typed) (.seq (.field (.word named.word rfl)) (.seq (.field listed)
          (.seq (.omitted flat) (.seq (.omitted (.keyword (begins.wordless _)))
          (.pass (.symbol (begins.apart (by decide)))
            (.field (empty_block_reads begins ends))))))))))
      exact method_member modifiers type fit.plain named.word reserved typed
        (opens.reads (by decide)) heading

end JavaOutline.Generate
