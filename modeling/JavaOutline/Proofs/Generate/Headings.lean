import JavaOutline.Lower.Declarations
import JavaOutline.Proofs.Generate.Spelling

/-!
The parts of a method's heading: modifiers and parameters. The grammar reads the marks of each, and
what it makes of them tells the modifiers, the types and the names.
-/
namespace JavaOutline.Generate

open JavaOutline.Grammar
open JavaOutline.Lower
open JavaOutline.Tree

variable {fuel : Nat} {built : List Node} {rest us : List Token}

inductive ModifierMarks : Modifier → List Token → Prop
  | word {m : Modifier} {a b : Nat} (plain : m ≠ .nonSealed) :
      ModifierMarks m [⟨.word, m.keyword, a, b⟩]
  | nonSealed {a : Nat} :
      ModifierMarks .nonSealed [⟨.word, "non", a, a + 3⟩, ⟨.symbol, "-", a + 3, a + 4⟩,
        ⟨.word, "sealed", a + 4, a + 10⟩]

inductive ModifiersMarks : List Modifier → List Token → Prop
  | none : ModifiersMarks [] []
  | more {m : Modifier} {ms : List Modifier} {vs us : List Token} (first : ModifierMarks m vs)
      (later : ModifiersMarks ms us) : ModifiersMarks (m :: ms) (vs ++ us)

theorem keyword_modifies (m : Modifier) (plain : m ≠ .nonSealed) : m.keyword ∈ modifierWords := by
  cases m <;> first | exact absurd rfl plain | decide

theorem keyword_parts (m : Modifier) (plain : m ≠ .nonSealed) :
    ∀ c ∈ m.keyword.toList, isNamePart c = true := by
  apply List.all_eq_true.mp
  cases m <;> first | exact absurd rfl plain | rfl

theorem keyword_told (m : Modifier) : Modifier.ofKeyword? m.keyword = some m := by
  cases m <;> decide

theorem half_modifier : "non" ∉ modifierWords := by
  decide

section

variable {m : Modifier} {vs : List Token} (first : ModifierMarks m vs)

include first

theorem ModifierMarks.ahead : ∃ nodes others, Reads fuel modifierAhead built (vs ++ rest) nodes others := by
  cases first with
  | word plain => exact ⟨_, _, .pick (.nextWord rfl (keyword_modifies m plain)) .done⟩
  | nonSealed => exact ⟨_, _, .pass (.nextWord fun _ => half_modifier) (.pick .cutNonSealed .done)⟩

theorem ModifierMarks.fewer : solid rest < solid (vs ++ rest) := by
  cases first with
  | word plain =>
      have other : m.keyword ≠ ">" := by cases m <;> decide
      exact solid_fewer other [] rest
  | nonSealed => exact solid_fewer (by simp) [_, _] rest

theorem ModifierMarks.skipped : ∃ nodes,
    Reads fuel (Shape.choose [(Shape.nextWord modifierWords, .skip),
      (.cut "non-sealed", .cut "non-sealed")] skippedNote) built (vs ++ rest) nodes rest := by
  cases first with
  | word plain =>
      exact ⟨_, .pick (.nextWord rfl (keyword_modifies m plain)) (.skip fun symbol => nomatch symbol)⟩
  | nonSealed => exact ⟨_, .pass (.nextWord fun _ => half_modifier) (.pick .cutNonSealed .cutNonSealed)⟩

theorem ModifierMarks.reads : ∃ n, n.kind = .token m.keyword ∧
    ∀ fuel built rest, Reads fuel modifier built (vs ++ rest) [n] rest := by
  cases first with
  | @word _ a b plain =>
      refine ⟨bareNode ⟨.word, m.keyword, a, b⟩, rfl, ?_⟩
      intro fuel built rest
      have among := keyword_modifies m plain
      exact .pick (.nextWord rfl among) (.keyword rfl among)
  | @nonSealed a =>
      refine ⟨.mk (.token "non-sealed") none a (a + 10) [], rfl, ?_⟩
      intro fuel built rest
      exact .pass (.nextWord fun _ => half_modifier) (.pick .cutNonSealed .cutNonSealed)

end

/-- No modifier stands at the front. -/
def Unmodified (us : List Token) : Prop :=
  ∀ fuel built, Refuses fuel modifierAhead built us

theorem word_unmodified {t u : Token} (word : t.shape = .word) (filled : t.text.toList ≠ [])
    (parts : ∀ c ∈ t.text.toList, isNamePart c = true) (other : t.text ∉ modifierWords)
    (next : u.shape = .word ∨ ∃ d own, u.text.toList = d :: own ∧ d ∉ ['o', 'n', '-']) :
    Unmodified (t :: u :: rest) := by
  intro fuel built
  have hyphen : '-' ∉ t.text.toList := fun member => nomatch parts '-' member
  obtain ⟨c, own, chars⟩ := List.exists_cons_of_ne_nil filled
  have plain : c ≠ '@' := by
    rintro rfl
    exact nomatch parts '@' (by simp [chars])
  have mark : "@interface".toList = '@' :: "interface".toList := rfl
  apply Refuses.either
  intro probe member
  simp only [List.mem_cons, List.not_mem_nil, or_false] at member
  rcases member with rfl | rfl | rfl
  · exact .nextWord fun _ => other
  · exact .cutNonSealed word hyphen next
  · exact .late (.absent (.cut chars mark plain)) (.symbol fun symbol => by simp [word] at symbol)

variable {ms : List Modifier}

theorem ModifiersMarks.skipped (modifiers : ModifiersMarks ms us) (unmodified : Unmodified rest) :
    ∃ nodes, Reads fuel skippedModifiers built (us ++ rest) nodes rest := by
  have turns : ∃ nodes, Repeats fuel modifierAhead (Shape.choose
      [(Shape.nextWord modifierWords, .skip), (.cut "non-sealed", .cut "non-sealed")] skippedNote)
      built (us ++ rest) nodes rest := by
    induction modifiers with
    | none => exact ⟨[], .stop (unmodified _ _)⟩
    | more first _ ih =>
        obtain ⟨more, later⟩ := ih
        obtain ⟨_, _, ahead⟩ := first.ahead
        obtain ⟨nodes, skips⟩ := first.skipped
        rw [List.append_assoc]
        exact ⟨nodes ++ more, .turn ahead skips first.fewer later⟩
  obtain ⟨nodes, turns⟩ := turns
  exact ⟨nodes, .many turns⟩

def Modified (ms : List Modifier) (nodes : List Node) : Prop :=
  match ms with
  | [] => nodes = []
  | ms => ∃ children, nodes = [Node.ofRule .modifiers children] ∧
      children.map Node.kind = ms.map fun m => .token m.keyword

theorem ModifiersMarks.turns (modifiers : ModifiersMarks ms us) :
    ∃ children, children.map Node.kind = ms.map (fun m => .token m.keyword) ∧
      ∀ fuel built rest, Unmodified rest →
        Repeats fuel modifierAhead modifier built (us ++ rest) children rest := by
  induction modifiers with
  | none => exact ⟨[], rfl, fun fuel built rest unmodified => .stop (unmodified fuel built)⟩
  | more first _ ih =>
      obtain ⟨children, kinds, later⟩ := ih
      obtain ⟨n, kind, own⟩ := first.reads
      refine ⟨n :: children, by simp [kind, kinds], ?_⟩
      intro fuel built rest unmodified
      obtain ⟨_, _, ahead⟩ := first.ahead
      rw [List.append_assoc]
      exact .turn ahead (own _ _ _) first.fewer (later _ _ _ unmodified)

theorem ModifiersMarks.reads (modifiers : ModifiersMarks ms us) : ∃ nodes, Modified ms nodes ∧
    ∀ fuel built rest, Unmodified rest →
      Reads fuel modifiersAfter built (us ++ rest) nodes rest := by
  cases modifiers with
  | none => exact ⟨[], rfl, fun fuel built rest unmodified => .omitted (unmodified fuel built)⟩
  | more first later =>
      obtain ⟨children, kinds, turns⟩ := later.turns
      obtain ⟨n, kind, own⟩ := first.reads
      refine ⟨_, ⟨n :: children, rfl, by simp [kind, kinds]⟩, ?_⟩
      intro fuel built rest unmodified
      obtain ⟨_, _, ahead⟩ := first.ahead
      rw [List.append_assoc]
      exact .whenever ahead (.node (.seq (own _ _ _) (.many (turns _ _ _ unmodified))))

theorem keywords_told (source : Source) {n : Node} {children : List Node}
    (found : (n.ofKind? .modifiers).elim [] Node.children = children)
    (kinds : children.map Node.kind = ms.map fun m => .token m.keyword) :
    source.modifiers n = { keywords := ms } := by
  unfold Source.modifiers
  rw [found]
  clear found
  induction ms generalizing children with
  | nil =>
      rw [List.map_nil, List.map_eq_nil_iff] at kinds
      rw [kinds]
      rfl
  | cons m ms ih =>
      obtain ⟨child, children, rfl⟩ := List.exists_cons_of_ne_nil (l := children) (by
        rintro rfl
        cases kinds)
      obtain ⟨kind, others⟩ := List.cons.inj kinds
      have told := ih others
      have ruled (r : Rule) : child.is r = false := by simp [Node.is, kind]
      simp only [Modifiers.mk.injEq] at told ⊢
      simp only [List.filterMap_cons, kind, keyword_told, ruled, Bool.or_self, told.1, told.2,
        true_and]
      rfl

theorem modifiers_told (source : Source) {n : Node} {nodes others : List Node}
    (modified : Modified ms nodes) (children : n.children = nodes ++ others)
    (free : ∀ child ∈ others, child.kind ≠ .rule .modifiers) :
    source.modifiers n = { keywords := ms } := by
  cases ms with
  | nil =>
      have nothing : ([] : List Node).map Node.kind = ([] : List Modifier).map fun m =>
        .token m.keyword := rfl
      apply keywords_told source _ nothing
      have none' : nodes = [] := modified
      have missing : n.ofKind? .modifiers = none := by
        rw [Node.ofKind?, children, none', List.nil_append, List.find?_eq_none]
        exact fun child member => by simpa [Node.is] using free child member
      rw [missing]
      rfl
  | cons m ms =>
      obtain ⟨inner, rfl, kinds⟩ := modified
      apply keywords_told source _ kinds
      rw [Node.ofKind?, children]
      rfl

/-- The word that a type starts with. -/
def leadingWord (type : String) : String :=
  String.ofList (type.toList.takeWhile isNamePart)

structure TypeMarks (source : Source) (type : String) (us : List Token) : Prop where
  written : Written .type us
  leads : ∀ t ∈ us.head?, t.text = leadingWord type
  told : ∀ n, Covers n us → source.compact n = Text.oneLine type

structure WordMark (source : Source) (w : String) (t : Token) : Prop where
  word : t.shape = .word
  text : t.text = w
  told : ∀ n : Node, n.start = t.start → n.stop = t.stop → source.text n = w

def typeSymbols : List String :=
  [".", "<", "["]

theorem Written.next {part : TypePart} {us : List Token} (written : Written part us)
    (typed : part.isTyped = true) :
    ∃ t rest, us = t :: rest ∧ ∀ u ∈ rest.head?, u.shape = .symbol ∧ u.text ∈ typeSymbols := by
  -- What is added stands behind the first word, if there is nothing else behind it.
  have added {t : Token} {rest others : List Token}
      (own : ∀ u ∈ rest.head?, u.shape = .symbol ∧ u.text ∈ typeSymbols)
      (next : ∀ u ∈ others.head?, u.shape = .symbol ∧ u.text ∈ typeSymbols) :
      ∃ first more, t :: rest ++ others = first :: more ∧
        ∀ u ∈ more.head?, u.shape = .symbol ∧ u.text ∈ typeSymbols := by
    refine ⟨t, rest ++ others, rfl, ?_⟩
    cases rest with
    | nil => exact next
    | cons u rest => exact own
  induction written with
  | identifier | primitive => exact ⟨_, [], rfl, by simp⟩
  | bare _ ih | reference _ ih | simple _ ih => exact ih rfl
  | member _ _ ih | diamond _ _ ih | generic _ _ _ ih _ =>
      obtain ⟨t, rest, rfl, own⟩ := ih rfl
      exact added own (by simp [typeSymbols])
  | array _ pairs ih _ =>
      obtain ⟨t, rest, rfl, own⟩ := ih rfl
      apply added own
      cases pairs <;> simp [typeSymbols]
  | _ => cases typed

/-- The first word of a type without a contextual modifier in front. -/
theorem TypeMarks.front {source : Source} {type : String} (marks : TypeMarks source type us)
    (plain : leadingWord type ≠ "sealed") :
    ∃ t others, us = t :: others ∧ t.shape = .word ∧ t.text.toList ≠ [] ∧
      (∀ c ∈ t.text.toList, isNamePart c = true) ∧ t.text ∉ modifierWords ∧
      ∀ u ∈ others.head?, u.shape = .symbol ∧ u.text ∈ typeSymbols := by
  obtain ⟨first, others, rfl, own, leads⟩ := marks.written.leads rfl
  obtain ⟨_, _, same, next⟩ := marks.written.next rfl
  obtain ⟨rfl, rfl⟩ := List.cons.inj same
  refine ⟨first, others, rfl, own, ?_⟩
  rcases leads with named | ⟨known, _⟩
  · refine ⟨identifier_filled named, identifier_chars named, fun among => ?_, next⟩
    have reserved : ∀ w ∈ modifierWords, w = "sealed" ∨ isReserved w = true := by decide
    obtain ⟨_, _, _, _, _, free⟩ := identifier_shape named
    rcases reserved _ among with same | taken
    · rw [marks.leads first rfl] at same
      exact plain same
    · rw [taken] at free
      cases free
  · have words : ∀ w ∈ primitiveWords, w.toList ≠ [] ∧ w.toList.all isNamePart = true ∧
      w ∉ modifierWords := by decide
    obtain ⟨filled, parts, other⟩ := words _ known
    exact ⟨filled, List.all_eq_true.mp parts, other, next⟩

theorem TypeMarks.unmodified {source : Source} {type : String} {t : Token}
    (marks : TypeMarks source type us) (plain : leadingWord type ≠ "sealed")
    (word : t.shape = .word) : Unmodified (us ++ t :: rest) := by
  obtain ⟨first, others, rfl, own, filled, parts, other, next⟩ := marks.front plain
  cases others with
  | nil => exact word_unmodified own filled parts other (.inl word)
  | cons u others =>
      have known : ∀ text ∈ typeSymbols, text.toList.head?.any (['o', 'n', '-'].contains ·) = false ∧
          text.toList ≠ [] := by decide
      obtain ⟨apart, marked⟩ := known _ (next u rfl).2
      obtain ⟨d, more, chars⟩ := List.exists_cons_of_ne_nil marked
      exact word_unmodified own filled parts other (.inr ⟨d, more, chars, by simpa [chars] using apart⟩)

inductive ParametersMarks (source : Source) : List ParameterSpec → List Token → Prop
  | single {p : ParameterSpec} {us : List Token} {t : Token} (type : TypeMarks source p.type us)
      (name : WordMark source p.name t) : ParametersMarks source [p] (us ++ [t])
  | more {p : ParameterSpec} {ps : List ParameterSpec} {us vs : List Token} {t : Token} {a b : Nat}
      (type : TypeMarks source p.type us) (name : WordMark source p.name t)
      (later : ParametersMarks source ps vs) :
      ParametersMarks source (p :: ps) (us ++ t :: ⟨.symbol, ",", a, b⟩ :: vs)

/-- A parameter that was read is the one that was written. -/
structure SameParameter (p : ParameterSpec) (q : Parameter) : Prop where
  name : q.name = p.name
  type : q.type = Text.oneLine p.type
  modifiers : q.modifiers = {}
  single : q.variadic = false

structure FitParameter (p : ParameterSpec) : Prop where
  name : isIdentifier p.name = true
  plain : leadingWord p.type ≠ "sealed"

section

variable {source : Source} {p : ParameterSpec} {ps : List ParameterSpec} {t close : Token}

theorem identifier_not {w : String} (named : isIdentifier w = true) (other : String)
    (reserved : isReserved other = true) : w ≠ other := by
  rintro rfl
  obtain ⟨_, _, _, _, _, free⟩ := identifier_shape named
  rw [reserved] at free
  cases free

theorem word_quiet (word : t.shape = .word) : Quiet (t :: rest) :=
  ⟨t, rest, rfl, fun symbol => by simp [word] at symbol⟩

theorem closing_ahead {texts : List String} (plain : ∀ text ∈ texts, text ∉ ["@", "["])
    (among : close.text ∈ texts) :
    Refuses fuel dimensionsAhead built (close :: rest) := by
  have other := plain _ among
  simp only [List.mem_cons, List.not_mem_nil, or_false, not_or] at other
  exact .late (notes_pass fun _ => by simpa using other.1)
    (.early (.symbol fun _ => by simpa using other.2))

def parameterNode (type : Node) (t : Token) : Node :=
  Node.ofRule .formalParameter
    [type.labelled .type, (leafNode .identifier t).labelled .name]

theorem parameter_told (type : TypeMarks source p.type us) (name : WordMark source p.name t)
    {n : Node} (covers : Covers n us) (kind : n.kind ≠ .rule .modifiers) :
    source.parameter? (parameterNode n t) =
      some ⟨p.name, Text.oneLine p.type, {}, false, source.span (parameterNode n t)⟩ := by
  have named := name.told ((leafNode .identifier t).labelled .name) rfl rfl
  have typed := type.told _ (covers.labelled .type)
  obtain ⟨k, label, start, stop, children⟩ := n
  have other : ¬ k = .rule .modifiers := kind
  simp only [parameterNode, Source.parameter?, Node.ofRule, Node.is, Node.kind, Node.get?,
    Node.children, Node.label, Node.labelled, leafNode, Source.withDimensions, Source.modifiers,
    Node.ofKind?] at named typed ⊢
  simp [named, typed, other]

theorem parameter_reads (type : TypeMarks source p.type us) (name : WordMark source p.name t)
    (fit : FitParameter p) :
    ∃ n, Covers n us ∧ n.kind ≠ .rule .modifiers ∧
      ∀ fuel built close rest, 4 * solid us + 2 ≤ fuel → close.shape = .symbol →
        close.text ∈ [",", ")"] →
        Reads fuel formalParameter built (us ++ t :: close :: rest) [parameterNode n t]
          (close :: rest) := by
  obtain ⟨n, covers, kind, reads⟩ := type.written.readable
  refine ⟨n, covers, kind.other (by decide), ?_⟩
  intro fuel built close rest enough symbol among
  have unmodified : Unmodified (us ++ t :: close :: rest) := type.unmodified fit.plain name.word
  have typed := reads fuel built (t :: close :: rest) enough (word_quiet name.word)
  have skips : Reads fuel skippedModifiers built (us ++ t :: close :: rest) []
      (us ++ t :: close :: rest) := .unrepeated (unmodified fuel built)
  have plain : t.text ∉ ["_"] := by
    rw [name.text]
    simpa using identifier_not fit.name "_" rfl
  have ended : Refuses fuel dimensionsAhead built (close :: rest) :=
    closing_ahead (by decide) among
  apply Reads.pass
  · exact .late skips (.late typed (.symbol fun symbol => by simp [name.word] at symbol))
  · apply Reads.node
    exact .seq (.omitted (unmodified fuel built)) (.seq (.field typed)
      (.seq (.field (.pass (.keyword fun _ => plain) (.word name.word rfl))) (.omitted ended)))

/-- Whether the receiver of a method is named in front of the parameters. -/
def receiverAhead : Form :=
  let outer := Shape.all [identifier, Shape.sym "."]
  let noted := Shape.all [skippedNotes, Shape.absent (Shape.nextWord modifierWords),
    .call (.plainType .free)]
  Shape.either
    [Shape.all [Shape.absent (Shape.nextWord modifierWords), .call (.plainType .free),
        .many outer outer, Shape.key "this", Shape.nextSymbol [",", ")"]],
      Shape.all [noted, outer, .many outer outer, Shape.key "this"],
      Shape.all [noted, Shape.key "this", Shape.sym ",", Shape.sym ")"]]

theorem receiver_refused (type : TypeMarks source p.type us) (name : WordMark source p.name t)
    (fit : FitParameter p) (enough : 4 * solid us + 2 ≤ fuel)
    (among : close.text ∈ [",", ")"]) :
    Refuses fuel receiverAhead built (us ++ t :: close :: rest) := by
  obtain ⟨n, _, _, reads⟩ := type.written.readable
  obtain ⟨first, others, rfl, own, _, _, plain, _⟩ := type.front fit.plain
  have typed := reads fuel built (t :: close :: rest) enough (word_quiet name.word)
  have other : t.text ∉ ["this"] := by
    rw [name.text]
    simpa using identifier_not fit.name "this" rfl
  have dotless : Refuses fuel (Shape.all [identifier, Shape.sym "."]) built (t :: close :: rest) := by
    have apart : Apart close ["."] := fun _ => by
      simp only [List.mem_cons, List.not_mem_nil, or_false] at among
      rcases among with same | same <;> simp [same]
    exact .late (.word name.word rfl) (.symbol apart)
  have unmodified : Reads fuel (Shape.absent (Shape.nextWord modifierWords)) built
      (first :: others ++ t :: close :: rest) [] _ := .absent (.nextWord fun _ => plain)
  have noted : Reads fuel (Shape.all [skippedNotes, Shape.absent (Shape.nextWord modifierWords),
      .call (.plainType .free)]) built (first :: others ++ t :: close :: rest) _ _ :=
    .seq (notes_pass fun symbol => by simp [own] at symbol) (.seq unmodified typed)
  apply Refuses.either
  intro probe member
  simp only [List.mem_cons, List.not_mem_nil, or_false] at member
  rcases member with rfl | rfl | rfl
  · exact .late unmodified (.late typed (.late (.unrepeated dotless) (.early (.keyword fun _ => other))))
  · exact .late noted (.early dotless)
  · exact .late noted (.early (.keyword fun _ => other))

theorem type_refused (symbol : t.shape = .symbol) :
    Refuses (fuel + 2) (.call (.plainType .free)) built (t :: rest) := by
  have wordless (words : List String) : t.shape = .word → t.text ∉ words := by simp [symbol]
  apply Refuses.call
  apply Refuses.chain
  apply Refuses.call
  exact .pass (.nextWord (wordless _)) (.chain (.word (by simp [symbol])))

theorem receiver_absent (symbol : t.shape = .symbol) (text : t.text = ")") :
    Refuses (fuel + 2) receiverAhead built (t :: rest) := by
  have unmodified : Reads (fuel + 2) (Shape.absent (Shape.nextWord modifierWords)) built
      (t :: rest) [] (t :: rest) := .absent (.nextWord (by simp [symbol]))
  have untyped : Refuses (fuel + 2) (.call (.plainType .free)) built (t :: rest) :=
    type_refused symbol
  have unnoted : Refuses (fuel + 2) (Shape.all [skippedNotes,
      Shape.absent (Shape.nextWord modifierWords), .call (.plainType .free)]) built (t :: rest) :=
    .late (notes_pass fun _ => by simp [text]) (.late unmodified untyped)
  apply Refuses.either
  intro probe member
  simp only [List.mem_cons, List.not_mem_nil, or_false] at member
  rcases member with rfl | rfl | rfl
  · exact .late unmodified (.early untyped)
  · exact .early unnoted
  · exact .early unnoted

inductive ParameterNodes (source : Source) : List ParameterSpec → List Node → Prop
  | single {p : ParameterSpec} {n : Node} {q : Parameter} (kind : n.kind = .rule .formalParameter)
      (told : source.parameter? n = some q) (same : SameParameter p q) :
      ParameterNodes source [p] [n]
  | more {p : ParameterSpec} {ps : List ParameterSpec} {n : Node} {q : Parameter} {t : Token}
      {nodes : List Node} (kind : n.kind = .rule .formalParameter)
      (told : source.parameter? n = some q) (same : SameParameter p q)
      (later : ParameterNodes source ps nodes) :
      ParameterNodes source (p :: ps) (n :: bareNode t :: nodes)

theorem parameters_read (marks : ParametersMarks source ps us) (fit : ∀ p ∈ ps, FitParameter p) :
    ∃ n nodes, ParameterNodes source ps (n :: nodes) ∧
      ∀ fuel built close rest, 4 * solid us + 2 ≤ fuel → close.shape = .symbol → close.text = ")" →
        ∃ between, solid between ≤ solid (us ++ close :: rest) ∧
          Reads fuel formalParameter built (us ++ close :: rest) [n] between ∧
          Repeats fuel (Shape.sym ",") (.seq (Shape.sym ",") formalParameter) built between nodes
            (close :: rest) := by
  -- What stands between the first parameter and the rest is a comma, or the end of the list.
  induction marks with
  | @single p us t type name =>
      obtain ⟨n, covers, kind, reads⟩ := parameter_reads type name (fit p (by simp))
      have told := parameter_told type name covers kind
      refine ⟨parameterNode n t, [], .single rfl told ⟨rfl, rfl, rfl, rfl⟩, ?_⟩
      intro fuel built close rest enough symbol text
      rw [solid_append] at enough
      rw [List.append_assoc, List.singleton_append]
      refine ⟨close :: rest, ?_, reads fuel built close rest (by omega) symbol (by simp [text]), ?_⟩
      · rw [List.append_cons, solid_append]
        exact Nat.le_add_left _ _
      · exact .stop (.symbol fun _ => by simp [text])
  | @more p ps us vs t a b type name _ ih =>
      obtain ⟨own, others⟩ := List.forall_mem_cons.mp fit
      obtain ⟨n, covers, kind, reads⟩ := parameter_reads type name own
      have told := parameter_told type name covers kind
      obtain ⟨second, nodes, parameters, inside⟩ := ih others
      refine ⟨parameterNode n t, bareNode ⟨.symbol, ",", a, b⟩ :: second :: nodes,
        .more rfl told ⟨rfl, rfl, rfl, rfl⟩ parameters, ?_⟩
      intro fuel built close rest enough symbol text
      rw [solid_append, solid_cons, solid_cons] at enough
      rw [List.append_assoc, List.cons_append, List.cons_append]
      obtain ⟨between, fewer, item, further⟩ := inside fuel built close rest (by omega) symbol text
      refine ⟨_, ?_, reads fuel built _ _ (by omega) rfl (by simp), ?_⟩
      · rw [solid_append, solid_cons t]
        omega
      · have comma : Reads fuel (Shape.sym ",") built (⟨.symbol, ",", a, b⟩ :: _)
            [bareNode ⟨.symbol, ",", a, b⟩] (vs ++ close :: rest) :=
          .symbol rfl (by simp) (by simp)
        refine .turn comma (.seq comma item) ?_ further
        rw [solid_cons, if_neg (by simp)]
        exact Nat.lt_succ_of_le fewer

/-- In front of a list of parameters stands a type, then a name that the list goes on behind. -/
theorem ParametersMarks.opens (marks : ParametersMarks source ps us) (rest : List Token)
    (symbol : close.shape = .symbol) (text : close.text = ")") :
    ∃ p ∈ ps, ∃ vs t next others, us ++ close :: rest = vs ++ t :: next :: others ∧
      TypeMarks source p.type vs ∧ WordMark source p.name t ∧ solid vs ≤ solid us ∧
      next.shape = .symbol ∧ next.text ∈ [",", ")"] := by
  cases marks with
  | @single p us t type name =>
      refine ⟨p, by simp, us, t, close, rest, by simp, type, name, ?_, symbol, by simp [text]⟩
      rw [solid_append]
      exact Nat.le_add_right _ _
  | @more p ps us vs t a b type name later =>
      refine ⟨p, by simp, us, t, ⟨.symbol, ",", a, b⟩, vs ++ close :: rest, by simp, type, name, ?_,
        rfl, by simp⟩
      rw [solid_append]
      exact Nat.le_add_right _ _

theorem ParameterNodes.told {nodes : List Node} (parameters : ParameterNodes source ps nodes) :
    List.Forall₂ SameParameter ps
      ((nodes.filter fun child => child.isNamed && !child.isComment).filterMap
        source.parameter?) := by
  have shown (n : Node) (kind : n.kind = .rule .formalParameter) :
      (n.isNamed && !n.isComment) = true := by
    simp [Node.isNamed, Node.isComment, Node.is, kind]
  induction parameters with
  | single kind told same => simpa [shown _ kind, told] using same
  | @more p ps n q t nodes kind told same _ ih =>
      have comma : (bareNode t).isNamed = false := rfl
      rw [List.filter_cons_of_pos (by simpa using shown n kind),
        List.filter_cons_of_neg (by simp [comma]), List.filterMap_cons_some told]
      exact .cons same ih

structure Parametrized (source : Source) (ps : List ParameterSpec) (n : Node) : Prop where
  kind : n.kind = .rule .formalParameters
  told : List.Forall₂ SameParameter ps (source.parameters n)

def ParameterList (source : Source) (ps : List ParameterSpec) (us : List Token) : Prop :=
  ps = [] ∧ us = [] ∨ ParametersMarks source ps us

theorem formal_parameters_read {open' close : Token} (marks : ParameterList source ps us)
    (fit : ∀ p ∈ ps, FitParameter p) (opens : open'.shape = .symbol ∧ open'.text = "(")
    (closes : close.shape = .symbol ∧ close.text = ")") :
    ∃ n, Parametrized source ps n ∧ ∀ fuel built rest, 4 * solid us + 3 ≤ fuel →
      Reads fuel (.call .formalParameters) built (open' :: (us ++ close :: rest)) [n] rest := by
  obtain ⟨symbol, text⟩ := opens
  obtain ⟨symbol', text'⟩ := closes
  have starts {fuel : Nat} {built : List Node} (rest : List Token) :
      Reads fuel (Shape.sym "(") built (open' :: rest) [bareNode open'] rest :=
    .symbol symbol (by simp [text]) (by simp [text])
  have ends {fuel : Nat} {built : List Node} (rest : List Token) :
      Reads fuel (Shape.sym ")") built (close :: rest) [bareNode close] rest :=
    .symbol symbol' (by simp [text']) (by simp [text'])
  have bare (t : Token) : (bareNode t).isNamed = false := rfl
  rcases marks with ⟨rfl, rfl⟩ | marks
  · refine ⟨Node.ofRule .formalParameters (bareNode open' :: ([] ++ [bareNode close])),
      ⟨rfl, .nil⟩, ?_⟩
    intro fuel built rest enough
    obtain ⟨fuel, rfl⟩ := Nat.exists_eq_add_of_le' enough
    have nothing : Reads (fuel + 2) (Shape.commaSeparatedTo ")" formalParameter) []
        (close :: rest) [] (close :: rest) :=
      .pick (.nextSymbol symbol' (by simp [text']) (by simp [text'])) .done
    exact .call (.node (.seq (starts _)
      (.seq (.pass (receiver_absent symbol' text') nothing) (ends rest))))
  · obtain ⟨n, nodes, parameters, reads⟩ := parameters_read marks fit
    refine ⟨Node.ofRule .formalParameters (bareNode open' :: (n :: nodes ++ [bareNode close])),
      ⟨rfl, ?_⟩, ?_⟩
    · have inner := parameters.told
      rw [Source.parameters, Node.parts, Node.ofRule, Node.children,
        List.filter_cons_of_neg (by simp [bare]), List.filter_append,
        List.filter_singleton, bare, Bool.false_and, cond_false, List.append_nil]
      exact inner
    · intro fuel built rest enough
      obtain ⟨fuel, rfl⟩ := Nat.exists_eq_add_one_of_ne_zero (n := fuel) (by omega)
      obtain ⟨p, member, vs, t, next, others, same, type, name, less, _, among⟩ :=
        marks.opens rest symbol' text'
      obtain ⟨between, _, item, further⟩ := reads fuel [] close rest (by omega) symbol' text'
      have unreceived : Refuses fuel receiverAhead [] (us ++ close :: rest) := by
        rw [same]
        exact receiver_refused type name (fit p member) (by omega) among
      have filled : Refuses fuel (Shape.nextSymbol [")"]) [] (us ++ close :: rest) := by
        obtain ⟨first, tail, rfl, word, _⟩ := type.front (fit p member).plain
        rw [same]
        exact .nextSymbol fun symbol => by simp [word] at symbol
      have listed : Reads fuel (Shape.commaSeparatedTo ")" formalParameter) []
          (us ++ close :: rest) _ (close :: rest) := .pass filled (.seq item (.many further))
      exact .call (.node (.seq (starts _) (.seq (.pass unreceived listed) (ends rest))))

end

end JavaOutline.Generate
