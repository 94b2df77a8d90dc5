import JavaOutline.Proofs.Generate.FileText

/-!
The marks of generated files. Each part of the text of a file is plain code, and its marks are those
the grammar takes for that part.
-/
namespace JavaOutline.Generate

open JavaOutline.Grammar
open JavaOutline.Lower
open JavaOutline.Tree

/-- A type that is accepted, is a type, and starts with none of some words. -/
structure FitType (words : List String) (type : String) : Prop where
  accepted : isTypeName type = true
  isType : IsType type
  plain : leadingWord type ∉ words

structure SoundMethod (spec : MethodSpec) : Prop where
  name : isIdentifier spec.name = true
  returns : FitType contextualWords spec.returnType
  parameters : ∀ p ∈ spec.parameters, isIdentifier p.name = true ∧ FitType ["sealed"] p.type

theorem SoundMethod.fit {spec : MethodSpec} (sound : SoundMethod spec) : FitMethod spec where
  name := sound.name
  plain := sound.returns.plain
  parameters := fun p member => ⟨(sound.parameters p member).1, by
    simpa using (sound.parameters p member).2.plain⟩

section Plain

variable {rest : List Char}

theorem plainly_name {w : String} (named : isIdentifier w = true) (plain : Plainly rest) :
    Plainly (w.toList ++ rest) := by
  obtain ⟨c, others, chars, start, _⟩ := identifier_shape named
  exact plainly_word (by simp [chars, start]) (identifier_chars named) plain

theorem plainly_space (plain : Plainly rest) : Plainly (' ' :: rest) :=
  plainly_blank rfl plain

theorem plainly_line (plain : Plainly rest) : Plainly ('\n' :: rest) :=
  plainly_blank rfl plain

theorem plainly_type {words : List String} {type : String} (fit : FitType words type)
    (plain : Plainly rest) : Plainly (type.toList ++ ' ' :: rest) := by
  have own := type_plain fit.accepted fit.isType
  apply own.append (plainly_space plain)
  intro c last d first
  have blank : d = ' ' := by simpa using first.symm
  subst blank
  have spaceless : joined.all (fun pair => pair.2 != ' ') = true := by decide
  apply beside_apart (own.code c (List.mem_of_getLast? last)) (by decide) (by decide)
  intro among
  have other := List.all_eq_true.mp spaceless (c, ' ') among
  simp at other

theorem modifiers_plain (ms : List Modifier) (plain : Plainly rest) :
    Plainly (modifiersText ms rest) := by
  induction ms with
  | nil => exact plain
  | cons m ms ih =>
      have later := plainly_space ih
      by_cases single : m = .nonSealed
      · subst single
        have halves : Modifier.nonSealed.keyword.toList =
          "non".toList ++ '-' :: "sealed".toList := rfl
        rw [modifiersText, halves, List.append_assoc, List.cons_append]
        have second : Plainly ("sealed".toList ++ ' ' :: modifiersText ms rest) :=
          plainly_word (by decide) (List.all_eq_true.mp rfl) later
        exact plainly_word (by decide) (List.all_eq_true.mp rfl)
          (plainly_before (by decide) second (by simp; decide))
      · apply plainly_word _ (keyword_parts m single) later
        cases m <;> decide

theorem parameters_plain (ps : List ParameterSpec)
    (fit : ∀ p ∈ ps, isIdentifier p.name = true ∧ FitType ["sealed"] p.type)
    (plain : Plainly rest) : Plainly (parametersText ps rest) := by
  induction ps with
  | nil => exact plain
  | cons p ps ih =>
      obtain ⟨⟨named, type⟩, others⟩ := List.forall_mem_cons.mp fit
      cases ps with
      | nil => exact plainly_type type (plainly_name named plain)
      | cons q ps =>
          exact plainly_type type (plainly_name named
            (plainly_symbol (by decide) (plainly_space (ih others))))

theorem method_plain (spec : MethodSpec) (sound : SoundMethod spec) (plain : Plainly rest) :
    Plainly (methodText spec rest) := by
  apply plainly_space
  apply plainly_space
  apply modifiers_plain
  apply plainly_type sound.returns
  apply plainly_name sound.name
  apply plainly_symbol (by decide)
  apply parameters_plain _ sound.parameters
  apply plainly_symbol (by decide)
  apply plainly_space
  apply plainly_symbol (by decide)
  apply plainly_line
  apply plainly_space
  apply plainly_space
  apply plainly_symbol (by decide)
  exact plainly_line plain

theorem methods_plain (specs : List MethodSpec) (sound : ∀ spec ∈ specs, SoundMethod spec)
    (plain : Plainly rest) : Plainly (methodsText specs rest) := by
  induction specs with
  | nil => exact plain
  | cons spec specs ih =>
      obtain ⟨own, others⟩ := List.forall_mem_cons.mp sound
      cases specs with
      | nil => exact method_plain spec own plain
      | cons second specs => exact method_plain spec own (plainly_line (ih others))

theorem class_plain (name : String) (specs : List MethodSpec) (named : isIdentifier name = true)
    (sound : ∀ spec ∈ specs, SoundMethod spec) : Plainly (classText name specs) := by
  apply plainly_word (by decide) (List.all_eq_true.mp rfl)
  apply plainly_space
  apply plainly_word (by decide) (List.all_eq_true.mp rfl)
  apply plainly_space
  apply plainly_name named
  apply plainly_space
  apply plainly_symbol (by decide)
  apply plainly_line
  apply methods_plain specs sound
  apply plainly_symbol (by decide)
  exact plainly_line plainly_nothing

def dottedText : List String → List Char → List Char
  | [], rest => rest
  | [w], rest => w.toList ++ rest
  | w :: ws, rest => w.toList ++ '.' :: dottedText ws rest

theorem dotted_text (names : List String) :
    (".".intercalate names).toList ++ rest = dottedText names rest := by
  rw [String.toList_intercalate]
  induction names with
  | nil => rfl
  | cons w names ih =>
      cases names with
      | nil => simp [dottedText]
      | cons v names =>
          rw [dottedText, ← ih, List.map_cons, List.map_cons, List.intercalate_cons_cons]
          · simp
          · exact fun nothing => nomatch nothing

theorem dotted_plain (names : List String) (named : ∀ w ∈ names, isIdentifier w = true)
    (plain : Plainly rest) : Plainly (dottedText names rest) := by
  induction names with
  | nil => exact plain
  | cons w names ih =>
      obtain ⟨own, others⟩ := List.forall_mem_cons.mp named
      cases names with
      | nil => exact plainly_name own plain
      | cons v names =>
          have next : ∀ d ∈ (dottedText (v :: names) rest).head?, isNameStart d = true := by
            obtain ⟨c, more, chars, start, _⟩ := identifier_shape (others v (by simp))
            cases names <;> simpa [dottedText, chars] using start
          exact plainly_name own (plainly_before (by decide) (ih others) next)

theorem dotted_solid (names : List String) (named : ∀ w ∈ names, isIdentifier w = true) :
    ∀ c ∈ dottedText names [], isSpace c = false := by
  have solid (w : String) (own : isIdentifier w = true) : ∀ c ∈ w.toList, isSpace c = false :=
    fun c member => name_part_solid (identifier_chars own c member)
  induction names with
  | nil => exact List.forall_mem_nil _
  | cons w names ih =>
      obtain ⟨own, others⟩ := List.forall_mem_cons.mp named
      cases names with
      | nil => simpa [dottedText] using solid w own
      | cons v names =>
          exact List.forall_mem_append.mpr
            ⟨solid w own, List.forall_mem_cons.mpr ⟨rfl, ih others⟩⟩

theorem package_plain (package : String) (accepted : isPackageName package = true)
    (plain : Plainly rest) : Plainly (packageText package rest) := by
  unfold packageText
  by_cases unnamed : package.isEmpty = true
  · rwa [if_pos unnamed]
  · rw [if_neg unnamed, ← intercalate_folders accepted, dotted_text]
    apply plainly_word (by decide) (List.all_eq_true.mp rfl)
    apply plainly_space
    apply dotted_plain _ (folders_named accepted)
    apply plainly_symbol (by decide)
    exact plainly_line (plainly_line plain)

end Plain

section Marks

variable {whole rest : List Char} {us : List Token} (code : ∀ c ∈ whole, isCodeChar c = true)

theorem Stretch.symbolMark {c : Char} (stretch : Stretch whole (c :: rest) us)
    (symbol : c ∈ codeSymbols) :
    ∃ t ws, us = t :: ws ∧ SymbolMark (String.ofList [c]) t ∧ Stretch whole rest ws := by
  obtain ⟨solid, other⟩ := symbol_apart symbol
  obtain ⟨a, ws, rfl, later⟩ := stretch.symbol solid other
  exact ⟨_, ws, rfl, ⟨rfl, rfl⟩, later⟩

/-- The hyphenated modifier makes three marks that touch. -/
theorem marks_non_sealed (a : Nat) : marks a Modifier.nonSealed.keyword.toList =
    [⟨.word, "non", a, a + 3⟩, ⟨.symbol, "-", a + 3, a + 4⟩, ⟨.word, "sealed", a + 4, a + 10⟩] := by
  have halves : Modifier.nonSealed.keyword.toList =
      "non".toList ++ '-' :: ("sealed".toList ++ []) := rfl
  have ends : Ends ('-' :: ("sealed".toList ++ [])) := rfl
  have last : Ends [] := rfl
  rw [halves, marks_word a _ _ (by decide) (List.all_eq_true.mp rfl) ends,
    marks_symbol _ _ _ rfl rfl, marks_word _ _ [] (by decide) (List.all_eq_true.mp rfl) last,
    String.ofList_toList, String.ofList_toList]
  rfl

theorem Stretch.modifiersMarks {ms : List Modifier}
    (stretch : Stretch whole (modifiersText ms rest) us) :
    ∃ vs ws, us = vs ++ ws ∧ ModifiersMarks ms vs ∧ Stretch whole rest ws := by
  induction ms generalizing us with
  | nil => exact ⟨[], us, rfl, .none, stretch⟩
  | cons m ms ih =>
      have own : ∃ vs ws, us = vs ++ ws ∧ ModifierMarks m vs ∧
          Stretch whole (' ' :: modifiersText ms rest) ws := by
        by_cases single : m = .nonSealed
        · subst single
          obtain ⟨vs, ws, rfl, own, later⟩ := stretch.split (.inr rfl)
          obtain ⟨before, _, _, rfl⟩ := own
          rw [marks_non_sealed]
          exact ⟨_, ws, rfl, .nonSealed, later⟩
        · obtain ⟨a, ws, rfl, later⟩ :=
            stretch.word (by cases m <;> decide) (keyword_parts m single) rfl
          exact ⟨[_], ws, rfl, .word single, later⟩
      obtain ⟨vs, ws, rfl, marks, later⟩ := own
      obtain ⟨more, others, rfl, further, last⟩ := ih (later.blank rfl)
      exact ⟨vs ++ more, others, (List.append_assoc _ _ _).symm, .more marks further, last⟩

include code

theorem Stretch.wordMark {w : String} (stretch : Stretch whole (w.toList ++ rest) us)
    (filled : w.toList ≠ []) (parts : ∀ c ∈ w.toList, isNamePart c = true) (ends : Ends rest) :
    ∃ t ws, us = t :: ws ∧ WordMark ⟨whole⟩ w t ∧ Stretch whole rest ws := by
  obtain ⟨a, ws, rfl, later⟩ := stretch.word filled parts ends
  refine ⟨_, ws, rfl, ⟨rfl, rfl, fun n start stop => ?_⟩, later⟩
  exact stretch.shows code List.mem_cons_self start stop

theorem Stretch.nameMark {w : String} (stretch : Stretch whole (w.toList ++ rest) us)
    (named : isIdentifier w = true) (ends : Ends rest) :
    ∃ t ws, us = t :: ws ∧ WordMark ⟨whole⟩ w t ∧ Stretch whole rest ws :=
  stretch.wordMark code (identifier_filled named) (identifier_chars named) ends

theorem Stretch.typeMarks {words : List String} {type : String}
    (stretch : Stretch whole (type.toList ++ ' ' :: rest) us) (fit : FitType words type) :
    ∃ vs ws, us = vs ++ ws ∧ TypeMarks ⟨whole⟩ type vs ∧ Stretch whole rest ws := by
  obtain ⟨vs, ws, rfl, own, later⟩ := stretch.split (.inr rfl)
  obtain ⟨written, told⟩ := own.type code fit.accepted fit.isType
  refine ⟨vs, ws, rfl, ⟨written, ?_, told⟩, later.blank rfl⟩
  -- The first mark is the run of name characters at the front.
  obtain ⟨before, behind, _, rfl⟩ := own
  obtain ⟨c, chars, same, start⟩ := type_start fit.accepted
  obtain ⟨run, others, cut, parts, ends⟩ := split_run isNamePart type.toList
  have filled : run ≠ [] := by
    rintro rfl
    rw [same, List.nil_append] at cut
    rw [← cut] at ends
    simp [name_part_of_start start] at ends
  intro t first
  rw [cut, marks_word _ _ _ filled parts ends] at first
  rw [leadingWord, cut, take_run _ _ _ parts ends]
  cases first
  rfl

theorem Stretch.parametersMarks {ps : List ParameterSpec}
    (stretch : Stretch whole (parametersText ps (')' :: rest)) us)
    (fit : ∀ p ∈ ps, isIdentifier p.name = true ∧ FitType ["sealed"] p.type) :
    ∃ vs ws, us = vs ++ ws ∧ ParameterList ⟨whole⟩ ps vs ∧ Stretch whole (')' :: rest) ws := by
  induction ps generalizing us with
  | nil => exact ⟨[], us, rfl, .inl ⟨rfl, rfl⟩, stretch⟩
  | cons p ps ih =>
      obtain ⟨⟨named, type⟩, others⟩ := List.forall_mem_cons.mp fit
      cases ps with
      | nil =>
          obtain ⟨vs, _, rfl, typed, later⟩ := stretch.typeMarks code type
          obtain ⟨t, ws, rfl, name, last⟩ := later.nameMark code named rfl
          exact ⟨vs ++ [t], ws, by simp, .inr (.single typed name), last⟩
      | cons q ps =>
          obtain ⟨vs, _, rfl, typed, behind⟩ := stretch.typeMarks code type
          obtain ⟨t, _, rfl, name, comma⟩ := behind.nameMark code named rfl
          obtain ⟨a, _, rfl, later⟩ := comma.symbol rfl rfl
          obtain ⟨more, ws, rfl, list, last⟩ := ih (later.blank rfl) others
          rcases list with ⟨nothing, _⟩ | list
          · cases nothing
          · refine ⟨vs ++ t :: ⟨.symbol, ",", a, a + 1⟩ :: more, ws, ?_, .inr (.more typed name list),
              last⟩
            rw [List.append_assoc]
            rfl

theorem Stretch.methodMarks {spec : MethodSpec} (stretch : Stretch whole (methodText spec rest) us)
    (sound : SoundMethod spec) :
    ∃ vs ws, us = vs ++ ws ∧ MethodMarks ⟨whole⟩ spec vs ∧ Stretch whole rest ws := by
  obtain ⟨ms, _, rfl, modifiers, heading⟩ := ((stretch.blank rfl).blank rfl).modifiersMarks
  obtain ⟨ts, _, rfl, type, named⟩ := heading.typeMarks code sound.returns
  obtain ⟨name, _, rfl, own, opened⟩ := named.nameMark code sound.name rfl
  obtain ⟨o, _, rfl, opens, listed⟩ := opened.symbolMark (by decide)
  obtain ⟨ps, _, rfl, parameters, closed⟩ := listed.parametersMarks code sound.parameters
  obtain ⟨c, _, rfl, closes, body⟩ := closed.symbolMark (by decide)
  obtain ⟨ob, _, rfl, begins, inside⟩ := (body.blank rfl).symbolMark (by decide)
  obtain ⟨cb, ws, rfl, ends, later⟩ :=
    (((inside.blank rfl).blank rfl).blank rfl).symbolMark (by decide)
  refine ⟨ms ++ (ts ++ name :: o :: (ps ++ [c, ob, cb])), ws, by simp,
    .intro modifiers type own opens parameters closes begins ends, later.blank rfl⟩

theorem Stretch.methodsMarks {specs : List MethodSpec}
    (stretch : Stretch whole (methodsText specs rest) us)
    (sound : ∀ spec ∈ specs, SoundMethod spec) :
    ∃ vs ws, us = vs ++ ws ∧ MethodsMarks ⟨whole⟩ specs vs ∧ Stretch whole rest ws := by
  induction specs generalizing us with
  | nil => exact ⟨[], us, rfl, .none, stretch⟩
  | cons spec specs ih =>
      obtain ⟨own, others⟩ := List.forall_mem_cons.mp sound
      cases specs with
      | nil =>
          obtain ⟨vs, ws, rfl, marks, later⟩ := stretch.methodMarks code own
          exact ⟨vs, ws, rfl, List.append_nil vs ▸ .more marks .none, later⟩
      | cons second specs =>
          obtain ⟨vs, _, rfl, marks, later⟩ := stretch.methodMarks code own
          obtain ⟨more, ws, rfl, further, last⟩ := ih (later.blank rfl) others
          exact ⟨vs ++ more, ws, (List.append_assoc _ _ _).symm, .more marks further, last⟩

theorem Stretch.classMarks {name : String} {specs : List MethodSpec}
    (stretch : Stretch whole (classText name specs) us) (named : isIdentifier name = true)
    (sound : ∀ spec ∈ specs, SoundMethod spec) : ClassMarks ⟨whole⟩ name specs us := by
  obtain ⟨a, _, rfl, behind⟩ := stretch.word (by decide) (List.all_eq_true.mp rfl) rfl
  obtain ⟨cls, _, rfl, keyword, heading⟩ :=
    (behind.blank rfl).wordMark code (by decide) (List.all_eq_true.mp rfl) rfl
  obtain ⟨t, _, rfl, own, opened⟩ := (heading.blank rfl).nameMark code named rfl
  obtain ⟨ob, _, rfl, begins, inside⟩ := (opened.blank rfl).symbolMark (by decide)
  obtain ⟨ms, _, rfl, methods, closed⟩ := (inside.blank rfl).methodsMarks code sound
  obtain ⟨cb, _, rfl, ends, last⟩ := closed.symbolMark (by decide)
  rw [(last.blank rfl).empty]
  have modifier : ModifierMarks .publicAccess [⟨.word, "public", a, a + "public".toList.length⟩] :=
    .word (by decide)
  exact .intro (.more modifier .none) keyword own begins methods ends

theorem Stretch.nameTail {names : List String} (stretch : Stretch whole (dottedText names []) us)
    (named : ∀ w ∈ names, isIdentifier w = true) (filled : names ≠ []) :
    ∃ first tail, us = first :: tail ∧ first.shape = .word ∧ NameTail tail := by
  induction names generalizing us with
  | nil => exact absurd rfl filled
  | cons w names ih =>
      obtain ⟨own, others⟩ := List.forall_mem_cons.mp named
      cases names with
      | nil =>
          obtain ⟨t, _, rfl, mark, last⟩ := stretch.nameMark code own rfl
          rw [last.empty]
          exact ⟨t, [], rfl, mark.word, .none⟩
      | cons v names =>
          obtain ⟨t, _, rfl, mark, dotted⟩ := stretch.nameMark code own rfl
          obtain ⟨dot, _, rfl, point, later⟩ := dotted.symbolMark (by decide)
          obtain ⟨first, tail, rfl, word, further⟩ := ih later others (List.cons_ne_nil v names)
          exact ⟨t, _, rfl, mark.word, .more point word further⟩

theorem Stretch.packageTold {package : String} (stretch : Stretch whole package.toList us)
    (accepted : isPackageName package = true) (filled : package ≠ "") {n : Node}
    (covers : Covers n us) : (Source.mk whole).text n = package := by
  have solid := dotted_solid _ (folders_named accepted)
  rw [← dotted_text, List.append_nil, intercalate_folders accepted] at solid
  have head : package.toList.head?.any (!isSpace ·) = true := by
    cases chars : package.toList with
    | nil => exact absurd (String.toList_eq_nil_iff.mp chars) filled
    | cons c others => simp [solid c (by simp [chars])]
  obtain ⟨core, blanks, cut, all, told⟩ := stretch.told code head
  have none' : blanks = [] := by
    refine List.eq_nil_iff_forall_not_mem.mpr fun c member => ?_
    have other := solid c (by simp [cut, member])
    rw [all c member] at other
    cases other
  rw [told n covers, ← List.append_nil core, ← none', ← cut, String.ofList_toList]

theorem Stretch.packageLine {package : String} (stretch : Stretch whole (packageText package rest) us)
    (accepted : isPackageName package = true) :
    ∃ vs ws, us = vs ++ ws ∧ PackageLine ⟨whole⟩ package vs ∧ Stretch whole rest ws := by
  unfold packageText at stretch
  by_cases unnamed : package.isEmpty = true
  · rw [if_pos unnamed] at stretch
    exact ⟨[], us, rfl, .inl ⟨String.isEmpty_iff.mp unnamed, rfl⟩, stretch⟩
  · rw [if_neg unnamed] at stretch
    have filled : package ≠ "" := fun empty => unnamed (String.isEmpty_iff.mpr empty)
    have folders : packageFolders package ≠ [] := by
      intro none'
      have joined := intercalate_folders accepted
      rw [none'] at joined
      exact filled joined.symm
    obtain ⟨keyword, _, rfl, declares, named⟩ :=
      stretch.wordMark code (by decide) (List.all_eq_true.mp rfl) rfl
    obtain ⟨vs, _, rfl, own, closed⟩ := (named.blank rfl).split (.inr rfl)
    obtain ⟨semicolon, ws, rfl, ends, later⟩ := closed.symbolMark (by decide)
    have told := fun n => own.packageTold code accepted filled (n := n)
    rw [← List.append_nil package.toList, ← intercalate_folders accepted, dotted_text] at own
    obtain ⟨first, tail, rfl, word, dotted⟩ :=
      own.nameTail code (folders_named accepted) folders
    exact ⟨keyword :: first :: (tail ++ [semicolon]), ws, by simp,
      .inr ⟨filled, .intro declares word dotted told ends⟩, (later.blank rfl).blank rfl⟩

end Marks

end JavaOutline.Generate
