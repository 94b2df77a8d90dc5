import JavaOutline.Proofs.Generate.Stretches

/-!
Which texts are plain code, put together from their front. A type is plain code because no two of
its dots and opening brackets stand side by side.
-/
namespace JavaOutline.Generate

open JavaOutline.Grammar
open JavaOutline.Tree

/-- The pairs of characters of plain code that make a longer symbol. -/
def joined : List (Char × Char) :=
  [('.', '.'), ('<', '<'), ('>', '>'), ('-', '-'), ('-', '>')]

theorem joined_known :
    symbols.all (fun symbol => match symbol.toList with
      | c :: d :: _ => !isCodeChar c || !isCodeChar d || joined.contains (c, d)
      | _ => true) = true := by
  decide +kernel

theorem beside_apart {c d : Char} (first : isCodeChar c = true) (second : isCodeChar d = true)
    (digit : d.isDigit = false) (apart : (c, d) ∈ joined → c = '>' ∧ d = '>') :
    beside c d = true := by
  rw [beside, digit]
  by_cases brackets : c = '>' ∧ d = '>'
  · simp [brackets]
  · have free : symbols.all (fun symbol => !List.isPrefixOf [c, d] symbol.toList) = true := by
      rw [List.all_eq_true]
      intro symbol member
      have known := List.all_eq_true.mp joined_known symbol member
      cases chars : symbol.toList with
      | nil => rfl
      | cons a others =>
          cases others with
          | nil => simp [List.isPrefixOf]
          | cons b others =>
              by_contra begins
              have same : c = a ∧ d = b := by simpa [List.isPrefixOf] using begins
              obtain ⟨rfl, rfl⟩ := same
              simp only [chars, first, second, Bool.not_true, Bool.false_or,
                List.contains_iff_mem] at known
              exact brackets (apart known)
    simp [free]

def looseSymbols : List Char :=
  ['(', ')', '\x7b', '\x7d', ';', ',']

section Plain

variable {c : Char} {front rest : List Char}

theorem plainly_nothing : Plainly [] :=
  ⟨List.forall_mem_nil _, .nil, rfl⟩

theorem Plainly.append (before : Plainly front) (behind : Plainly rest)
    (next : ∀ c ∈ front.getLast?, ∀ d ∈ rest.head?, beside c d = true) :
    Plainly (front ++ rest) := by
  constructor
  · exact List.forall_mem_append.mpr ⟨before.code, behind.code⟩
  · exact List.isChain_append.mpr ⟨before.calm, behind.calm, next⟩
  · cases front with
    | nil => exact behind.ends
    | cons c front => exact before.ends

theorem Plainly.first (plain : Plainly rest) {d : Char} (first : d ∈ rest.head?) :
    isCodeChar d = true ∧ d.isDigit = false := by
  obtain ⟨others, rfl⟩ := List.head?_eq_some_iff.mp first
  exact ⟨plain.code d List.mem_cons_self, plain.ends⟩

theorem digit_no_start {c : Char} (start : isNameStart c = true) : c.isDigit = false := by
  by_contra digit
  have range : 48 ≤ c.toNat ∧ c.toNat ≤ 57 := by
    simpa [Char.isDigit, UInt32.le_iff_toNat_le] using digit
  rcases name_start_range start with upper | lower | rfl | rfl
  · omega
  · omega
  · revert range
    decide
  · revert range
    decide

theorem Plainly.cons (plain : Plainly rest) (code : isCodeChar c = true) (digit : c.isDigit = false)
    (apart : ∀ d ∈ rest.head?, (c, d) ∉ joined) : Plainly (c :: rest) := by
  have own : Plainly [c] := ⟨by simpa using code, .singleton c, digit⟩
  apply own.append plain
  intro e last d first
  have same : c = e := by simpa using last
  subst same
  obtain ⟨second, other⟩ := plain.first first
  exact beside_apart code second other fun among => absurd among (apart d first)

theorem plainly_blank (blank : isSpace c = true) (plain : Plainly rest) : Plainly (c :: rest) := by
  apply plain.cons (by simp [isCodeChar, blank]) (part_digit (space_no_part blank))
  intro d first among
  have known : joined.all (fun pair => !isSpace pair.1) = true := by decide
  have other := List.all_eq_true.mp known (c, d) among
  simp [blank] at other

theorem plainly_symbol (loose : c ∈ looseSymbols) (plain : Plainly rest) :
    Plainly (c :: rest) := by
  have known : looseSymbols.all (fun c => isCodeChar c && !c.isDigit &&
      joined.all fun pair => pair.1 != c) = true := by decide
  have own := List.all_eq_true.mp known c loose
  simp only [Bool.and_eq_true, Bool.not_eq_true'] at own
  obtain ⟨⟨code, digit⟩, other⟩ := own
  apply plain.cons code digit
  intro d _ among
  simpa using List.all_eq_true.mp other (c, d) among

theorem plainly_before (symbol : c ∈ codeSymbols) (plain : Plainly rest)
    (word : ∀ d ∈ rest.head?, isNameStart d = true) : Plainly (c :: rest) := by
  apply plain.cons (by simp [isCodeChar, symbol]) (part_digit (symbol_apart symbol).2)
  intro d first among
  have other : joined.all (fun pair => !isNameStart pair.2) = true := by decide
  have second := List.all_eq_true.mp other (c, d) among
  simp [word d first] at second

theorem calm_word {word : List Char} (parts : ∀ c ∈ word, isNamePart c = true) :
    word.IsChain fun c d => beside c d = true := by
  apply List.isChain_iff_forall_rel_of_append_cons_cons.mpr
  rintro c d before behind rfl
  rw [beside, parts c (by simp), Bool.true_or]

theorem plainly_word {word : List Char} (start : word.head?.all isNameStart = true)
    (parts : ∀ c ∈ word, isNamePart c = true) (plain : Plainly rest) : Plainly (word ++ rest) := by
  have own : Plainly word := by
    constructor
    · exact fun c member => by simp [isCodeChar, parts c member]
    · exact calm_word parts
    · cases word with
      | nil => rfl
      | cons c word => exact digit_no_start start
  apply own.append plain
  intro c last d _
  rw [beside, parts c (List.mem_of_getLast? last), Bool.true_or]

end Plain

/-- Marks whose words start like names, and whose dots and opening angle brackets stand in front of
words, question marks and closing brackets. -/
structure Tame (us : List Token) : Prop where
  calm : us.IsChain fun t u => t.text ∈ [".", "<"] → u.shape = .word ∨ u.text ∈ ["?", ">"]
  ends : ∀ t ∈ us.getLast?, t.text ∉ [".", "<"]
  words : ∀ t ∈ us, t.shape = .word → t.text.toList.head?.any isNameStart = true

section Tame

variable {us vs : List Token} {t : Token}

theorem Tame.append (before : Tame us) (behind : Tame vs) : Tame (us ++ vs) := by
  constructor
  · apply List.isChain_append.mpr ⟨before.calm, behind.calm, _⟩
    intro t last u _ opens
    exact absurd opens (before.ends t last)
  · intro t last
    rw [List.getLast?_append] at last
    cases other : vs.getLast? with
    | none => exact before.ends t (by simpa [other] using last)
    | some u => exact behind.ends t (by simpa [other] using last)
  · exact List.forall_mem_append.mpr ⟨before.words, behind.words⟩

theorem tame_single (ends : t.text ∉ [".", "<"])
    (word : t.shape = .word → t.text.toList.head?.any isNameStart = true) : Tame [t] :=
  ⟨.singleton t, by simpa using ends, by simpa using word⟩

theorem tame_word (start : t.text.toList.head?.any isNameStart = true) : Tame [t] := by
  apply tame_single _ fun _ => start
  intro among
  have other : ∀ text ∈ [".", "<"], text.toList.head?.any isNameStart = false := by decide
  rw [other t.text among] at start
  cases start

theorem Tame.before (behind : Tame (t :: us)) (opened : t.shape = .word ∨ t.text ∈ ["?", ">"])
    {open' : Token} (symbol : open'.shape = .symbol) : Tame (open' :: t :: us) := by
  constructor
  · exact List.isChain_cons_cons.mpr ⟨fun _ => opened, behind.calm⟩
  · intro u last
    rw [List.getLast?_cons_cons] at last
    exact behind.ends u last
  · refine List.forall_mem_cons.mpr ⟨fun word => ?_, behind.words⟩
    rw [symbol] at word
    cases word

theorem identifier_start {w : String} (named : isIdentifier w = true) :
    w.toList.head?.any isNameStart = true := by
  obtain ⟨c, rest, chars, start, _⟩ := identifier_shape named
  simpa [chars] using start

theorem Written.tame {part : TypePart} {us : List Token} (written : Written part us) : Tame us := by
  induction written with
  | identifier named => exact tame_word (identifier_start named)
  | primitive known =>
      have letters : ∀ w ∈ primitiveWords, w.toList.head?.any isNameStart = true := by decide
      exact tame_word (letters _ known)
  | member _ named ih =>
      exact ih.append ((tame_word (identifier_start named)).before (.inl rfl) rfl)
  | diamond _ _ ih =>
      exact ih.append ((tame_single (by simp) (by simp)).before (.inr (by simp)) rfl)
  | generic _ arguments _ ih inner =>
      obtain ⟨t, rest, rfl, opened, _⟩ := arguments.opens (.inr rfl)
      apply ih.append
      apply Tame.before (inner.append (tame_single (by simp) (by simp))) _ rfl
      exact opened.imp_right fun same => by simp [same]
  | pair =>
      exact (tame_single (by simp) (by simp)).append (tame_single (by simp) (by simp))
  | morePairs _ ih =>
      exact (tame_single (by simp) (by simp)).append ((tame_single (by simp) (by simp)).append ih)
  | array _ _ ih inner => exact ih.append inner
  | wildcard => exact tame_single (by simp) (by simp)
  | bounded bound _ ih =>
      apply (tame_single (by simp) (by simp)).append
      have letters : ∀ w ∈ ["extends", "super"], w.toList.head?.any isNameStart = true := by decide
      exact (tame_word (letters _ (by simpa using bound))).append ih
  | listed _ _ ih inner =>
      exact ih.append ((tame_single (by simp) (by simp)).append inner)
  | bare _ ih | reference _ ih | simple _ ih | type _ ih | lone _ ih => exact ih

end Tame

theorem digit_mark (offset : Nat) (d : Char) (rest : List Char) (digit : d.isDigit = true) :
    ∃ t ∈ marks offset (d :: rest), t.shape = .word ∧
      t.text.toList.head?.any isNameStart = false := by
  have part := digit_part digit
  have start : isNameStart d = false := by
    by_contra start
    rw [Bool.not_eq_false] at start
    rw [digit_no_start start] at digit
    cases digit
  obtain ⟨run, others, rfl, parts, ends⟩ := split_run isNamePart rest
  have all : ∀ c ∈ d :: run, isNamePart c = true := List.forall_mem_cons.mpr ⟨part, parts⟩
  rw [← List.cons_append, marks_word _ _ _ (List.cons_ne_nil d run) all ends]
  exact ⟨_, List.mem_cons_self, rfl, by simpa using start⟩

theorem digit_unnamed (offset : Nat) (d : Char) (rest : List Char)
    (words : ∀ t ∈ marks offset (d :: rest), t.shape = .word →
      t.text.toList.head?.any isNameStart = true) : d.isDigit = false := by
  by_contra digit
  obtain ⟨t, member, word, other⟩ := digit_mark offset d rest (by simpa using digit)
  rw [words t member word] at other
  cases other

/-- Code whose marks are tame has no number in it and no symbol longer than a mark. -/
theorem calm_of_marks (offset : Nat) (chars : List Char) (code : ∀ c ∈ chars, isCodeChar c = true)
    (bare : '-' ∉ chars) (calm : (marks offset chars).IsChain fun t u =>
      t.text ∈ [".", "<"] → u.shape = .word ∨ u.text ∈ ["?", ">"])
    (words : ∀ t ∈ marks offset chars, t.shape = .word →
      t.text.toList.head?.any isNameStart = true) :
    chars.IsChain fun c d => beside c d = true := by
  -- By runs: the marks of the rest are those of the whole without the first one.
  induction chars using by_runs generalizing offset with
  | nil => exact .nil
  | blank c rest blank ih =>
      rw [marks_blank _ _ _ blank] at calm words
      obtain ⟨own, inner⟩ := List.forall_mem_cons.mp code
      have later := ih (offset + 1) inner (fun member => bare (List.mem_cons_of_mem c member))
        calm words
      cases rest with
      | nil => exact .singleton c
      | cons d rest =>
          refine List.isChain_cons_cons.mpr ⟨?_, later⟩
          apply beside_apart own (inner d List.mem_cons_self) (digit_unnamed _ d rest words)
          intro among
          have known : joined.all (fun pair => !isSpace pair.1) = true := by decide
          have other := List.all_eq_true.mp known (c, d) among
          simp [blank] at other
  | symbol c rest solid other ih =>
      rw [marks_symbol _ _ _ solid other] at calm words
      obtain ⟨own, inner⟩ := List.forall_mem_cons.mp code
      have within := (List.forall_mem_cons.mp words).2
      have later := ih (offset + 1) inner (fun member => bare (List.mem_cons_of_mem c member))
        calm.tail within
      cases rest with
      | nil => exact .singleton c
      | cons d rest =>
          refine List.isChain_cons_cons.mpr ⟨?_, later⟩
          apply beside_apart own (inner d List.mem_cons_self) (digit_unnamed _ d rest within)
          intro among
          simp only [joined, List.mem_cons, Prod.mk.injEq, List.not_mem_nil, or_false] at among
          -- A second dot or bracket would be the next mark.
          rcases among with ⟨rfl, rfl⟩ | ⟨rfl, rfl⟩ | brackets | ⟨rfl, _⟩ | ⟨rfl, _⟩
          · have dot : String.ofList ['.'] = "." := rfl
            rw [marks_symbol (offset + 1) '.' rest rfl rfl, dot] at calm
            exact absurd ((List.isChain_cons_cons.mp calm).1 (by simp)) (by simp)
          · have bracket : String.ofList ['<'] = "<" := rfl
            rw [marks_symbol (offset + 1) '<' rest rfl rfl, bracket] at calm
            exact absurd ((List.isChain_cons_cons.mp calm).1 (by simp)) (by simp)
          · exact brackets
          · exact absurd List.mem_cons_self bare
          · exact absurd List.mem_cons_self bare
  | word word rest filled parts ends ih =>
      rw [marks_word _ _ _ filled parts ends] at calm words
      have later := ih _ (fun c member => code c (List.mem_append_right word member))
        (fun member => bare (List.mem_append_right word member)) calm.tail
        (List.forall_mem_cons.mp words).2
      refine List.isChain_append.mpr ⟨calm_word parts, later, ?_⟩
      intro c last d _
      rw [beside, parts c (List.mem_of_getLast? last), Bool.true_or]

theorem type_plain {type : String} (accepted : isTypeName type = true) (isType : IsType type) :
    Plainly type.toList := by
  unfold isTypeName at accepted
  cases chars : type.toList with
  | nil => simp [chars] at accepted
  | cons c rest =>
      simp only [chars, Bool.and_eq_true, List.all_eq_true] at accepted
      obtain ⟨⟨⟨start, parts⟩, _⟩, _⟩ := accepted
      have known : ['.', '<', '>', ',', '?', '[', ']', ' '].all (fun c => isCodeChar c && c != '-') =
          true := by decide
      have all : ∀ d ∈ c :: rest, isCodeChar d = true ∧ d ≠ '-' := by
        intro d member
        have own : isTypePart d = true := by
          rcases List.mem_cons.mp member with rfl | further
          · simp [isTypePart, isNamePart, start]
          · exact parts d further
        rw [isTypePart, Bool.or_eq_true] at own
        rcases own with part | symbol
        · refine ⟨by simp [isCodeChar, part], ?_⟩
          rintro rfl
          cases part
        · simpa using List.all_eq_true.mp known d (List.contains_iff_mem.mp symbol)
      have tame := isType.tame
      rw [chars] at tame
      refine ⟨fun d member => (all d member).1, ?_, digit_no_start start⟩
      exact calm_of_marks 0 _ (fun d member => (all d member).1)
        (fun member => (all '-' member).2 rfl) tame.calm tame.words

end JavaOutline.Generate
