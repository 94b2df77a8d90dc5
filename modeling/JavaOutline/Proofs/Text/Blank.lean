import JavaOutline.Text.Blank
import JavaOutline.Text.Identifier

/-!
Texts on one line. Blanks split a text into words wherever it is cut, and everything else follows
from that: a text on one line is its words again, all its blanks are single spaces within, and how
much blank stands between two tokens does not matter as long as there is some.
-/
namespace JavaOutline.Text

def solid (chars : List Char) : List Char :=
  chars.filter fun c => !isBlank c

/-- A text without blanks that is not empty. -/
structure Word (chars : List Char) : Prop where
  filled : chars ≠ []
  solid : ∀ c ∈ chars, isBlank c = false

theorem words_blank {c : Char} (blank : isBlank c = true) (rest : List Char) :
    words (c :: rest) = words rest := by
  rw [words.eq_def]
  dsimp only
  rw [if_pos blank]

theorem words_single {c : Char} (solid : isBlank c = false) : words [c] = [[c]] := by
  rw [words.eq_def]
  dsimp only
  rw [if_neg (by simp [solid])]
  rfl

theorem words_apart {c d : Char} (solid : isBlank c = false) (blank : isBlank d = true)
    (rest : List Char) : words (c :: d :: rest) = [c] :: words rest := by
  rw [words.eq_def]
  dsimp only
  rw [if_neg (by simp [solid]), words_blank blank]
  cases words rest with
  | nil => rfl
  | cons word others => simp [blank]

theorem words_joined {c d : Char} (solid : isBlank c = false) (inside : isBlank d = false)
    (rest : List Char) : ∃ word others, words (d :: rest) = word :: others ∧
      words (c :: d :: rest) = (c :: word) :: others := by
  induction rest generalizing c d with
  | nil =>
      refine ⟨[d], [], words_single inside, ?_⟩
      rw [words.eq_def]
      dsimp only
      rw [if_neg (by simp [solid]), words_single inside]
      simp [inside]
  | cons e rest ih =>
      have shape : ∃ word others, words (d :: e :: rest) = word :: others := by
        cases blank : isBlank e with
        | true => exact ⟨_, _, words_apart inside blank rest⟩
        | false =>
            obtain ⟨word, others, _, whole⟩ := ih inside blank
            exact ⟨_, _, whole⟩
      obtain ⟨word, others, same⟩ := shape
      refine ⟨word, others, same, ?_⟩
      rw [words.eq_def]
      dsimp only
      rw [if_neg (by simp [solid]), same]
      simp [inside]

theorem words_cut {c : Char} (blank : isBlank c = true) (front back : List Char) :
    words (front ++ c :: back) = words front ++ words back := by
  induction front with
  | nil => exact words_blank blank back
  | cons a front ih =>
      cases own : isBlank a with
      | true => rw [List.cons_append, words_blank own, words_blank own, ih]
      | false =>
          cases front with
          | nil => rw [List.singleton_append, words_apart own blank, words_single own]; rfl
          | cons b front =>
              cases next : isBlank b with
              | true =>
                  rw [List.cons_append, List.cons_append, words_apart own next,
                    words_apart own next]
                  rw [List.cons_append, words_blank next, words_blank next] at ih
                  rw [ih]
                  rfl
              | false =>
                  -- Both sides put the character in front of the same first word.
                  obtain ⟨word, others, shape, whole⟩ := words_joined own next (front ++ c :: back)
                  obtain ⟨first, later, same, longer⟩ := words_joined own next front
                  rw [List.cons_append, shape, same] at ih
                  obtain ⟨rfl, rfl⟩ := List.cons.inj ih
                  rw [List.cons_append, List.cons_append, whole, longer]
                  rfl

theorem words_none {blanks : List Char} (all : ∀ c ∈ blanks, isBlank c = true) :
    words blanks = [] := by
  induction blanks with
  | nil => rfl
  | cons c rest ih =>
      obtain ⟨own, others⟩ := List.forall_mem_cons.mp all
      rw [words_blank own, ih others]

theorem words_gap {gap : List Char} (filled : gap ≠ []) (all : ∀ c ∈ gap, isBlank c = true)
    (front back : List Char) : words (front ++ gap ++ back) = words front ++ words back := by
  obtain ⟨c, gap, rfl⟩ := List.exists_cons_of_ne_nil filled
  obtain ⟨own, others⟩ := List.forall_mem_cons.mp all
  have behind : words (gap ++ back) = words back := by
    induction gap with
    | nil => rfl
    | cons d gap ih =>
        obtain ⟨next, later⟩ := List.forall_mem_cons.mp others
        rw [List.cons_append, words_blank next]
        exact ih (List.cons_ne_nil _ _) (List.forall_mem_cons.mpr ⟨own, later⟩) later
  rw [List.append_assoc, List.cons_append, words_cut own, behind]

theorem words_trail {front gap : List Char} (all : ∀ c ∈ gap, isBlank c = true) :
    words (front ++ gap) = words front := by
  by_cases none : gap = []
  · rw [none, List.append_nil]
  · have cut := words_gap none all front []
    rwa [List.append_nil, words_none (List.forall_mem_nil _), List.append_nil] at cut

theorem words_lead {gap back : List Char} (all : ∀ c ∈ gap, isBlank c = true) :
    words (gap ++ back) = words back := by
  by_cases none : gap = []
  · rw [none, List.nil_append]
  · have cut := words_gap none all [] back
    rwa [List.nil_append, words_none (List.forall_mem_nil _), List.nil_append] at cut

theorem words_word {word : List Char} (is : Word word) : words word = [word] := by
  obtain ⟨filled, all⟩ := is
  induction word with
  | nil => exact absurd rfl filled
  | cons c rest ih =>
      obtain ⟨own, others⟩ := List.forall_mem_cons.mp all
      cases rest with
      | nil => exact words_single own
      | cons d rest =>
          obtain ⟨word, later, shape, whole⟩ :=
            words_joined own (others d List.mem_cons_self) rest
          rw [ih (List.cons_ne_nil _ _) others] at shape
          obtain ⟨rfl, rfl⟩ := List.cons.inj shape
          exact whole

/-- The words of a text are words, and they hold what is not blank. -/
theorem words_of (chars : List Char) :
    (∀ word ∈ words chars, Word word) ∧ (words chars).flatten = solid chars := by
  -- A character starts a word of its own, or joins the first word of the rest.
  induction chars with
  | nil => exact ⟨fun word member => (nomatch member), rfl⟩
  | cons c rest ih =>
      cases own : isBlank c with
      | true =>
          rw [words_blank own, solid, List.filter_cons_of_neg (by simp [own])]
          exact ih
      | false =>
          have single : Word [c] := ⟨List.cons_ne_nil _ _, by simp [own]⟩
          rw [solid, List.filter_cons_of_pos (by simp [own])]
          cases rest with
          | nil => exact ⟨by simp [words_single own, single], by simp [words_single own]⟩
          | cons d rest =>
              cases next : isBlank d with
              | true =>
                  rw [words_blank next] at ih
                  rw [words_apart own next]
                  exact ⟨List.forall_mem_cons.mpr ⟨single, ih.1⟩, congrArg (c :: ·) ih.2⟩
              | false =>
                  obtain ⟨word, others, shape, whole⟩ := words_joined own next rest
                  rw [shape] at ih
                  obtain ⟨each, joined⟩ := ih
                  obtain ⟨first, later⟩ := List.forall_mem_cons.mp each
                  rw [whole]
                  refine ⟨List.forall_mem_cons.mpr ⟨?_, later⟩, congrArg (c :: ·) joined⟩
                  exact ⟨List.cons_ne_nil _ _, List.forall_mem_cons.mpr ⟨own, first.solid⟩⟩

theorem spaced_cons {word : List Char} {others : List (List Char)} (more : others ≠ []) :
    spaced (word :: others) = word ++ ' ' :: spaced others := by
  cases others with
  | nil => exact absurd rfl more
  | cons next others => rfl

theorem words_spaced {items : List (List Char)} (each : ∀ item ∈ items, Word item) :
    words (spaced items) = items := by
  induction items with
  | nil => rfl
  | cons word others ih =>
      obtain ⟨own, later⟩ := List.forall_mem_cons.mp each
      by_cases more : others = []
      · subst more
        exact words_word own
      · rw [spaced_cons more, words_cut (by decide), words_word own, ih later]
        rfl

theorem solid_spaced {items : List (List Char)} (each : ∀ item ∈ items, Word item) :
    solid (spaced items) = items.flatten := by
  rw [← (words_of (spaced items)).2, words_spaced each]

theorem spaced_append {first second : List (List Char)} (filled : first ≠ []) (more : second ≠ []) :
    spaced (first ++ second) = spaced first ++ ' ' :: spaced second := by
  induction first with
  | nil => exact absurd rfl filled
  | cons word others ih =>
      rw [List.cons_append, spaced_cons (by simp [more])]
      by_cases last : others = []
      · subst last
        rfl
      · rw [ih last, spaced_cons last, List.append_assoc, List.cons_append]

theorem spaced_filled {items : List (List Char)} (each : ∀ item ∈ items, Word item)
    (empty : spaced items = []) : items = [] := by
  rw [← words_spaced each, empty]
  rfl

/-- All blanks of a text are spaces, and each stands between two characters that are not blank. -/
def Tight (chars : List Char) : Prop :=
  ∀ front c back, chars = front ++ c :: back → isBlank c = true →
    c = ' ' ∧ (∃ b, front.getLast? = some b ∧ isBlank b = false) ∧
      ∃ d, back.head? = some d ∧ isBlank d = false

theorem Word.ends {word : List Char} (is : Word word) :
    (∃ b, word.getLast? = some b ∧ isBlank b = false) ∧
      ∃ d, word.head? = some d ∧ isBlank d = false := by
  constructor
  · refine ⟨_, List.getLast?_eq_some_getLast is.filled, is.solid _ (List.getLast_mem is.filled)⟩
  · refine ⟨_, List.head?_eq_some_head is.filled, is.solid _ (List.head_mem is.filled)⟩

theorem spaced_starts {items : List (List Char)} (each : ∀ item ∈ items, Word item)
    (filled : items ≠ []) : ∃ d, (spaced items).head? = some d ∧ isBlank d = false := by
  cases items with
  | nil => exact absurd rfl filled
  | cons word others =>
      obtain ⟨own, _⟩ := List.forall_mem_cons.mp each
      obtain ⟨d, first, inside⟩ := own.ends.2
      refine ⟨d, ?_, inside⟩
      by_cases last : others = []
      · subst last
        exact first
      · rw [spaced_cons last, List.head?_append, first]
        rfl

theorem spaced_tight {items : List (List Char)} (each : ∀ item ∈ items, Word item) :
    Tight (spaced items) := by
  induction items with
  | nil =>
      intro front c back cut
      cases front <;> cases cut
  | cons word others ih =>
      obtain ⟨own, later⟩ := List.forall_mem_cons.mp each
      have outside {front back : List Char} {c : Char} (cut : word = front ++ c :: back) :
          isBlank c = false :=
        own.solid c (by simp [cut])
      intro front c back cut blank
      by_cases last : others = []
      · subst last
        rw [outside cut] at blank
        cases blank
      · have here : ∃ d, (spaced others).head? = some d ∧ isBlank d = false :=
          spaced_starts later last
        rw [spaced_cons last] at cut
        -- The blank is the space behind the first word or stands in the others; the word has none.
        rcases List.append_eq_append_iff.mp cut with ⟨inside, rfl, same⟩ | ⟨inside, rfl, same⟩
        · cases inside with
          | nil =>
              obtain ⟨rfl, rfl⟩ := List.cons.inj same
              rw [List.append_nil]
              exact ⟨rfl, own.ends.1, here⟩
          | cons e inside =>
              obtain ⟨rfl, deeper⟩ := List.cons.inj same
              obtain ⟨space, ⟨b, before, apart⟩, behind⟩ := ih later inside c back deeper blank
              refine ⟨space, ⟨b, ?_, apart⟩, behind⟩
              simp [List.getLast?_append, List.getLast?_cons, before]
        · cases inside with
          | nil =>
              obtain ⟨rfl, rfl⟩ := List.cons.inj same
              rw [List.append_nil] at own
              exact ⟨rfl, own.ends.1, here⟩
          | cons e inside =>
              obtain ⟨rfl, _⟩ := List.cons.inj same
              rw [outside rfl] at blank
              cases blank

theorem Tight.behind {front back : List Char} (tight : Tight (front ++ ' ' :: back)) :
    Tight back := by
  rintro inside c rest rfl blank
  obtain ⟨space, ⟨b, before, apart⟩, next⟩ := tight (front ++ ' ' :: inside) c rest (by simp) blank
  refine ⟨space, ⟨b, ?_, apart⟩, next⟩
  rw [List.getLast?_append] at before
  cases inside with
  | nil =>
      obtain rfl : ' ' = b := by simpa using before
      cases apart
  | cons e inside => simpa [List.getLast?_cons] using before

theorem Tight.spaced {chars : List Char} (tight : Tight chars) : spaced (words chars) = chars := by
  -- The induction is on the length, since a whole word goes at each step.
  induction size : chars.length using Nat.strongRecOn generalizing chars with
  | ind size ih =>
      have whole := List.takeWhile_append_dropWhile (p := fun c => !isBlank c) (l := chars)
      have all := List.all_takeWhile (l := chars) (p := fun c => !isBlank c)
      have ends := List.head?_dropWhile_not (fun c => !isBlank c) chars
      obtain ⟨front, same⟩ : ∃ front, front = chars.takeWhile fun c => !isBlank c := ⟨_, rfl⟩
      rw [← same] at whole all
      have own : ∀ c ∈ front, isBlank c = false := by simpa using all
      cases rest : chars.dropWhile fun c => !isBlank c with
      | nil =>
          rw [rest, List.append_nil] at whole
          subst whole
          by_cases filled : front = []
          · subst filled
            rfl
          · rw [words_word ⟨filled, own⟩]
            rfl
      | cons c back =>
          rw [rest] at whole ends
          subst whole
          have blank : isBlank c = true := by simpa using ends
          obtain ⟨rfl, ⟨b, before, _⟩, d, next, solid⟩ := tight front c back rfl blank
          have filled : front ≠ [] := by
            rintro rfl
            cases before
          have more : words back ≠ [] := by
            intro none
            have empty := (words_of back).2
            obtain ⟨later, rfl⟩ := List.head?_eq_some_iff.mp next
            simp [none, Text.solid, solid] at empty
          have later := ih back.length (by rw [← size]; simp; omega) tight.behind rfl
          rw [words_cut blank, words_word ⟨filled, own⟩, List.singleton_append, spaced_cons more,
            later]

theorem one_line_tight (text : String) : Tight (oneLine text).toList := by
  rw [oneLine, String.toList_ofList]
  exact spaced_tight (words_of text.toList).1

/-- The one-line forms are the texts that are on one line already. -/
theorem one_line_same (text : String) : oneLine text = text ↔ Tight text.toList := by
  constructor
  · intro same
    rw [← same]
    exact one_line_tight text
  · intro tight
    rw [oneLine, tight.spaced, String.ofList_toList]

theorem one_line_word {text : String} (word : Word text.toList) : oneLine text = text := by
  rw [oneLine, words_word word, spaced, String.ofList_toList]

theorem one_line_again (text : String) : oneLine (oneLine text) = oneLine text :=
  (one_line_same _).mpr (one_line_tight text)

theorem one_line_solid (text : String) : solid (oneLine text).toList = solid text.toList := by
  obtain ⟨each, joined⟩ := words_of text.toList
  rw [oneLine, String.toList_ofList, solid_spaced each, joined]

def joined (first second : String) : String :=
  if first = "" then second else if second = "" then first else first ++ " " ++ second

theorem one_line_empty (text : String) : oneLine text = "" ↔ words text.toList = [] := by
  rw [oneLine, ← String.toList_inj, String.toList_ofList]
  constructor
  · exact spaced_filled (words_of text.toList).1
  · intro none
    rw [none]
    rfl

theorem one_line_gap (first gap second : String) (filled : gap ≠ "")
    (all : ∀ c ∈ gap.toList, isBlank c = true) :
    oneLine (first ++ gap ++ second) = joined (oneLine first) (oneLine second) := by
  have cut : words (first ++ gap ++ second).toList =
      words first.toList ++ words second.toList := by
    rw [String.toList_append, String.toList_append]
    exact words_gap (by simpa using filled) all _ _
  unfold joined
  by_cases none : oneLine first = ""
  · rw [if_pos none, oneLine, cut, (one_line_empty first).mp none, List.nil_append, oneLine]
  · rw [if_neg none]
    by_cases last : oneLine second = ""
    · rw [if_pos last, oneLine, cut, (one_line_empty second).mp last, List.append_nil, oneLine]
    · rw [if_neg last, ← String.toList_inj, oneLine, cut, spaced_append
        (mt (one_line_empty first).mpr none) (mt (one_line_empty second).mpr last)]
      simp [oneLine]

def blankRanges : List (Nat × Nat) :=
  [(9, 13), (32, 32), (0x85, 0x85), (0xa0, 0xa0), (0x1680, 0x1680), (0x2000, 0x200a),
    (0x2028, 0x2029), (0x202f, 0x202f), (0x205f, 0x205f), (0x3000, 0x3000)]

theorem blank_ranged {c : Char} (blank : isBlank c = true) :
    ∃ b ∈ blankRanges, b.1 ≤ c.toNat ∧ c.toNat ≤ b.2 := by
  simp only [isBlank, Bool.or_eq_true, Bool.and_eq_true, decide_eq_true_eq, beq_iff_eq] at blank
  simp only [blankRanges, List.mem_cons, List.not_mem_nil, or_false, exists_eq_or_imp,
    exists_eq_left]
  omega

/-- No blank is in the table. -/
def blankless (table : CodeTable) : Bool :=
  table.toList.all fun r => blankRanges.all fun b => b.2.blt r.1 || r.2.blt b.1

theorem uncovered {table : CodeTable} (apart : blankless table = true) {c : Char}
    (blank : isBlank c = true) : table.covers c = false := by
  obtain ⟨b, member, low, high⟩ := blank_ranged blank
  rw [CodeTable.covers, ← Array.any_toList, List.any_eq_false]
  intro r inside within
  have outside := List.all_eq_true.mp (List.all_eq_true.mp apart r inside) b member
  simp only [Bool.or_eq_true, Nat.blt_eq] at outside
  simp only [Bool.and_eq_true, decide_eq_true_eq] at within
  omega

theorem letters_blankless : blankless letterTable = true := by decide +kernel

theorem marks_blankless : blankless markTable = true := by decide +kernel

def plainTable : CodeTable :=
  #[(36, 36), (48, 57), (65, 90), (95, 95), (97, 122)]

theorem plain_covered {c : Char} (plain : isPlainWordChar c = true) :
    plainTable.covers c = true := by
  unfold isPlainWordChar Char.isAlphanum Char.isAlpha Char.isUpper Char.isLower Char.isDigit at plain
  simp only [Bool.or_eq_true, Bool.and_eq_true, decide_eq_true_eq, beq_iff_eq, Char.ext_iff,
    ← UInt32.toNat_inj, ge_iff_le, UInt32.le_iff_toNat_le] at plain
  simp [Char.toNat_val] at plain
  simp [CodeTable.covers, plainTable]
  omega

theorem plain_blankless : blankless plainTable = true := by decide

theorem word_part_solid {c : Char} (part : isWordPart c = true) : isBlank c = false := by
  cases blank : isBlank c with
  | false => rfl
  | true =>
      have letter := uncovered letters_blankless blank
      have mark := uncovered marks_blankless blank
      simp only [isWordPart, letter, mark, Bool.or_false, Bool.or_eq_true, Bool.and_eq_true,
        beq_iff_eq] at part
      rcases part with plain | ⟨_, cent⟩
      · have covered := plain_covered plain
        rw [uncovered plain_blankless blank] at covered
        cases covered
      · rw [isBlank, cent] at blank
        cases blank

end JavaOutline.Text
