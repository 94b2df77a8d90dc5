import JavaOutline.Generate.Name
import JavaOutline.Proofs.Grammar.Forward
import JavaOutline.Proofs.Text.Boundaries
import Mathlib.Data.List.Chain
import Mathlib.Data.List.Find

/-!
Marks of generated text: its words and its single symbols, with the blanks dropped. Cutting such a
text gives the same tokens, but that angle brackets next to each other come out in one.
-/
namespace JavaOutline.Generate

open JavaOutline.Grammar
open JavaOutline.Tree

theorem name_part_of_start {c : Char} (start : isNameStart c = true) : isNamePart c = true := by
  rw [isNamePart, start, Bool.true_or]

/-- Puts a character in front of marks: into the word that starts right behind it, or as a word of
its own. -/
def spell (c : Char) (offset : Nat) (joins : Bool) : List Token → List Token
  | t :: others =>
    if joins then ⟨.word, String.ofList (c :: t.text.toList), offset, t.stop⟩ :: others
    else ⟨.word, String.ofList [c], offset, offset + 1⟩ :: t :: others
  | [] => [⟨.word, String.ofList [c], offset, offset + 1⟩]

/-- The words and symbols of a text that starts at an offset, for characters of one byte each. -/
def marks : Nat → List Char → List Token
  | _, [] => []
  | offset, c :: rest =>
    if isSpace c then marks (offset + 1) rest
    else if isNamePart c then
      spell c offset (rest.head?.any isNamePart) (marks (offset + 1) rest)
    else ⟨.symbol, String.ofList [c], offset, offset + 1⟩ :: marks (offset + 1) rest

theorem name_start_range {c : Char} (start : isNameStart c = true) :
    (65 ≤ c.toNat ∧ c.toNat ≤ 90) ∨ (97 ≤ c.toNat ∧ c.toNat ≤ 122) ∨ c = '_' ∨ c = '$' := by
  unfold isNameStart Char.isAlpha Char.isUpper Char.isLower at start
  simp only [Bool.or_eq_true, Bool.and_eq_true, decide_eq_true_eq, beq_iff_eq, ge_iff_le,
    UInt32.le_iff_toNat_le, or_assoc] at start
  exact start

theorem name_part_range {c : Char} (part : isNamePart c = true) : 36 ≤ c.toNat ∧ c.toNat < 123 := by
  simp only [isNamePart, Char.isDigit, Bool.or_eq_true, Bool.and_eq_true, decide_eq_true_eq,
    ge_iff_le, UInt32.le_iff_toNat_le] at part
  rcases part with start | digit
  · rcases name_start_range start with upper | lower | rfl | rfl
    · omega
    · omega
    · decide
    · decide
  · change 48 ≤ c.toNat ∧ c.toNat ≤ 57 at digit
    omega

theorem name_part_solid {c : Char} (part : isNamePart c = true) : isSpace c = false := by
  have range := name_part_range part
  have blank : c ≠ ' ' := by
    rintro rfl
    cases part
  simp only [isSpace, Bool.or_eq_false_iff, beq_eq_false_iff_ne, Bool.and_eq_false_iff,
    decide_eq_false_iff_not]
  exact ⟨blank, .inr (by omega)⟩

theorem space_no_part {c : Char} (blank : isSpace c = true) : isNamePart c = false := by
  by_contra part
  rw [Bool.not_eq_false] at part
  rw [name_part_solid part] at blank
  cases blank

theorem marks_blank (offset : Nat) (c : Char) (rest : List Char) (blank : isSpace c = true) :
    marks offset (c :: rest) = marks (offset + 1) rest := by
  rw [marks, if_pos blank]

theorem marks_symbol (offset : Nat) (c : Char) (rest : List Char) (solid : isSpace c = false)
    (other : isNamePart c = false) :
    marks offset (c :: rest) =
      ⟨.symbol, String.ofList [c], offset, offset + 1⟩ :: marks (offset + 1) rest := by
  rw [marks, solid, other]
  rfl

def Ends (rest : List Char) : Prop :=
  rest.head?.any isNamePart = false

theorem marks_word (offset : Nat) (word rest : List Char) (filled : word ≠ [])
    (parts : ∀ c ∈ word, isNamePart c = true) (ends : Ends rest) :
    marks offset (word ++ rest) =
      ⟨.word, String.ofList word, offset, offset + word.length⟩ ::
        marks (offset + word.length) rest := by
  induction word generalizing offset with
  | nil => exact absurd rfl filled
  | cons c others ih =>
      obtain ⟨part, inner⟩ := List.forall_mem_cons.mp parts
      rw [List.cons_append, marks, name_part_solid part, part]
      cases others with
      | nil =>
          rw [List.nil_append, ends]
          cases marks (offset + 1) rest <;> rfl
      | cons d others =>
          have next : isNamePart d = true := inner d List.mem_cons_self
          rw [ih (offset + 1) (List.cons_ne_nil d others) inner]
          simp [spell, next, Nat.add_comm, Nat.add_left_comm]

end JavaOutline.Generate

/-! Numbers -/

namespace JavaOutline.Tree

namespace Pattern

/-- Whether a pattern needs a character, and a given one starts no match. -/
def refuses (c : Char) (p : Pattern) : Bool :=
  !p.nullable && match p.after c with
    | .fails => true
    | _ => false

theorem refuses_longest {c : Char} {p : Pattern} (refused : p.refuses c = true) (seen : Nat)
    (rest : List Char) : longestFrom none seen p (c :: rest) = none := by
  simp only [refuses, Bool.and_eq_true, Bool.not_eq_true'] at refused
  obtain ⟨needs, fails⟩ := refused
  have ended : p.after c = .fails := by
    split at fails
    · assumption
    · cases fails
  cases p <;> simp [longestFrom, needs, ended]

end Pattern

theorem best_none (patterns : List (Rule × Pattern)) (chars : List Char)
    (missing : ∀ entry ∈ patterns, entry.2.longest chars = none) :
    Literal.best patterns chars = none := by
  unfold Literal.best
  induction patterns with
  | nil => rfl
  | cons entry others ih =>
      obtain ⟨own, inner⟩ := List.forall_mem_cons.mp missing
      rw [List.foldl_cons, own]
      exact ih inner

end JavaOutline.Tree

namespace JavaOutline.Generate

open JavaOutline.Grammar
open JavaOutline.Tree

def codeSymbols : List Char :=
  ['(', ')', '\x7b', '\x7d', '[', ']', ';', ',', '.', '<', '>', '?', '-']

def isCodeChar (c : Char) : Bool :=
  isNamePart c || isSpace c || codeSymbols.contains c

/-- Whether two characters may stand side by side without making a number or a longer symbol, other
than angle brackets that close. -/
def beside (c d : Char) : Bool :=
  isNamePart c ||
    (!d.isDigit &&
      ((c == '>' && d == '>') || symbols.all fun symbol => !List.isPrefixOf [c, d] symbol.toList))

theorem numbers_refuse :
    codeSymbols.all (fun c => c == '.' || Literal.numbers.all fun entry => entry.2.refuses c) =
      true := by
  decide +kernel

theorem numbers_dot :
    Literal.numbers.all (fun entry => !entry.2.nullable && !(entry.2.after '.').nullable &&
      (List.range 128).all fun n =>
        (Char.ofNat n).isDigit || (entry.2.after '.').refuses (Char.ofNat n)) = true := by
  decide +kernel

theorem code_char_ascii {c : Char} (code : isCodeChar c = true) : c.toNat < 128 := by
  simp only [isCodeChar, Bool.or_eq_true] at code
  rcases code with (part | blank) | symbol
  · have range := name_part_range part
    omega
  · simp only [isSpace, Bool.or_eq_true, beq_iff_eq, Bool.and_eq_true, decide_eq_true_eq] at blank
    rcases blank with rfl | range
    · decide
    · omega
  · have known : codeSymbols.all (fun d => decide (d.toNat < 128)) = true := by decide
    simpa using List.all_eq_true.mp known c (List.contains_iff_mem.mp symbol)

theorem number_free (c : Char) (rest : List Char) (symbol : c ∈ codeSymbols)
    (code : ∀ d ∈ rest, isCodeChar d = true) (ends : rest.head?.any Char.isDigit = false) :
    Literal.best Literal.numbers (c :: rest) = none := by
  apply best_none
  intro entry member
  by_cases dot : c = '.'
  · subst dot
    have refused := List.all_eq_true.mp numbers_dot entry member
    simp only [Bool.and_eq_true, Bool.not_eq_true', List.all_eq_true, List.mem_range,
      Bool.or_eq_true] at refused
    obtain ⟨⟨needs, more⟩, next⟩ := refused
    have opened : entry.2.longest ('.' :: rest) =
        Pattern.longestFrom none 1 (entry.2.after '.') rest := by
      unfold Pattern.longest
      generalize entry.2 = p at needs
      cases p <;> simp [Pattern.longestFrom, Pattern.after, needs]
    rw [opened]
    cases rest with
    | nil =>
        generalize entry.2.after '.' = p at more
        cases p <;> simp [Pattern.longestFrom, more]
    | cons d rest =>
        apply Pattern.refuses_longest
        have small := code_char_ascii (code d List.mem_cons_self)
        rcases next d.toNat small with digit | refused
        · rw [Char.ofNat_toNat] at digit
          simp [digit] at ends
        · rwa [Char.ofNat_toNat] at refused
  · have refused := List.all_eq_true.mp numbers_refuse c symbol
    rw [Bool.or_eq_true, beq_iff_eq, List.all_eq_true] at refused
    exact Pattern.refuses_longest ((refused.resolve_left dot) entry member) 0 rest

/-! Pieces of plain code -/

theorem code_char_size {c : Char} (code : isCodeChar c = true) : c.utf8Size = 1 := by
  have small := code_char_ascii code
  apply Char.utf8Size_eq_one_iff.mpr
  rw [UInt32.le_iff_toNat_le]
  change c.toNat ≤ 127
  omega

theorem code_size (chars : List Char) (code : ∀ c ∈ chars, isCodeChar c = true) :
    Text.byteSize chars = chars.length := by
  induction chars with
  | nil => rfl
  | cons c rest ih =>
      obtain ⟨own, others⟩ := List.forall_mem_cons.mp code
      have inner := ih others
      rw [Text.byteSize] at inner ⊢
      rw [List.foldr_cons, inner, code_char_size own, List.length_cons, Nat.add_comm]

theorem word_part_of_code {c : Char} (code : isCodeChar c = true) :
    Text.isWordPart c = isNamePart c := by
  have small := code_char_ascii code
  have plain : decide (127 < c.toNat) = false := by simpa using Nat.le_of_lt_succ small
  simp only [Text.isWordPart, Text.isPlainWordChar, plain, Bool.false_and, Bool.or_false,
    isNamePart, isNameStart, Char.isAlphanum]
  cases c.isAlpha <;> cases c.isDigit <;> simp

theorem word_start_of_code {c : Char} (code : isCodeChar c = true) :
    Text.isWordStart c = isNameStart c := by
  have small := code_char_ascii code
  have plain : decide (127 < c.toNat) = false := by simpa using Nat.le_of_lt_succ small
  simp only [Text.isWordStart, plain, Bool.false_and, Bool.or_false, isNameStart]

theorem symbol_alone :
    codeSymbols.all (fun c => !isSpace c && !isNamePart c && !Text.isWordStart c &&
      (symbols.find? fun symbol => symbol.toList == [c]) == some (String.ofList [c])) = true := by
  decide +kernel

theorem symbol_apart {c : Char} (symbol : c ∈ codeSymbols) :
    isSpace c = false ∧ isNamePart c = false := by
  have known := List.all_eq_true.mp symbol_alone c symbol
  simp only [Bool.and_eq_true, Bool.not_eq_true'] at known
  exact known.1.1

/-- A symbol that makes no longer one with what follows stands for itself. -/
theorem find_symbol (c : Char) (rest : List Char) (symbol : c ∈ codeSymbols)
    (alone : ∀ d ∈ rest.head?, ∀ longer ∈ symbols, [c, d].isPrefixOf longer.toList = false) :
    (symbols.find? fun symbol => symbol.toList.isPrefixOf (c :: rest)) =
      some (String.ofList [c]) := by
  have known := List.all_eq_true.mp symbol_alone c symbol
  simp only [Bool.and_eq_true, beq_iff_eq] at known
  rw [← known.2]
  apply List.find?_congr
  intro longer member
  cases chars : longer.toList with
  | nil =>
      have filled : symbols.all (fun symbol => symbol.toList != []) = true := by decide +kernel
      have some' := List.all_eq_true.mp filled longer member
      simp [chars] at some'
  | cons first more =>
      cases more with
      | nil => simp [List.isPrefixOf]
      | cons second more =>
          cases rest with
          | nil => simp [List.isPrefixOf]
          | cons d rest =>
              have apart := alone d rfl longer member
              simp only [chars, List.isPrefixOf, Bool.and_true, Bool.and_eq_false_iff] at apart
              rcases apart with other | other
              · have first' : first ≠ c := by
                  intro same
                  simp [same] at other
                simp [List.isPrefixOf, first']
              · have second' : second ≠ d := by
                  intro same
                  simp [same] at other
                simp [List.isPrefixOf, second']

theorem piece_symbol (braces : Nat) (c : Char) (rest : List Char) (text : String)
    (symbol : c ∈ codeSymbols) (code : ∀ d ∈ rest, isCodeChar d = true)
    (ends : rest.head?.any Char.isDigit = false)
    (found : (symbols.find? fun symbol => symbol.toList.isPrefixOf (c :: rest)) = some text)
    (single : c = '\x7b' ∨ c = '\x7d' → text.length = 1) :
    ∃ inner, codePiece? braces [] (c :: rest) =
      some ⟨text.length, .token .symbol, [.code inner]⟩ := by
  have free := number_free c rest symbol code ends
  have known := List.all_eq_true.mp symbol_alone c symbol
  simp only [Bool.and_eq_true, Bool.not_eq_true'] at known
  obtain ⟨⟨⟨solid, _⟩, start⟩, _⟩ := known
  have slash : c ≠ '/' := by
    rintro rfl
    exact absurd symbol (by decide)
  have quote : c ≠ '"' := by
    rintro rfl
    exact absurd symbol (by decide)
  have tick : c ≠ '\'' := by
    rintro rfl
    exact absurd symbol (by decide)
  by_cases opens : c = '\x7b'
  · subst opens
    rw [single (.inl rfl)]
    exact ⟨braces + 1, rfl⟩
  · by_cases closes : c = '\x7d'
    · subst closes
      rw [single (.inr rfl)]
      exact ⟨braces - 1, by simp [codePiece?]⟩
    · have plain : comment? (c :: rest) = none := by
        unfold comment?
        split <;> simp_all
      refine ⟨braces, ?_⟩
      unfold codePiece?
      split
      case h_7 =>
          rename_i here
          obtain ⟨rfl, rfl⟩ := List.cons.inj here
          simp [solid, start, plain, free, found]
      all_goals simp_all

theorem take_run (test : Char → Bool) (run rest : List Char) (all : ∀ c ∈ run, test c = true)
    (ends : rest.head?.any test = false) : (run ++ rest).takeWhile test = run := by
  rw [List.takeWhile_append_of_pos all]
  cases rest with
  | nil => simp
  | cons d rest =>
      have ended : test d = false := ends
      simp [ended]

theorem piece_word (braces : Nat) (c : Char) (more rest : List Char)
    (start : isNameStart c = true) (parts : ∀ d ∈ more, isNamePart d = true) (ends : Ends rest)
    (code : ∀ d ∈ c :: more ++ rest, isCodeChar d = true) :
    codePiece? braces [] (c :: more ++ rest) =
      some ⟨(c :: more).length, .token .word, [.code braces]⟩ := by
  have own : isCodeChar c = true := code c (by simp)
  have solid := name_part_solid (name_part_of_start start)
  have run : (c :: more ++ rest).takeWhile Text.isWordPart = c :: more := by
    apply take_run
    · intro d member
      rw [word_part_of_code (code d (List.mem_append_left rest member))]
      rcases List.mem_cons.mp member with rfl | further
      · exact name_part_of_start start
      · exact parts d further
    · cases rest with
      | nil => rfl
      | cons d rest =>
          have ended : isNamePart d = false := ends
          simpa [word_part_of_code (code d (by simp))] using ended
  unfold codePiece?
  dsimp only [List.cons_append]
  split
  case h_1 here => cases here
  case h_7 first others _ _ _ _ _ here =>
      obtain ⟨rfl, rfl⟩ := List.cons.inj here
      rw [solid, word_start_of_code own, start, ← List.cons_append, run]
      rfl
  all_goals
    rename_i here
    obtain ⟨rfl, _⟩ := List.cons.inj here
    cases start

theorem piece_blank (braces : Nat) (c : Char) (more rest : List Char)
    (blanks : ∀ d ∈ c :: more, isSpace d = true) (ends : rest.head?.any isSpace = false) :
    codePiece? braces [] (c :: more ++ rest) =
      some ⟨(c :: more).length, .blank, [.code braces]⟩ := by
  have own : isSpace c = true := blanks c List.mem_cons_self
  have run : (c :: more ++ rest).takeWhile isSpace = c :: more := take_run _ _ _ blanks ends
  unfold codePiece?
  dsimp only [List.cons_append]
  split
  case h_1 here => cases here
  case h_7 first others _ _ _ _ _ here =>
      obtain ⟨rfl, rfl⟩ := List.cons.inj here
      rw [own, ← List.cons_append, run]
      rfl
  all_goals
    rename_i here
    obtain ⟨rfl, _⟩ := List.cons.inj here
    cases own

/-! Cutting plain code -/

section Scanning

variable {fuel braces inner offset : Nat} {piece rest : List Char} {tokens : List Token}
  (code : ∀ d ∈ piece, isCodeChar d = true)

include code

theorem scan_blanks (filled : piece ≠ [])
    (found : codePiece? braces [] (piece ++ rest) = some ⟨piece.length, .blank, [.code inner]⟩)
    (scanned : scan fuel [.code inner] (offset + piece.length) rest = some (tokens, [])) :
    scan (fuel + 1) [.code braces] offset (piece ++ rest) = some (tokens, []) := by
  obtain ⟨c, more, rfl⟩ := List.exists_cons_of_ne_nil filled
  rw [List.cons_append, scan, piece?, ← List.cons_append, found]
  · simp only [Option.bind_eq_bind, Option.bind_some, List.take_left, List.drop_left,
      code_size _ code, scanned]
  · exact List.cons_ne_nil _ _

theorem scan_token {shape : Token.Class} (filled : piece ≠ [])
    (found : codePiece? braces [] (piece ++ rest) =
      some ⟨piece.length, .token shape, [.code inner]⟩)
    (scanned : scan fuel [.code inner] (offset + piece.length) rest = some (tokens, [])) :
    scan (fuel + 1) [.code braces] offset (piece ++ rest) =
      some (⟨shape, String.ofList piece, offset, offset + piece.length⟩ :: tokens, []) := by
  obtain ⟨c, more, rfl⟩ := List.exists_cons_of_ne_nil filled
  rw [List.cons_append, scan, piece?, ← List.cons_append, found]
  · simp only [Option.bind_eq_bind, Option.bind_some, List.take_left, List.drop_left,
      code_size _ code, scanned]
  · exact List.cons_ne_nil _ _

end Scanning

theorem marks_blanks (offset : Nat) (blanks rest : List Char)
    (all : ∀ d ∈ blanks, isSpace d = true) :
    marks offset (blanks ++ rest) = marks (offset + blanks.length) rest := by
  induction blanks generalizing offset with
  | nil => rfl
  | cons c more ih =>
      obtain ⟨own, inner⟩ := List.forall_mem_cons.mp all
      rw [List.cons_append, marks_blank _ _ _ own, ih _ inner, List.length_cons, Nat.add_assoc,
        Nat.add_comm 1]

theorem spell_start (c : Char) (offset : Nat) (joins : Bool) (others : List Token) :
    ∀ t ∈ (spell c offset joins others).head?, t.start = offset := by
  intro t first
  unfold spell at first
  split at first
  · split at first <;>
      · cases first
        rfl
  · cases first
    rfl

theorem marks_start (offset : Nat) (chars : List Char) :
    ∀ t ∈ (marks offset chars).head?, offset ≤ t.start ∧
      (Ends chars → t.isWord = true → offset < t.start) := by
  induction chars generalizing offset with
  | nil => simp [marks]
  | cons c rest ih =>
      intro t first
      by_cases blank : isSpace c = true
      · rw [marks_blank _ _ _ blank] at first
        have later := (ih (offset + 1) t first).1
        exact ⟨by omega, fun _ _ => by omega⟩
      · rw [Bool.not_eq_true] at blank
        by_cases part : isNamePart c = true
        · rw [marks, blank, part] at first
          have own := spell_start _ _ _ _ t first
          have inside : ¬ Ends (c :: rest) := by simp [Ends, part]
          exact ⟨own.ge, fun ends => absurd ends inside⟩
        · rw [Bool.not_eq_true] at part
          rw [marks_symbol _ _ _ blank part] at first
          cases first
          exact ⟨Nat.le_refl _, fun _ word => nomatch word⟩

/-- Plain code that does not start with a digit. -/
structure Plainly (chars : List Char) : Prop where
  code : ∀ c ∈ chars, isCodeChar c = true
  calm : chars.IsChain fun c d => beside c d = true
  ends : chars.head?.any Char.isDigit = false

theorem digit_part {c : Char} (digit : c.isDigit = true) : isNamePart c = true := by
  rw [isNamePart, digit, Bool.or_true]

theorem part_digit {c : Char} (other : isNamePart c = false) : c.isDigit = false :=
  (Bool.or_eq_false_iff.mp other).2

theorem Plainly.behind (front : List Char) {rest : List Char} (plain : Plainly (front ++ rest))
    (filled : front ≠ []) (ends : (∀ d ∈ front, isNamePart d = false) ∨ Ends rest) :
    Plainly rest := by
  have split := List.isChain_append.mp plain.calm
  constructor
  · exact fun c member => plain.code c (List.mem_append_right front member)
  · exact split.2.1
  · cases rest with
    | nil => rfl
    | cons d rest =>
        rw [List.head?_cons, Option.any_some]
        rcases ends with other | ended
        · have last := List.getLast?_eq_some_getLast filled
          have next := split.2.2 _ last d rfl
          rw [beside, other _ (List.getLast_mem filled)] at next
          simp only [Bool.false_or, Bool.and_eq_true, Bool.not_eq_true'] at next
          exact next.1
        · exact part_digit ended

theorem split_run (test : Char → Bool) (chars : List Char) :
    ∃ run rest, chars = run ++ rest ∧ (∀ d ∈ run, test d = true) ∧
      rest.head?.any test = false := by
  refine ⟨chars.takeWhile test, chars.dropWhile test, List.takeWhile_append_dropWhile.symm,
    fun d member => List.all_eq_true.mp List.all_takeWhile d member, ?_⟩
  have ended := List.head?_dropWhile_not test chars
  cases first : (chars.dropWhile test).head? with
  | none => rfl
  | some d => simpa [first] using ended

theorem find_brackets (rest : List Char) (code : ∀ d ∈ rest, isCodeChar d = true) :
    (symbols.find? fun symbol => symbol.toList.isPrefixOf ('>' :: '>' :: rest)) =
      some (if rest.head? = some '>' then ">>>" else ">>") := by
  have unequal : isCodeChar '=' = false := by decide
  have apart (d : Char) (own : isCodeChar d = true) : d ≠ '=' := by
    rintro rfl
    rw [unequal] at own
    cases own
  cases rest with
  | nil => decide
  | cons d rest =>
      have first := apart d (code d List.mem_cons_self)
      by_cases third : d = '>'
      · subst third
        cases rest with
        | nil => decide
        | cons e rest =>
            have second := apart e (code e (by simp))
            simp [symbols, List.isPrefixOf, second.symm]
      · simp [symbols, List.isPrefixOf, third, Ne.symm third, first.symm]

/-- A text is cut into tokens that make its marks, however many braces are open. -/
def Cuts (fuel offset : Nat) (chars : List Char) : Prop :=
  ∀ braces, ∃ tokens, scan fuel [.code braces] offset chars = some (tokens, []) ∧
    Bears tokens (marks offset chars)

section Cutting

variable {fuel offset : Nat} {c : Char} {run others rest : List Char}

theorem cuts_word (plain : Plainly (c :: run ++ others)) (part : isNamePart c = true)
    (parts : ∀ d ∈ run, isNamePart d = true) (ends : Ends others)
    (later : Cuts fuel (offset + (c :: run).length) others) :
    Cuts (fuel + 1) offset (c :: run ++ others) := by
  intro braces
  have start : isNameStart c = true := by
    have digit : c.isDigit = false := plain.ends
    simpa [isNamePart, digit] using part
  have all : ∀ d ∈ c :: run, isNamePart d = true := List.forall_mem_cons.mpr ⟨part, parts⟩
  have code : ∀ d ∈ c :: run, isCodeChar d = true := fun d member =>
    plain.code d (List.mem_append_left others member)
  have found := piece_word braces c run others start parts ends plain.code
  obtain ⟨tokens, scanned, bears⟩ := later braces
  refine ⟨_, scan_token code (List.cons_ne_nil c run) found scanned, ?_⟩
  rw [marks_word _ _ _ (List.cons_ne_nil c run) all ends]
  apply Bears.same _ _ bears
  intro next first _ word
  exact (marks_start _ _ next first).2 ends word

theorem cuts_blanks (plain : Plainly (c :: run ++ others))
    (blanks : ∀ d ∈ c :: run, isSpace d = true) (ends : others.head?.any isSpace = false)
    (later : Cuts fuel (offset + (c :: run).length) others) :
    Cuts (fuel + 1) offset (c :: run ++ others) := by
  intro braces
  have code : ∀ d ∈ c :: run, isCodeChar d = true := fun d member =>
    plain.code d (List.mem_append_left others member)
  have found := piece_blank braces c run others blanks ends
  obtain ⟨tokens, scanned, bears⟩ := later braces
  refine ⟨tokens, scan_blanks code (List.cons_ne_nil c run) found scanned, ?_⟩
  rwa [marks_blanks _ _ _ blanks]

theorem cuts_symbol (plain : Plainly (c :: rest)) (symbol : c ∈ codeSymbols)
    (single : c ≠ '>' ∨ rest.head? ≠ some '>') (later : Cuts fuel (offset + 1) rest) :
    Cuts (fuel + 1) offset (c :: rest) := by
  intro braces
  obtain ⟨solid, other⟩ := symbol_apart symbol
  have ends : rest.head?.any Char.isDigit = false :=
    (plain.behind [c] (by simp) (.inl (by simpa using other))).ends
  have found := find_symbol c rest symbol (by
    intro d first longer member
    have next : beside c d = true := by
      obtain ⟨more, rfl⟩ := List.head?_eq_some_iff.mp first
      exact (List.isChain_cons_cons.mp plain.calm).1
    simp only [beside, other, Bool.false_or, Bool.and_eq_true, Bool.or_eq_true, beq_iff_eq,
      List.all_eq_true, Bool.not_eq_true'] at next
    rcases next.2 with ⟨rfl, rfl⟩ | alone
    · rcases single with apart | apart
      · exact absurd rfl apart
      · exact absurd first apart
    · exact alone longer member)
  obtain ⟨inner, cut⟩ := piece_symbol braces c rest _ symbol
    (fun d member => plain.code d (List.mem_cons_of_mem c member)) ends found (fun _ => by simp)
  rw [String.length_ofList] at cut
  obtain ⟨tokens, scanned, bears⟩ := later inner
  have own : ∀ d ∈ [c], isCodeChar d = true :=
    List.forall_mem_singleton.mpr (plain.code c List.mem_cons_self)
  refine ⟨_, scan_token own (by simp) cut scanned, ?_⟩
  rw [marks_symbol _ _ _ solid other]
  apply Bears.same _ _ bears
  intro next _ word
  cases word

/-- Two angle brackets, or three of them, come out in one token. -/
theorem cuts_brackets (more : List Char)
    (few : more = [] ∧ rest.head? ≠ some '>' ∨ more = ['>'])
    (plain : Plainly ('>' :: '>' :: more ++ rest))
    (later : Cuts fuel (offset + ('>' :: '>' :: more).length) rest) :
    Cuts (fuel + 1) offset ('>' :: '>' :: more ++ rest) := by
  intro braces
  have code : ∀ d ∈ '>' :: '>' :: more, isCodeChar d = true := fun d member =>
    plain.code d (List.mem_append_left rest member)
  have inside : ∀ d ∈ more ++ rest, isCodeChar d = true := fun d member =>
    plain.code d (List.mem_cons_of_mem _ (List.mem_cons_of_mem _ member))
  have found := find_brackets (more ++ rest) inside
  have whole : (if (more ++ rest).head? = some '>' then ">>>" else ">>") =
      String.ofList ('>' :: '>' :: more) := by
    rcases few with ⟨rfl, apart⟩ | rfl
    · simp only [List.nil_append, if_neg apart]
    · exact if_pos rfl
  rw [whole] at found
  obtain ⟨inner, cut⟩ := piece_symbol braces '>' ('>' :: more ++ rest) _ (by decide)
    (fun d member => plain.code d (List.mem_cons_of_mem _ member)) rfl found
    (fun brace => by rcases brace with same | same <;> cases same)
  rw [String.length_ofList] at cut
  obtain ⟨tokens, scanned, bears⟩ := later inner
  refine ⟨_, scan_token code (by simp) cut scanned, ?_⟩
  have bracket (start : Nat) (text : List Char) : marks start ('>' :: text) =
      ⟨.symbol, ">", start, start + 1⟩ :: marks (start + 1) text :=
    marks_symbol start '>' text rfl rfl
  have last (start : Nat) (bears : Bears tokens (marks (start + 1) rest)) :
      Bears (⟨.symbol, ">", start, start + 1⟩ :: tokens) (marks start ('>' :: rest)) := by
    rw [bracket]
    apply Bears.same _ _ bears
    intro next _ word
    cases word
  rw [List.cons_append, bracket]
  rcases few with ⟨rfl, _⟩ | rfl
  · exact .split ">" offset (offset + 2) (.inl rfl) (last (offset + 1) bears)
  · rw [List.cons_append, bracket]
    exact .split ">>" offset (offset + 3) (.inr rfl)
      (.split ">" (offset + 1) (offset + 3) (.inl rfl) (last (offset + 2) bears))

end Cutting

/-- Plain code is cut into tokens that make its marks. -/
theorem scan_marks (fuel : Nat) (offset : Nat) (chars : List Char) (plain : Plainly chars)
    (enough : chars.length ≤ fuel) : Cuts fuel offset chars := by
  induction fuel generalizing offset chars with
  | zero =>
      intro braces
      rw [List.eq_nil_of_length_eq_zero (Nat.le_zero.mp enough)]
      exact ⟨[], rfl, .nil⟩
  | succ fuel ih =>
      cases chars with
      | nil => exact fun _ => ⟨[], rfl, .nil⟩
      | cons c rest =>
          have own := plain.code c List.mem_cons_self
          simp only [isCodeChar, Bool.or_eq_true] at own
          -- The first character says what is cut: a word, a run of blanks or a symbol.
          rcases own with (part | blank) | symbol
          · obtain ⟨run, others, rfl, parts, ends⟩ := split_run isNamePart rest
            apply cuts_word plain part parts ends
            exact ih _ _ (plain.behind _ (List.cons_ne_nil c run) (.inr ends)) (by simp at enough; omega)
          · obtain ⟨run, others, rfl, blanks, ends⟩ := split_run isSpace rest
            have all : ∀ d ∈ c :: run, isSpace d = true := List.forall_mem_cons.mpr ⟨blank, blanks⟩
            apply cuts_blanks plain all ends
            apply ih _ _ (plain.behind _ (List.cons_ne_nil c run) (.inl fun d member => ?_))
            · simp at enough
              omega
            · exact space_no_part (all d member)
          · have symbol' : c ∈ codeSymbols := List.contains_iff_mem.mp symbol
            have other := (symbol_apart symbol').2
            -- Of all symbols only closing angle brackets are cut together, up to three of them.
            by_cases pair : c = '>' ∧ rest.head? = some '>'
            · obtain ⟨rfl, second⟩ := pair
              obtain ⟨rest, rfl⟩ := List.head?_eq_some_iff.mp second
              by_cases third : rest.head? = some '>'
              · obtain ⟨rest, rfl⟩ := List.head?_eq_some_iff.mp third
                apply cuts_brackets ['>'] (.inr rfl) plain
                apply ih _ _ (plain.behind ['>', '>', '>'] (by simp) (.inl (by simpa using other)))
                simp at enough ⊢
                omega
              · apply cuts_brackets [] (.inl ⟨rfl, third⟩) plain
                apply ih _ _ (plain.behind ['>', '>'] (by simp) (.inl (by simpa using other)))
                simp at enough ⊢
                omega
            · have single : c ≠ '>' ∨ rest.head? ≠ some '>' := by
                by_cases bracket : c = '>'
                · exact .inr fun second => pair ⟨bracket, second⟩
                · exact .inl bracket
              apply cuts_symbol plain symbol' single
              apply ih _ _ (plain.behind [c] (by simp) (.inl ?_))
              · simpa using enough
              · simpa using other

theorem tokens_marks (chars : List Char) (plain : Plainly chars) :
    ∃ tokens, tokens? chars = some (tokens, []) ∧ Bears tokens (marks 0 chars) := by
  cases chars with
  | nil => exact ⟨[], rfl, .nil⟩
  | cons c rest =>
      have small := code_char_ascii (plain.code c List.mem_cons_self)
      have bare : c ≠ byteOrderMark := by
        rintro rfl
        exact absurd small (by decide)
      have cut := scan_marks (c :: rest).length 0 (c :: rest) plain (Nat.le_refl _) 0
      rwa [tokens?, if_neg bare]

/-! Where marks stand -/

theorem by_runs {motive : List Char → Prop} (nil : motive [])
    (blank : ∀ c rest, isSpace c = true → motive rest → motive (c :: rest))
    (symbol : ∀ c rest, isSpace c = false → isNamePart c = false → motive rest →
      motive (c :: rest))
    (word : ∀ word rest, word ≠ [] → (∀ c ∈ word, isNamePart c = true) → Ends rest →
      motive rest → motive (word ++ rest))
    (chars : List Char) : motive chars := by
  induction size : chars.length using Nat.strongRecOn generalizing chars with
  | ind size ih =>
      subst size
      cases chars with
      | nil => exact nil
      | cons c rest =>
          by_cases space : isSpace c = true
          · exact blank c rest space (ih rest.length (by simp) rest rfl)
          · rw [Bool.not_eq_true] at space
            by_cases part : isNamePart c = true
            · obtain ⟨run, others, rfl, parts, ends⟩ := split_run isNamePart rest
              exact word (c :: run) others (by simp) (List.forall_mem_cons.mpr ⟨part, parts⟩) ends
                (ih others.length (by rw [List.length_cons, List.length_append]; omega) others rfl)
            · rw [Bool.not_eq_true] at part
              exact symbol c rest space part (ih rest.length (by simp) rest rfl)

/-- In plain code, characters are told by their number as well as by their bytes. -/
theorem slice_code (front middle rest : List Char)
    (code : ∀ c ∈ front ++ middle, isCodeChar c = true) :
    Text.slice? (front ++ (middle ++ rest)) front.length (front.length + middle.length) =
      some middle := by
  obtain ⟨before, inside⟩ := List.forall_mem_append.mp code
  have sliced := Text.slice_inside front middle rest
  rwa [code_size front before, code_size middle inside] at sliced

theorem marks_slice (front chars behind : List Char)
    (code : ∀ c ∈ front ++ chars, isCodeChar c = true) :
    ∀ t ∈ marks front.length chars,
      Text.slice? (front ++ (chars ++ behind)) t.start t.stop = some t.text.toList := by
  induction chars using by_runs generalizing front with
  | nil => simp [marks]
  | blank c rest blank ih =>
      have whole : front ++ c :: rest = (front ++ [c]) ++ rest := by simp
      rw [marks_blank _ _ _ blank, List.cons_append, List.append_cons]
      rw [whole] at code
      simpa using ih (front ++ [c]) code
  | symbol c rest solid other ih =>
      have whole : front ++ c :: rest = (front ++ [c]) ++ rest := by simp
      rw [whole] at code
      rw [marks_symbol _ _ _ solid other, List.forall_mem_cons]
      constructor
      · have own := slice_code front [c] (rest ++ behind) fun d member =>
          code d (List.mem_append_left rest member)
        simpa using own
      · rw [List.cons_append, List.append_cons]
        simpa using ih (front ++ [c]) code
  | word word rest filled parts ends ih =>
      rw [← List.append_assoc] at code
      rw [marks_word _ _ _ filled parts ends, List.forall_mem_cons, List.append_assoc]
      constructor
      · have own := slice_code front word (rest ++ behind) fun d member =>
          code d (List.mem_append_left rest member)
        simpa using own
      · rw [← List.append_assoc]
        simpa using ih (front ++ word) code

end JavaOutline.Generate
