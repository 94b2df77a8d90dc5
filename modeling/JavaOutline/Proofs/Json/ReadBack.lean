import JavaOutline.Json.Parser
import JavaOutline.Json.Printer
import Mathlib.Data.Nat.Digits.Defs

/-!
Written values read back. A reader is shown the written form of a value with anything behind it
that cannot belong to a number, and gives back the value and what is behind it. The fuel of the
reader is measured by the characters of the written form.
-/
namespace JavaOutline.Json

theorem hex_value_digit : ∀ n, n < 16 → hexValue? (hexDigit n) = some n := by
  decide

theorem hex_unit_control (n : Nat) (control : n < 0x20) :
    hexUnit? '0' '0' (hexDigit (n / 16)) (hexDigit (n % 16)) = some n := by
  have zero : hexValue? '0' = some 0 := rfl
  have high := hex_value_digit (n / 16) (by omega)
  have low := hex_value_digit (n % 16) (by omega)
  have joined : n / 16 * 16 + n % 16 = n := by omega
  simp [hexUnit?, zero, high, low, joined]

theorem read_short_escape (escape : Char × Char) (member : escape ∈ shortEscapes)
    (rest : List Char) :
    readText ('\\' :: escape.2 :: rest) =
      (readText rest).map fun found => (escape.1 :: found.1, found.2) := by
  simp only [shortEscapes, List.mem_cons, List.not_mem_nil, or_false] at member
  rcases member with rfl | rfl | rfl | rfl | rfl | rfl | rfl <;>
    simp [readText, shortEscapes, Option.map_eq_bind]

theorem read_control (c : Char) (control : c.toNat < 0x20) (rest : List Char) :
    readText ('\\' :: 'u' :: '0' :: '0' :: hexDigit (c.toNat / 16) :: hexDigit (c.toNat % 16) ::
        rest) =
      (readText rest).map fun found => (c :: found.1, found.2) := by
  have first : isFirstHalf c.toNat = false := by simp [isFirstHalf]; omega
  have second : isSecondHalf c.toNat = false := by simp [isSecondHalf]; omega
  simp [readText, hex_unit_control c.toNat control, first, second, Option.map_eq_bind]

theorem read_plain (c : Char) (quote : c ≠ '"') (backslash : c ≠ '\\')
    (printed : ¬ c.toNat < 0x20) (rest : List Char) :
    readText (c :: rest) = (readText rest).map fun found => (c :: found.1, found.2) := by
  rw [readText.eq_def]
  split <;> simp_all [Option.map_eq_bind]

theorem read_escaped (c : Char) (rest : List Char) :
    readText (escapeChar c ++ rest) =
      (readText rest).map fun found => (c :: found.1, found.2) := by
  unfold escapeChar
  split
  case h_1 escape found =>
      have same : escape.1 = c := by simpa using List.find?_some found
      rw [← same]
      exact read_short_escape escape (List.mem_of_find?_eq_some found) rest
  case h_2 missing =>
      rw [List.find?_eq_none] at missing
      split
      case isTrue control => exact read_control c control rest
      case isFalse printed =>
          refine read_plain c ?_ ?_ printed rest
          · rintro rfl
            exact missing ('"', '"') (by decide) rfl
          · rintro rfl
            exact missing ('\\', '\\') (by decide) rfl

theorem read_written_text (chars rest : List Char) :
    readText (chars.flatMap escapeChar ++ '"' :: rest) = some (chars, rest) := by
  induction chars with
  | nil => rfl
  | cons c chars ih =>
      rw [List.flatMap_cons, List.append_assoc, read_escaped, ih]
      rfl

/-- Nothing that could go on with a number. -/
def Ended (rest : List Char) : Prop :=
  ∀ c ∈ rest.head?, c.isDigit = false ∧ c ≠ '.' ∧ c ≠ 'e' ∧ c ≠ 'E'

theorem Ended.nil : Ended [] := by
  intro c member
  cases member

theorem Ended.cons {c : Char} {rest : List Char}
    (other : c.isDigit = false ∧ c ≠ '.' ∧ c ≠ 'e' ∧ c ≠ 'E') : Ended (c :: rest) := by
  intro d member
  cases member
  exact other

theorem of_digits (digits : List Char) : ofDigits digits = Nat.ofDigitChars 10 digits 0 := by
  rw [Nat.ofDigitChars_eq_foldl, ofDigits]
  congr 1
  funext value digit
  rw [Nat.mul_comm]
  rfl

theorem no_leading_zero (n : Nat) (zero : (Nat.toDigits 10 n).head? = some '0') :
    (Nat.toDigits 10 n).length = 1 := by
  induction n using Nat.strongRecOn with
  | ind n ih =>
      by_cases small : n < 10
      · rw [Nat.toDigits_of_lt_base small]
        rfl
      · rw [Nat.toDigits_of_base_le (by decide) (by omega)] at zero
        have front := Nat.toDigits_ne_nil (n := n / 10) (b := 10)
        rw [List.head?_append, List.head?_eq_some_head front, Option.some_or,
          ← List.head?_eq_some_head front] at zero
        have single := ih (n / 10) (by omega) zero
        -- The number in front has one digit, and it is not zero.
        have lone : n / 10 < 10 := by
          have bound := (Nat.length_toDigits_le_iff (b := 10) (n := n / 10) (k := 1)
            (by decide) (by decide)).mp (by omega)
          simpa using bound
        rw [Nat.toDigits_of_lt_base lone] at zero
        have filled : ∀ d, d < 10 → 0 < d → [d.digitChar].head? ≠ some '0' := by decide
        exact absurd zero (filled (n / 10) lone (by omega))

theorem read_digits (digits rest : List Char) (filled : digits ≠ [])
    (each : ∀ c ∈ digits, c.isDigit = true) (ended : Ended rest) :
    readDigits (digits ++ rest) = some (digits, rest) := by
  have taken : rest.takeWhile Char.isDigit = [] := by
    cases rest with
    | nil => rfl
    | cons c rest => simp [(ended c rfl).1]
  have left : rest.dropWhile Char.isDigit = rest := by
    cases rest with
    | nil => rfl
    | cons c rest => simp [(ended c rfl).1]
  simp [readDigits, List.takeWhile_append_of_pos each, List.dropWhile_append_of_pos each, taken,
    left, filled]

theorem read_fraction_ended (rest : List Char) (ended : Ended rest) :
    readFraction rest = some ([], rest) := by
  unfold readFraction
  split
  case h_1 behind => exact absurd rfl (ended '.' rfl).2.1
  case h_2 => rfl

theorem read_exponent_ended (rest : List Char) (ended : Ended rest) :
    readExponent rest = some ([], rest) := by
  cases rest with
  | nil => rfl
  | cons c rest =>
      obtain ⟨_, _, small, large⟩ := ended c rfl
      simp [readExponent, small, large]

theorem digits_start (n : Nat) :
    ∃ c digits, Nat.toDigits 10 n = c :: digits ∧ c.isDigit = true := by
  obtain ⟨c, digits, shape⟩ :=
    List.exists_cons_of_ne_nil (Nat.toDigits_ne_nil (n := n) (b := 10))
  exact ⟨c, digits, shape, Nat.isDigit_of_mem_toDigits (by decide) (by decide)
    (shape ▸ List.mem_cons_self)⟩

theorem digit_apart (c : Char) (digit : c.isDigit = true) :
    isBlank c = false ∧ c ∉ ['-', ']', '"', '[', '\x7b', 'n', 't', 'f'] := by
  refine ⟨?_, ?_⟩
  · by_contra blank
    simp only [isBlank, Bool.not_eq_false, Bool.or_eq_true, beq_iff_eq] at blank
    rcases blank with ((rfl | rfl) | rfl) | rfl <;> cases digit
  · intro member
    simp only [List.mem_cons, List.not_mem_nil, or_false] at member
    rcases member with rfl | rfl | rfl | rfl | rfl | rfl | rfl | rfl <;> cases digit

theorem read_written_number (n : Nat) (rest : List Char) (ended : Ended rest) :
    readNumber (Nat.toDigits 10 n ++ rest) = some (.number n, rest) := by
  have filled := Nat.toDigits_ne_nil (n := n) (b := 10)
  have each : ∀ c ∈ Nat.toDigits 10 n, c.isDigit = true := fun c member =>
    Nat.isDigit_of_mem_toDigits (by decide) (by decide) member
  have value : ofDigits (Nat.toDigits 10 n) = n := by
    rw [of_digits, Nat.ofDigitChars_ten_toDigits]
  have whole : readWhole (Nat.toDigits 10 n ++ rest) = some (Nat.toDigits 10 n, rest) := by
    have single := no_leading_zero n
    simp only [readWhole, read_digits _ rest filled each ended]
    simp only [Option.bind_eq_bind, Option.bind_some, Bool.and_eq_true, decide_eq_true_eq,
      ite_eq_right_iff, reduceCtorEq, imp_false, not_and, Nat.not_lt]
    exact fun zero => (single zero).le
  obtain ⟨c, digits, shape, digit⟩ := digits_start n
  have unsigned : c ≠ '-' := by
    rintro rfl
    cases digit
  rw [shape, List.cons_append] at whole ⊢
  rw [shape] at value
  simp [readNumber, unsigned, whole, read_fraction_ended rest ended,
    read_exponent_ended rest ended, value]

inductive Value.Whole : Value → Prop
  | null : Whole .null
  | bool (value : Bool) : Whole (.bool value)
  | number (value : Nat) : Whole (.number value)
  | string (text : String) : Whole (.string text)
  | array {items : List Value} (each : ∀ item ∈ items, item.Whole) : Whole (.array items)
  | object {members : List (String × Value)} (each : ∀ member ∈ members, member.2.Whole) :
      Whole (.object members)

theorem skip_new_line (level : Nat) (chars : List Char) :
    skipBlanks (newLine level ++ chars) = skipBlanks chars := by
  have blanks : ∀ c ∈ newLine level, isBlank c = true := by
    intro c member
    simp only [newLine, List.mem_cons, List.mem_replicate] at member
    rcases member with rfl | ⟨_, rfl⟩ <;> rfl
  exact List.dropWhile_append_of_pos blanks

theorem skip_nothing (c : Char) (rest : List Char) (printed : isBlank c = false) :
    skipBlanks (c :: rest) = c :: rest := by
  simp [skipBlanks, printed]

theorem read_value_skips (fuel : Nat) (blanks chars : List Char)
    (skipped : skipBlanks (blanks ++ chars) = skipBlanks chars) :
    readValue fuel (blanks ++ chars) = readValue fuel chars := by
  cases fuel with
  | zero => rfl
  | succ fuel => rw [readValue, readValue, skipped]

theorem expect_skips (c : Char) (blanks chars : List Char)
    (skipped : skipBlanks (blanks ++ chars) = skipBlanks chars) :
    expect? c (blanks ++ chars) = expect? c chars := by
  rw [expect?, expect?, skipped]

namespace Value

theorem items_ended (level outer : Nat) (items : List Value) (rest : List Char) :
    Ended (writeItems level items ++ (newLine outer ++ rest)) := by
  cases items <;> exact Ended.cons (by decide)

theorem members_ended (level outer : Nat) (members : List (String × Value)) (rest : List Char) :
    Ended (writeMembers level members ++ (newLine outer ++ rest)) := by
  cases members <;> exact Ended.cons (by decide)

end Value

theorem Value.write_start (value : Value) (level : Nat) (whole : value.Whole) :
    ∃ c chars, value.write level = c :: chars ∧ isBlank c = false ∧ c ≠ ']' := by
  have started : ∃ c, (value.write level).head? = some c ∧ isBlank c = false ∧ c ≠ ']' := by
    cases whole with
    | null => exact ⟨'n', by simp [Value.write], rfl, by decide⟩
    | bool b =>
        cases b
        · exact ⟨'f', by simp [Value.write], rfl, by decide⟩
        · exact ⟨'t', by simp [Value.write], rfl, by decide⟩
    | number n =>
        obtain ⟨c, digits, shape, digit⟩ := digits_start n
        obtain ⟨printed, apart⟩ := digit_apart c digit
        refine ⟨c, by rw [Value.write, shape, List.head?_cons], printed, ?_⟩
        rintro rfl
        exact apart (by decide)
    | string text => exact ⟨'"', by simp [Value.write, writeText], rfl, by decide⟩
    | @array items _ => cases items <;> exact ⟨'[', by simp [Value.write], rfl, by decide⟩
    | @object members _ =>
        cases members <;> exact ⟨'\x7b', by simp [Value.write], rfl, by decide⟩
  obtain ⟨c, head, printed, opens⟩ := started
  obtain ⟨chars, shape⟩ := List.head?_eq_some_iff.mp head
  exact ⟨c, chars, shape, printed, opens⟩

/-- What a reader with some fuel makes of written values: of one, of items behind each other, and of
members behind each other. -/
structure ReadsBack (fuel : Nat) : Prop where
  value : ∀ (value : Value) (level : Nat) (rest : List Char), value.Whole → Ended rest →
    (value.write level).length ≤ fuel →
    readValue fuel (value.write level ++ rest) = some (value, rest)
  items : ∀ (first : Value) (others : List Value) (level outer : Nat) (rest : List Char),
    (∀ item ∈ first :: others, item.Whole) →
    (newLine level ++ first.write level ++ Value.writeItems level others).length ≤ fuel →
    readItems fuel (newLine level ++ (first.write level ++ (Value.writeItems level others ++
      (newLine outer ++ ']' :: rest)))) = some (first :: others, rest)
  members : ∀ (name : String) (value : Value) (others : List (String × Value)) (level outer : Nat)
    (rest : List Char), (∀ member ∈ (name, value) :: others, member.2.Whole) →
    (newLine level ++ writeText name.toList ++ value.write level ++
      Value.writeMembers level others).length ≤ fuel →
    readMembers fuel (newLine level ++ (writeText name.toList ++ (':' :: ' ' ::
      (value.write level ++ (Value.writeMembers level others ++
        (newLine outer ++ '\x7d' :: rest)))))) = some ((name, value) :: others, rest)

theorem ReadsBack.zero : ReadsBack 0 where
  value := by
    intro value level rest whole _ short
    obtain ⟨c, chars, start, _⟩ := value.write_start level whole
    simp [start] at short
  items := by
    intro first others level outer rest _ short
    simp [newLine] at short
  members := by
    intro name value others level outer rest _ short
    simp [newLine] at short

section
variable {fuel : Nat} (below : ReadsBack fuel)
include below

theorem read_back_items (first : Value) (others : List Value) (level outer : Nat)
    (rest : List Char) (whole : ∀ item ∈ first :: others, item.Whole)
    (short : (newLine level ++ first.write level ++
      Value.writeItems level others).length ≤ fuel + 1) :
    readItems (fuel + 1) (newLine level ++ (first.write level ++ (Value.writeItems level others ++
      (newLine outer ++ ']' :: rest)))) = some (first :: others, rest) := by
  obtain ⟨own, later⟩ := List.forall_mem_cons.mp whole
  have item : readValue fuel (newLine level ++ (first.write level ++
      (Value.writeItems level others ++ (newLine outer ++ ']' :: rest)))) =
      some (first, Value.writeItems level others ++ (newLine outer ++ ']' :: rest)) := by
    rw [read_value_skips _ _ _ (skip_new_line _ _)]
    refine below.value first level _ own (Value.items_ended _ _ _ _) ?_
    simp [newLine] at short
    omega
  rw [readItems, item]
  cases others with
  | nil =>
      simp [Value.writeItems, skip_new_line, skip_nothing ']' rest rfl]
  | cons second others =>
      have more := below.items second others level outer rest later (by
        simp [newLine, Value.writeItems] at short ⊢
        omega)
      simp [Value.writeItems, skip_nothing ',' _ rfl, more]

theorem read_back_members (name : String) (value : Value) (others : List (String × Value))
    (level outer : Nat) (rest : List Char)
    (whole : ∀ member ∈ (name, value) :: others, member.2.Whole)
    (short : (newLine level ++ writeText name.toList ++ value.write level ++
      Value.writeMembers level others).length ≤ fuel + 1) :
    readMembers (fuel + 1) (newLine level ++ (writeText name.toList ++ (':' :: ' ' ::
      (value.write level ++ (Value.writeMembers level others ++
        (newLine outer ++ '\x7d' :: rest)))))) = some ((name, value) :: others, rest) := by
  obtain ⟨own, later⟩ := List.forall_mem_cons.mp whole
  have item : readValue fuel (' ' :: (value.write level ++ (Value.writeMembers level others ++
      (newLine outer ++ '\x7d' :: rest)))) =
      some (value, Value.writeMembers level others ++ (newLine outer ++ '\x7d' :: rest)) := by
    rw [← List.singleton_append, read_value_skips fuel [' '] _ rfl]
    refine below.value value level _ own (Value.members_ended _ _ _ _) ?_
    simp [newLine, writeText] at short
    omega
  have start (behind : List Char) : expect? '"' (newLine level ++ (writeText name.toList ++
      behind)) = some (name.toList.flatMap escapeChar ++ '"' :: behind) := by
    rw [expect_skips _ _ _ (skip_new_line _ _)]
    simp [expect?, writeText, skip_nothing '"' _ rfl]
  have colon (behind : List Char) : expect? ':' (':' :: behind) = some behind := by
    simp [expect?, skip_nothing ':' _ rfl]
  rw [readMembers, start]
  simp only [Option.bind_eq_bind, Option.bind_some, read_written_text, colon, item,
    String.ofList_toList]
  cases others with
  | nil =>
      simp [Value.writeMembers, skip_new_line, skip_nothing '\x7d' rest rfl]
  | cons second others =>
      have more := below.members second.1 second.2 others level outer rest later (by
        simp [newLine, writeText, Value.writeMembers] at short ⊢
        omega)
      simp [Value.writeMembers, skip_nothing ',' _ rfl, more]

theorem read_back_array (items : List Value) (level : Nat) (rest : List Char)
    (each : ∀ item ∈ items, item.Whole)
    (short : ((Value.array items).write level).length ≤ fuel + 1) :
    readValue (fuel + 1) ((Value.array items).write level ++ rest) = some (.array items, rest) := by
  cases items with
  | nil =>
      simp [Value.write, readValue, skip_nothing '[' _ rfl, skip_nothing ']' _ rfl, expect?]
  | cons first others =>
      have more := below.items first others (level + 1) level rest each (by
        simp [newLine, Value.write] at short ⊢
        omega)
      -- The first item starts with no closing bracket, so the array is not taken for an empty one.
      obtain ⟨c, chars, start, printed, opens⟩ :=
        first.write_start (level + 1) (each first List.mem_cons_self)
      have filled (behind : List Char) : expect? ']' (newLine (level + 1) ++
          (first.write (level + 1) ++ behind)) = none := by
        rw [expect_skips _ _ _ (skip_new_line _ _), start]
        simp [expect?, skip_nothing c _ printed, opens]
      simp only [Value.write, List.cons_append, List.append_assoc, readValue,
        skip_nothing '[' _ rfl, filled, List.nil_append]
      rw [more]
      rfl

theorem read_back_object (members : List (String × Value)) (level : Nat) (rest : List Char)
    (each : ∀ member ∈ members, member.2.Whole)
    (short : ((Value.object members).write level).length ≤ fuel + 1) :
    readValue (fuel + 1) ((Value.object members).write level ++ rest) =
      some (.object members, rest) := by
  cases members with
  | nil =>
      simp [Value.write, readValue, skip_nothing '\x7b' _ rfl, skip_nothing '\x7d' _ rfl, expect?]
  | cons first others =>
      have more := below.members first.1 first.2 others (level + 1) level rest each (by
        simp [newLine, Value.write] at short ⊢
        omega)
      have filled (behind : List Char) : expect? '\x7d' (newLine (level + 1) ++
          (writeText first.1.toList ++ behind)) = none := by
        rw [expect_skips _ _ _ (skip_new_line _ _)]
        simp [expect?, writeText, skip_nothing '"' _ rfl]
      simp only [Value.write, List.cons_append, List.append_assoc, readValue,
        skip_nothing '\x7b' _ rfl, filled, List.nil_append, String.reduceToList]
      rw [more]
      rfl

theorem read_back_value (value : Value) (level : Nat) (rest : List Char) (whole : value.Whole)
    (ended : Ended rest) (short : (value.write level).length ≤ fuel + 1) :
    readValue (fuel + 1) (value.write level ++ rest) = some (value, rest) := by
  cases whole with
  | null =>
      simp [Value.write, readValue, skip_nothing 'n' _ rfl, readWord]
      rfl
  | bool b =>
      cases b
      · simp [Value.write, readValue, skip_nothing 'f' _ rfl, readWord]
        rfl
      · simp [Value.write, readValue, skip_nothing 't' _ rfl, readWord]
        rfl
  | number n =>
      have number := read_written_number n rest ended
      obtain ⟨c, digits, shape, digit⟩ := digits_start n
      obtain ⟨printed, apart⟩ := digit_apart c digit
      simp only [List.mem_cons, List.not_mem_nil, or_false, not_or] at apart
      rw [shape] at number
      rw [Value.write, shape, List.cons_append, readValue, skip_nothing c _ printed]
      simpa [apart] using number
  | string text =>
      simp [Value.write, writeText, readValue, skip_nothing '"' _ rfl, read_written_text]
  | @array items each => exact read_back_array below items level rest each short
  | @object members each => exact read_back_object below members level rest each short

end

theorem reads_back (fuel : Nat) : ReadsBack fuel := by
  induction fuel with
  | zero => exact ReadsBack.zero
  | succ fuel below =>
      exact ⟨read_back_value below, read_back_items below, read_back_members below⟩

theorem parse_blanks (value : Value) (whole : value.Whole) (blanks : List Char)
    (ended : Ended blanks) (nothing : skipBlanks blanks = []) :
    parse? (value.render ++ String.ofList blanks) = some value := by
  have chars : (value.render ++ String.ofList blanks).toList = value.write 0 ++ blanks := by
    simp [Value.render]
  have back := (reads_back ((value.write 0 ++ blanks).length + 1)).value value 0 blanks whole ended
    (by simp; omega)
  rw [parse?, chars]
  dsimp only
  rw [back]
  simp [nothing]

/-- The text of a value whose numbers are whole is the text of that value. -/
theorem parse_render (value : Value) (whole : value.Whole) : parse? value.render = some value := by
  simpa using parse_blanks value whole [] Ended.nil rfl

end JavaOutline.Json
