import JavaOutline.Text.Bytes
import Mathlib.Data.List.Basic

/-!
Texts as bytes. Offsets into a text count the bytes of its UTF-8 form, a line feed is one of these
bytes and no part of another character, and the order of texts by characters is their order by
bytes.
-/
namespace JavaOutline.Text

def utf8 (chars : List Char) : List UInt8 :=
  chars.flatMap String.utf8EncodeChar

def lineFeed : UInt8 := 10

@[simp] theorem utf8_nil : utf8 [] = [] :=
  rfl

@[simp] theorem utf8_cons (c : Char) (rest : List Char) :
    utf8 (c :: rest) = String.utf8EncodeChar c ++ utf8 rest :=
  List.flatMap_cons

@[simp] theorem utf8_append (first second : List Char) :
    utf8 (first ++ second) = utf8 first ++ utf8 second :=
  List.flatMap_append

@[simp] theorem byte_size_nil : byteSize [] = 0 :=
  rfl

@[simp] theorem byte_size_cons (c : Char) (rest : List Char) :
    byteSize (c :: rest) = c.utf8Size + byteSize rest :=
  rfl

@[simp] theorem utf8_length (chars : List Char) : (utf8 chars).length = byteSize chars := by
  induction chars with
  | nil => rfl
  | cons c rest ih => rw [utf8_cons, List.length_append, String.length_utf8EncodeChar, ih]; rfl

@[simp] theorem byte_size_append (first second : List Char) :
    byteSize (first ++ second) = byteSize first + byteSize second := by
  rw [← utf8_length, utf8_append, List.length_append, utf8_length, utf8_length]

theorem line_feed_encoded : String.utf8EncodeChar '\n' = [lineFeed] := by
  decide

/-- No byte of another character is a line feed. -/
theorem line_feed_apart (c : Char) (other : c ≠ '\n') :
    ∀ byte ∈ String.utf8EncodeChar c, byte ≠ lineFeed := by
  have apart : c.val.toNat ≠ 10 := fun same => other (Char.ext (UInt32.toNat_inj.mp same))
  -- One byte is the number of the character; of several, each is above 127.
  unfold String.utf8EncodeChar lineFeed
  generalize c.val.toNat = n at apart ⊢
  dsimp only
  split <;> (try split) <;> (try split) <;>
    simp only [List.forall_mem_cons, ne_eq, ← UInt8.toNat_inj, UInt8.toNat_ofNat',
      UInt8.toNat_ofNat, List.not_mem_nil, false_implies, implies_true, and_true] <;>
    omega

/-- Of two numbers the smaller one has the smaller digits, the first one that differs counts. -/
theorem digits_lt {n m : Nat} (order : n < m) (bound : m < 0x110000) :
    n / 262144 % 8 < m / 262144 % 8 ∨ n / 262144 % 8 = m / 262144 % 8 ∧
      (n / 4096 % 64 < m / 4096 % 64 ∨ n / 4096 % 64 = m / 4096 % 64 ∧
        (n / 64 % 64 < m / 64 % 64 ∨ n / 64 % 64 = m / 64 % 64 ∧ n % 64 < m % 64)) := by
  have last : n / 64 < m / 64 ∨ n / 64 = m / 64 ∧ n % 64 < m % 64 := by omega
  have third (less : n / 64 < m / 64) :
      n / 4096 < m / 4096 ∨ n / 4096 = m / 4096 ∧ n / 64 % 64 < m / 64 % 64 := by omega
  have second (less : n / 4096 < m / 4096) :
      n / 262144 < m / 262144 ∨ n / 262144 = m / 262144 ∧ n / 4096 % 64 < m / 4096 % 64 := by omega
  have first : n / 262144 % 8 = n / 262144 ∧ m / 262144 % 8 = m / 262144 := by omega
  rcases last with less | ⟨same, less⟩
  · rcases third less with less | ⟨same, less⟩
    · rcases second less with less | ⟨same, less⟩ <;> omega
    · omega
  · omega

/-- The bytes of a smaller character come first, whatever follows. -/
theorem encoded_lt (c d : Char) (less : c < d) (first second : List UInt8) :
    String.utf8EncodeChar c ++ first < String.utf8EncodeChar d ++ second := by
  have order : c.val.toNat < d.val.toNat := less
  have bound : d.val.toNat < 0x110000 := by
    have valid : d.val.toNat.isValidChar := d.valid
    unfold Nat.isValidChar at valid
    omega
  have digits := digits_lt order bound
  unfold String.utf8EncodeChar
  generalize c.val.toNat = n at order digits ⊢
  generalize d.val.toNat = m at order bound digits ⊢
  -- The leading byte tells how many bytes follow; of as many, the first that differs decides.
  dsimp only
  split <;> split <;> (try split) <;> (try split) <;> (try split) <;> (try split) <;>
    simp only [List.cons_append, List.nil_append, List.cons_lt_cons_iff, UInt8.lt_iff_toNat_lt,
      ← UInt8.toNat_inj, UInt8.toNat_ofNat', Nat.reducePow] <;>
    simp (disch := omega) only [Nat.mod_eq_of_lt (b := 256)] <;>
    omega

theorem utf8_lt {first second : List Char} (less : first < second) : utf8 first < utf8 second := by
  induction second generalizing first with
  | nil => exact absurd less (List.not_lt_nil first)
  | cons d second ih =>
      cases first with
      | nil =>
          obtain ⟨byte, bytes, shape⟩ := List.exists_cons_of_ne_nil (String.utf8EncodeChar_ne_nil)
          rw [utf8_cons, shape]
          exact List.nil_lt_cons ..
      | cons c first =>
          rw [utf8_cons, utf8_cons]
          rcases List.cons_lt_cons_iff.mp less with smaller | ⟨rfl, further⟩
          · exact encoded_lt c d smaller _ _
          · exact List.append_left_lt (ih further)

end JavaOutline.Text
