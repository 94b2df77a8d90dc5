import JavaOutline.Proofs.Text.Utf8
import JavaOutline.Span
import Mathlib.Data.List.Induction

/-!
Offsets between whole characters. Two of them in order cut a text into three parts: the slice
between them exists, its bytes are the bytes of the text there, and the positions of its ends can be
told from the bytes in front of them.
-/
namespace JavaOutline.Text

def Boundary (chars : List Char) (offset : Nat) : Prop :=
  ∃ front rest, chars = front ++ rest ∧ offset = byteSize front

section
variable {chars : List Char} {start stop : Nat}

theorem Boundary.first (chars : List Char) : Boundary chars 0 :=
  ⟨[], chars, rfl, rfl⟩

theorem Boundary.last (chars : List Char) : Boundary chars (byteSize chars) :=
  ⟨chars, [], (List.append_nil chars).symm, rfl⟩

theorem Boundary.le (boundary : Boundary chars stop) : stop ≤ byteSize chars := by
  obtain ⟨front, rest, rfl, rfl⟩ := boundary
  rw [byte_size_append]
  omega

theorem byte_size_zero (chars : List Char) (empty : byteSize chars = 0) : chars = [] := by
  cases chars with
  | nil => rfl
  | cons c rest =>
      have positive := c.utf8Size_pos
      rw [byte_size_cons] at empty
      omega

theorem boundaries_cut (order : start ≤ stop) (starts : Boundary chars start)
    (ends : Boundary chars stop) :
    ∃ front inside rest, chars = front ++ (inside ++ rest) ∧ start = byteSize front ∧
      stop = byteSize front + byteSize inside := by
  obtain ⟨front, behind, rfl, rfl⟩ := starts
  obtain ⟨longer, rest, same, rfl⟩ := ends
  rcases List.append_eq_append_iff.mp same with ⟨inside, rfl, rfl⟩ | ⟨left, rfl, rfl⟩
  · exact ⟨front, inside, rest, rfl, rfl, byte_size_append front inside⟩
  · rw [byte_size_append] at order
    obtain rfl := byte_size_zero left (by omega)
    exact ⟨longer, [], behind, by simp, by simp, by simp⟩

theorem drop_bytes_front (front rest : List Char) :
    dropBytes? (byteSize front) (front ++ rest) = some rest := by
  induction front with
  | nil => rw [byte_size_nil, List.nil_append, dropBytes?]
  | cons c front ih =>
      obtain ⟨size, wide⟩ := Nat.exists_eq_succ_of_ne_zero (Nat.ne_of_gt c.utf8Size_pos)
      rw [byte_size_cons, wide, Nat.succ_add, List.cons_append, dropBytes?, if_pos (by omega)]
      rwa [show size + byteSize front + 1 - c.utf8Size = byteSize front by omega]

theorem take_bytes_front (front rest : List Char) :
    takeBytes? (byteSize front) (front ++ rest) = some front := by
  induction front with
  | nil => rw [byte_size_nil, takeBytes?]
  | cons c front ih =>
      obtain ⟨size, wide⟩ := Nat.exists_eq_succ_of_ne_zero (Nat.ne_of_gt c.utf8Size_pos)
      rw [byte_size_cons, wide, Nat.succ_add, List.cons_append, takeBytes?, if_pos (by omega),
        show size + byteSize front + 1 - c.utf8Size = byteSize front by omega, ih]
      rfl

theorem slice_inside (front inside rest : List Char) :
    slice? (front ++ (inside ++ rest)) (byteSize front) (byteSize front + byteSize inside) =
      some inside := by
  rw [slice?, if_pos (Nat.le_add_right _ _), drop_bytes_front, Option.bind_some,
    Nat.add_sub_cancel_left, take_bytes_front]

end

end JavaOutline.Text

namespace JavaOutline

open JavaOutline.Text

namespace Position

/-- The place of an offset in bytes: the line feeds in front of it, and the bytes behind the last
of them, each counted from one. -/
def ofByte (bytes : List UInt8) (offset : Nat) : Position where
  line := (bytes.take offset).count lineFeed + 1
  column := ((bytes.take offset).reverse.takeWhile (· != lineFeed)).length + 1

theorem walk_front (p : Position) (front rest : List Char) :
    p.walk (front ++ rest) (byteSize front) = front.foldl advance p := by
  induction front generalizing p with
  | nil => cases rest <;> simp [walk]
  | cons c front ih =>
      have positive := c.utf8Size_pos
      rw [byte_size_cons, List.cons_append, walk, if_neg (by omega), Nat.add_sub_cancel_left, ih]
      rfl

theorem fold_advance (front : List Char) :
    front.foldl advance ⟨1, 1⟩ = ofByte (utf8 front) (byteSize front) := by
  unfold ofByte
  rw [← utf8_length, List.take_length]
  induction front using List.reverseRecOn with
  | nil => rfl
  | append_singleton front c ih =>
      rw [List.foldl_append, ih, List.foldl_cons, List.foldl_nil, utf8_append, List.reverse_append,
        List.count_append]
      by_cases feed : c = '\n'
      · subst feed
        simp [advance, line_feed_encoded]
      · -- No byte of the character is a line feed, so that all of them belong to the last line.
        have apart := line_feed_apart c feed
        have none : (utf8 [c]).count lineFeed = 0 :=
          List.count_eq_zero.mpr fun member => apart _ (by simpa using member) rfl
        have all : ∀ byte ∈ (utf8 [c]).reverse, (byte != lineFeed) = true := fun byte member =>
          bne_iff_ne.mpr (apart byte (by simpa using member))
        rw [List.takeWhile_append_of_pos all, none]
        simp [advance, feed, Nat.add_comm, Nat.add_left_comm]

theorem walk_of_byte {chars : List Char} {offset : Nat} (boundary : Boundary chars offset) :
    walk ⟨1, 1⟩ chars offset = ofByte (utf8 chars) offset := by
  obtain ⟨front, rest, rfl, rfl⟩ := boundary
  rw [walk_front, fold_advance, ofByte, ofByte, utf8_append, ← utf8_length, List.take_length,
    List.take_left]

end Position

namespace Span

/-- A span says the same in bytes, in positions and by the text it cuts out. -/
structure Exact (chars : List Char) (span : Span) : Prop where
  ordered : span.startByte ≤ span.endByte
  starts : Boundary chars span.startByte
  ends : Boundary chars span.endByte
  start : span.start = Position.ofByte (utf8 chars) span.startByte
  stop : span.stop = Position.ofByte (utf8 chars) span.endByte
  snippet : utf8 (span.snippet chars).toList =
    ((utf8 chars).drop span.startByte).take (span.endByte - span.startByte)
  lines : span.lineCount = (utf8 (span.snippet chars).toList).count lineFeed + 1

theorem range_exact {chars : List Char} {start stop : Nat} (order : start ≤ stop)
    (starts : Boundary chars start) (ends : Boundary chars stop) :
    (ofRange chars start stop).Exact chars := by
  have first := Position.walk_of_byte starts
  have last := Position.walk_of_byte ends
  obtain ⟨front, inside, rest, rfl, rfl, rfl⟩ := boundaries_cut order starts ends
  have shown : ((ofRange (front ++ (inside ++ rest)) (byteSize front)
      (byteSize front + byteSize inside)).snippet (front ++ (inside ++ rest))).toList = inside := by
    simp [snippet, ofRange, slice_inside]
  refine ⟨order, starts, ends, first, last, ?_, ?_⟩
  · rw [shown]
    simp only [ofRange, utf8_append, Nat.add_sub_cancel_left]
    rw [← utf8_length front, List.drop_left, ← utf8_length inside, List.take_left]
  · rw [shown, lineCount]
    simp only [ofRange, first, last, Position.ofByte, utf8_append]
    rw [← utf8_length front, List.take_left, ← utf8_length inside, List.take_length_add_append,
      List.take_left, List.count_append]
    omega

theorem snippet_filled {chars : List Char} {span : Span} (exact : span.Exact chars)
    (filled : span.startByte < span.endByte) : span.snippet chars ≠ "" := by
  intro empty
  have within := exact.ends.le
  have bytes := congrArg List.length exact.snippet
  rw [empty, List.length_take, List.length_drop, utf8_length chars] at bytes
  simp only [String.toList_empty, utf8_nil, List.length_nil] at bytes
  omega

end Span

end JavaOutline
