import JavaOutline.Files.Path
import Mathlib.Data.List.Induction
import Mathlib.Data.String.Basic

/-!
Paths as texts and their pieces. A path below another has the pieces of both, one row behind the
other, except that an empty last piece of the upper one is not repeated. So a path that is spelled
name by name below a root tells the names.
-/
namespace JavaOutline.Text

theorem pieces_filled (separator : Char) (chars : List Char) : pieces separator chars ≠ [] := by
  cases chars with
  | nil => simp [pieces]
  | cons c rest =>
      rw [pieces]
      split
      · simp
      · split <;> simp

theorem pieces_whole (separator : Char) (chars : List Char) (free : separator ∉ chars) :
    pieces separator chars = [chars] := by
  induction chars with
  | nil => rfl
  | cons c rest ih =>
      simp only [List.mem_cons, not_or] at free
      rw [pieces, if_neg (fun same => free.1 same.symm), ih free.2]

theorem pieces_append (separator : Char) (first second : List Char) :
    pieces separator (first ++ separator :: second) =
      pieces separator first ++ pieces separator second := by
  induction first with
  | nil => simp [pieces]
  | cons c rest ih =>
      rw [List.cons_append, pieces, pieces, ih]
      split
      · rfl
      · obtain ⟨piece, others, shape⟩ := List.exists_cons_of_ne_nil (pieces_filled separator rest)
        rw [shape]
        rfl

theorem pieces_prepend {separator : Char} {front rest piece : List Char}
    {others : List (List Char)} (free : separator ∉ front)
    (shape : pieces separator rest = piece :: others) :
    pieces separator (front ++ rest) = (front ++ piece) :: others := by
  induction front with
  | nil => exact shape
  | cons c front ih =>
      simp only [List.mem_cons, not_or] at free
      rw [List.cons_append, pieces, if_neg (Ne.symm free.1), ih free.2]
      rfl

theorem mem_intercalate {c : Char} {separator : List Char} {parts : List (List Char)}
    (member : c ∈ separator.intercalate parts) :
    c ∈ separator ∨ ∃ part ∈ parts, c ∈ part := by
  induction parts with
  | nil => simp at member
  | cons part rest ih =>
      cases rest with
      | nil => exact .inr ⟨part, by simp, by simpa using member⟩
      | cons next rest =>
          rw [List.intercalate_cons_cons, List.append_assoc, List.mem_append,
            List.mem_append] at member
          rcases member with own | between | later
          · exact .inr ⟨part, by simp, own⟩
          · exact .inl between
          · rcases ih later with between | ⟨other, among, inside⟩
            · exact .inl between
            · exact .inr ⟨other, List.mem_cons_of_mem _ among, inside⟩

theorem pieces_intercalate (separator : Char) (names : List (List Char)) (filled : names ≠ [])
    (free : ∀ name ∈ names, separator ∉ name) :
    pieces separator ([separator].intercalate names) = names := by
  induction names with
  | nil => exact absurd rfl filled
  | cons name rest ih =>
      obtain ⟨own, others⟩ := List.forall_mem_cons.mp free
      cases rest with
      | nil => simpa using pieces_whole separator name own
      | cons second rest =>
          rw [List.intercalate_cons_cons, List.append_assoc, List.singleton_append, pieces_append,
            pieces_whole separator name own, ih (by simp) others]
          rfl

theorem intercalate_pieces (separator : Char) (chars : List Char) :
    [separator].intercalate (pieces separator chars) = chars := by
  induction chars with
  | nil => rfl
  | cons c rest ih =>
      obtain ⟨piece, others, shape⟩ := List.exists_cons_of_ne_nil (pieces_filled separator rest)
      rw [pieces]
      rw [shape] at ih ⊢
      split
      case isTrue same => rw [List.intercalate_cons_cons, ih, same]; rfl
      case isFalse =>
          cases others with
          | nil => simp_all
          | cons other others =>
              rw [List.intercalate_cons_cons] at ih ⊢
              rw [← ih]
              rfl

end JavaOutline.Text

namespace JavaOutline.Files

/-- A name that leads down from any folder, and to one place only. -/
structure Plain (name : String) : Prop where
  filled : name ≠ ""
  dotless : name ≠ "."
  descends : name ≠ ".."
  slashless : '/' ∉ name.toList

instance (name : String) : Decidable (Plain name) :=
  decidable_of_iff (name ≠ "" ∧ name ≠ "." ∧ name ≠ ".." ∧ '/' ∉ name.toList)
    ⟨fun told => ⟨told.1, told.2.1, told.2.2.1, told.2.2.2⟩,
      fun plain => ⟨plain.filled, plain.dotless, plain.descends, plain.slashless⟩⟩

namespace Plain

variable {name : String} (plain : Plain name)

include plain

theorem pieces : pieces name = [name] := by
  rw [Files.pieces, Text.pieces_whole '/' name.toList plain.slashless]
  simp

theorem relative : name.toList.head? ≠ some '/' :=
  fun rooted => plain.slashless (List.mem_of_mem_head? rooted)

theorem telling : isSilent name = false := by
  simp [isSilent, plain.filled, plain.dotless]

end Plain

theorem pieces_filled (path : String) : pieces path ≠ [] := by
  simp [pieces, Text.pieces_filled]

theorem intercalate_pieces (path : String) : "/".intercalate (pieces path) = path := by
  rw [← String.toList_inj, String.toList_intercalate, pieces, List.map_map]
  simpa [Function.comp_def] using Text.intercalate_pieces '/' path.toList

theorem pieces_below (base path : List Char) :
    pieces (String.ofList (base ++ '/' :: path)) =
      pieces (String.ofList base) ++ pieces (String.ofList path) := by
  simp [pieces, Text.pieces_append]

/-- A base shows the same pieces in front of every path below it: its own, but for an empty one at
the end. -/
theorem join_pieces (base : String) : ∃ front,
    (pieces base = front ∨ pieces base = front ++ [""]) ∧
      ∀ path : String, path.toList.head? ≠ some '/' →
        pieces (join base path) = front ++ pieces path := by
  by_cases blank : base = ""
  · subst blank
    exact ⟨[], .inr rfl, fun path _ => by simp [join]⟩
  by_cases slash : base.toList.getLast? = some '/'
  · obtain ⟨chars, ends⟩ := List.getLast?_eq_some_iff.mp slash
    have whole : base = String.ofList (chars ++ '/' :: []) := by rw [← ends, String.ofList_toList]
    refine ⟨pieces (String.ofList chars), .inr ?_, fun path relative => ?_⟩
    · rw [whole, pieces_below]
      rfl
    · have joined : join base path = String.ofList (chars ++ '/' :: path.toList) := by
        rw [← String.toList_inj]
        simp [join, relative, blank, ends]
      rw [joined, pieces_below, String.ofList_toList]
  · refine ⟨pieces base, .inl rfl, fun path relative => ?_⟩
    have joined : join base path = String.ofList (base.toList ++ '/' :: path.toList) := by
      rw [← String.toList_inj]
      simp [join, relative, blank, slash]
    rw [joined, pieces_below, String.ofList_toList, String.ofList_toList]

theorem join_size (base path : String) (relative : path.toList.head? ≠ some '/') :
    base.utf8ByteSize + path.utf8ByteSize ≤ (join base path).utf8ByteSize := by
  by_cases blank : base = ""
  · simp [join, blank]
  · by_cases slash : base.toList.getLast? = some '/'
    · simp [join, relative, blank, slash]
    · simp [join, relative, blank, slash, String.utf8ByteSize_append]

def spelled (root : String) (names : List String) : String :=
  names.foldl join root

theorem spelled_pieces (root : String) : ∃ front, ∀ names : List String, names ≠ [] →
    (∀ name ∈ names, Plain name) → pieces (spelled root names) = front ++ names := by
  obtain ⟨front, -, joined⟩ := join_pieces root
  refine ⟨front, fun names filled plain => ?_⟩
  -- From the last name upwards: in front of a name stands a path that does not end in a slash.
  induction names using List.reverseRecOn with
  | nil => exact absurd rfl filled
  | append_singleton names name ih =>
      have own := plain name (by simp)
      rw [spelled, List.foldl_append, List.foldl_cons, List.foldl_nil]
      by_cases single : names = []
      · subst single
        rw [List.foldl_nil, joined name own.relative, own.pieces, List.nil_append]
      · have above := ih single fun other member => plain other (List.mem_append_left _ member)
        obtain ⟨upper, shape, below⟩ := join_pieces (spelled root names)
        have same : upper = front ++ names := by
          rcases shape with same | ends
          · exact same.symm.trans above
          · obtain ⟨last, member, blank⟩ : ∃ last, last ∈ names ∧ last = "" := by
              have tail := congrArg List.getLast? (above.symm.trans ends)
              rw [List.getLast?_append_of_ne_nil _ single, List.getLast?_concat] at tail
              exact ⟨"", List.mem_of_getLast? tail, rfl⟩
            exact absurd blank (plain last (List.mem_append_left _ member)).filled
        rw [← spelled, below name own.relative, own.pieces, same, List.append_assoc]

/-- Rows of names are spelled as different paths. -/
theorem spelled_apart {root : String} {first second : List String} (firstFilled : first ≠ [])
    (secondFilled : second ≠ []) (firstPlain : ∀ name ∈ first, Plain name)
    (secondPlain : ∀ name ∈ second, Plain name)
    (same : spelled root first = spelled root second) : first = second := by
  obtain ⟨front, told⟩ := spelled_pieces root
  have pieces := congrArg pieces same
  rw [told first firstFilled firstPlain, told second secondFilled secondPlain] at pieces
  exact List.append_cancel_left pieces

theorem extension_behind (front back : List Char) (free : '.' ∉ back) :
    extension? (String.ofList (front ++ '.' :: back)) =
      if front = [] then none else some (String.ofList back) := by
  by_cases blank : front = []
  · subst blank
    simp [extension?, Text.pieces, Text.pieces_whole '.' back free]
  · have whole := Text.intercalate_pieces '.' front
    have cut : Text.pieces '.' (front ++ '.' :: back) = Text.pieces '.' front ++ [back] := by
      rw [Text.pieces_append, Text.pieces_whole '.' back free]
    rw [if_neg blank, extension?, String.toList_ofList, cut, List.reverse_append]
    cases shape : (Text.pieces '.' front).reverse with
    | nil => exact absurd (List.reverse_eq_nil_iff.mp shape) (Text.pieces_filled '.' front)
    | cons piece others =>
        cases others with
        | nil =>
            -- One piece alone is all that stands before the dot.
            rw [List.reverse_eq_iff.mp shape] at whole
            cases piece with
            | nil => exact absurd whole.symm blank
            | cons _ _ => rfl
        | cons _ _ => cases piece <;> rfl

/-- A name has an extension if it stands behind a dot and something in front of that dot. -/
theorem extension_iff (name wanted : String) (free : '.' ∉ wanted.toList) :
    extension? name = some wanted ↔ ∃ stem, stem ≠ "" ∧ name = stem ++ "." ++ wanted := by
  constructor
  · intro extended
    by_cases dotted : '.' ∈ name.toList
    · obtain ⟨back, front, cut, last⟩ :=
        List.eq_append_cons_of_mem (List.mem_reverse.mpr dotted)
      have whole : name = String.ofList (front.reverse ++ '.' :: back.reverse) := by
        rw [← String.toList_inj, String.toList_ofList, ← List.reverse_inj, cut]
        simp
      rw [whole, extension_behind _ _ (by simpa using last)] at extended
      split at extended
      · cases extended
      · rename_i filled
        refine ⟨String.ofList front.reverse, by simpa using filled, ?_⟩
        rw [whole, ← Option.some.inj extended, ← String.toList_inj]
        simp
    · have one := Text.pieces_whole '.' name.toList dotted
      simp [extension?, one] at extended
  · rintro ⟨stem, filled, rfl⟩
    have whole : stem ++ "." ++ wanted = String.ofList (stem.toList ++ '.' :: wanted.toList) := by
      rw [← String.toList_inj]
      simp
    rw [whole, extension_behind _ _ free, if_neg (by simpa using filled), String.ofList_toList]

end JavaOutline.Files
