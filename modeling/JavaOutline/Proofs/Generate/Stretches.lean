import JavaOutline.Lower.Source
import JavaOutline.Proofs.Generate.TypeText
import JavaOutline.Proofs.Text.Blank

/-!
Stretches of a text with the marks in them. A stretch is taken apart from its front, into blanks,
symbols, words and types, and what is known of the text of a mark comes from where it stands.
-/
namespace JavaOutline.Generate

open JavaOutline.Grammar
open JavaOutline.Lower
open JavaOutline.Tree

/-- Whether no word goes on from one text into the next. -/
def Parted (front rest : List Char) : Prop :=
  (∀ c ∈ front.getLast?, isNamePart c = false) ∨ Ends rest

theorem Parted.behind {front rest : List Char} (first : List Char)
    (parted : Parted (first ++ front) rest) : Parted front rest := by
  apply parted.imp_left
  intro other c last
  apply other
  rw [List.getLast?_append, Option.mem_def.mp last]
  rfl

theorem marks_append (offset : Nat) (front rest : List Char) (parted : Parted front rest) :
    marks offset (front ++ rest) = marks offset front ++ marks (offset + front.length) rest := by
  induction front using by_runs generalizing offset with
  | nil => rfl
  | blank c front blank ih =>
      rw [List.cons_append, marks_blank _ _ _ blank, marks_blank _ _ _ blank,
        ih (offset + 1) (parted.behind [c]), List.length_cons, Nat.add_assoc,
        Nat.add_comm 1]
  | symbol c front solid other ih =>
      rw [List.cons_append, marks_symbol _ _ _ solid other, marks_symbol _ _ _ solid other,
        ih (offset + 1) (parted.behind [c]), List.length_cons, Nat.add_assoc,
        Nat.add_comm 1, List.cons_append]
  | word word front filled parts ends ih =>
      have ended : Ends (front ++ rest) := by
        cases front with
        | cons d front => exact ends
        | nil =>
            refine parted.resolve_left fun other => ?_
            rw [List.append_nil] at other
            have last := other _ (List.getLast?_eq_some_getLast filled)
            rw [parts _ (List.getLast_mem filled)] at last
            cases last
      rw [List.append_assoc, marks_word _ _ _ filled parts ended, marks_word _ _ _ filled parts ends,
        ih _ (parted.behind word), List.length_append, Nat.add_assoc, List.cons_append]

def Stretch (whole chars : List Char) (us : List Token) : Prop :=
  ∃ front rest, whole = front ++ (chars ++ rest) ∧ us = marks front.length chars

section Stretches

variable {whole front rest : List Char} {us : List Token} {c : Char}

theorem Stretch.all (chars : List Char) : Stretch chars chars (marks 0 chars) :=
  ⟨[], [], (List.append_nil chars).symm, rfl⟩

theorem Stretch.split (stretch : Stretch whole (front ++ rest) us) (parted : Parted front rest) :
    ∃ vs ws, us = vs ++ ws ∧ Stretch whole front vs ∧ Stretch whole rest ws := by
  obtain ⟨before, behind, same, rfl⟩ := stretch
  refine ⟨_, _, marks_append _ _ _ parted, ⟨before, rest ++ behind, ?_, rfl⟩,
    ⟨before ++ front, behind, ?_, ?_⟩⟩
  · rw [same, List.append_assoc]
  · rw [same, List.append_assoc, List.append_assoc]
  · rw [List.length_append]

theorem Stretch.empty (stretch : Stretch whole [] us) : us = [] := by
  obtain ⟨_, _, _, rfl⟩ := stretch
  rfl

theorem Stretch.blank (stretch : Stretch whole (c :: rest) us) (blank : isSpace c = true) :
    Stretch whole rest us := by
  obtain ⟨before, behind, same, rfl⟩ := stretch
  refine ⟨before ++ [c], behind, by simp [same], ?_⟩
  rw [marks_blank _ _ _ blank, List.length_append, List.length_singleton]

theorem Stretch.symbol (stretch : Stretch whole (c :: rest) us) (solid : isSpace c = false)
    (other : isNamePart c = false) :
    ∃ a vs, us = ⟨.symbol, String.ofList [c], a, a + 1⟩ :: vs ∧ Stretch whole rest vs := by
  obtain ⟨before, behind, same, rfl⟩ := stretch
  refine ⟨before.length, _, marks_symbol _ _ _ solid other, before ++ [c], behind, by simp [same], ?_⟩
  rw [List.length_append, List.length_singleton]

theorem Stretch.word {w : String} (stretch : Stretch whole (w.toList ++ rest) us)
    (filled : w.toList ≠ []) (parts : ∀ c ∈ w.toList, isNamePart c = true) (ends : Ends rest) :
    ∃ a vs, us = ⟨.word, w, a, a + w.toList.length⟩ :: vs ∧ Stretch whole rest vs := by
  obtain ⟨before, behind, same, rfl⟩ := stretch
  refine ⟨before.length, marks (before.length + w.toList.length) rest, ?_, before ++ w.toList,
    behind, by simp [same], ?_⟩
  · rw [marks_word _ _ _ filled parts ends, String.ofList_toList]
  · rw [List.length_append]

theorem Stretch.shows {chars : List Char} (stretch : Stretch whole chars us)
    (code : ∀ c ∈ whole, isCodeChar c = true) {t : Token} (member : t ∈ us) {n : Node}
    (start : n.start = t.start) (stop : n.stop = t.stop) :
    (Source.mk whole).text n = t.text := by
  obtain ⟨before, behind, rfl, rfl⟩ := stretch
  have inside : ∀ c ∈ before ++ chars, isCodeChar c = true := by
    intro c member
    apply code
    rw [← List.append_assoc]
    exact List.mem_append_left behind member
  have cut := marks_slice before chars behind inside t member
  rw [Source.text, start, stop]
  dsimp only
  rw [cut, Option.getD_some, String.ofList_toList]

end Stretches

def moved (k : Nat) (t : Token) : Token :=
  { t with start := k + t.start, stop := k + t.stop }

theorem marks_moved (k offset : Nat) (chars : List Char) :
    marks (k + offset) chars = (marks offset chars).map (moved k) := by
  induction chars using by_runs generalizing offset with
  | nil => rfl
  | blank c rest blank ih => rw [marks_blank _ _ _ blank, marks_blank _ _ _ blank, Nat.add_assoc, ih]
  | symbol c rest solid other ih =>
      rw [marks_symbol _ _ _ solid other, marks_symbol _ _ _ solid other, Nat.add_assoc, ih]
      rfl
  | word word rest filled parts ends ih =>
      rw [marks_word _ _ _ filled parts ends, marks_word _ _ _ filled parts ends, Nat.add_assoc, ih]
      rfl

/-- Where marks stand does not matter for what is written. -/
theorem Written.moved (k : Nat) {part : TypePart} {us : List Token} (written : Written part us) :
    Written part (us.map (Generate.moved k)) := by
  induction written with
  | identifier named => exact .identifier named
  | primitive known => exact .primitive known
  | pair => exact .pair
  | wildcard => exact .wildcard
  | bare _ ih => exact .bare ih
  | reference _ ih => exact .reference ih
  | simple _ ih => exact .simple ih
  | type _ ih => exact .type ih
  | lone _ ih => exact .lone ih
  | morePairs _ ih => exact .morePairs ih
  | bounded bound _ ih => exact .bounded bound ih
  | member _ named ih =>
      rw [List.map_append]
      exact .member ih named
  | diamond _ tight ih =>
      rw [List.map_append]
      exact .diamond ih (congrArg (k + ·) tight)
  | generic _ _ tight ih inner =>
      rw [List.map_append, List.map_cons, List.map_append]
      exact .generic ih inner (congrArg (k + ·) tight)
  | array _ _ ih inner =>
      rw [List.map_append]
      exact .array ih inner
  | listed _ _ ih inner =>
      rw [List.map_append, List.map_cons]
      exact .listed ih inner

theorem marks_head (offset : Nat) (c : Char) (rest : List Char) (solid : isSpace c = false) :
    (marks offset (c :: rest)).head?.map Token.start = some offset := by
  rw [marks, solid]
  by_cases part : isNamePart c = true
  · rw [part]
    have first := spell_start c offset (rest.head?.any isNamePart) (marks (offset + 1) rest)
    unfold spell at first ⊢
    split at first
    · split at first <;> simp_all
    · rfl
  · rw [Bool.not_eq_true] at part
    rw [part]
    rfl

theorem last_stop (t : Token) (us : List Token) (other : Nat) :
    ((t :: us).getLast?.map Token.stop).getD other = (us.getLast?.map Token.stop).getD t.stop := by
  rw [List.getLast?_cons]
  cases us.getLast? <;> rfl

theorem marks_last (offset : Nat) (chars : List Char) :
    ∃ core blanks, chars = core ++ blanks ∧ (∀ c ∈ blanks, isSpace c = true) ∧
      ((marks offset chars).getLast?.map Token.stop).getD offset = offset + core.length := by
  induction chars using by_runs generalizing offset with
  | nil => exact ⟨[], [], rfl, List.forall_mem_nil _, rfl⟩
  | blank c rest blank ih =>
      obtain ⟨core, blanks, same, all, stop⟩ := ih (offset + 1)
      rw [marks_blank _ _ _ blank]
      -- A blank is left over at the end only if no mark is behind it.
      cases last : (marks (offset + 1) rest).getLast? with
      | none =>
          rw [last] at stop
          have none' : core = [] := by simpa using stop
          refine ⟨[], c :: rest, rfl, List.forall_mem_cons.mpr ⟨blank, ?_⟩, rfl⟩
          rw [same, none']
          exact all
      | some t =>
          rw [last] at stop
          refine ⟨c :: core, blanks, by rw [same, List.cons_append], all, ?_⟩
          simp at stop ⊢
          omega
  | symbol c rest solid other ih =>
      obtain ⟨core, blanks, same, all, stop⟩ := ih (offset + 1)
      refine ⟨c :: core, blanks, by rw [same, List.cons_append], all, ?_⟩
      rw [marks_symbol _ _ _ solid other, last_stop, stop, List.length_cons]
      omega
  | word word rest filled parts ends ih =>
      obtain ⟨core, blanks, same, all, stop⟩ := ih (offset + word.length)
      refine ⟨word ++ core, blanks, by rw [same, List.append_assoc], all, ?_⟩
      rw [marks_word _ _ _ filled parts ends, last_stop, stop, List.length_append, Nat.add_assoc]

/-- A node over the marks of a stretch shows the stretch up to the blanks at its end. -/
theorem Stretch.told {whole chars : List Char} {us : List Token} (stretch : Stretch whole chars us)
    (code : ∀ c ∈ whole, isCodeChar c = true) (solid : chars.head?.any (!isSpace ·) = true) :
    ∃ core blanks, chars = core ++ blanks ∧ (∀ c ∈ blanks, isSpace c = true) ∧
      ∀ n, Covers n us → (Source.mk whole).text n = String.ofList core := by
  obtain ⟨before, behind, same, rfl⟩ := stretch
  obtain ⟨core, blanks, cut, all, last⟩ := marks_last before.length chars
  refine ⟨core, blanks, cut, all, fun n ⟨start, stop⟩ => ?_⟩
  obtain ⟨c, rest, begins⟩ : ∃ c rest, chars = c :: rest :=
    List.exists_cons_of_ne_nil (by rintro rfl; cases solid)
  rw [begins] at solid start
  rw [marks_head _ _ _ (by simpa using solid)] at start
  rw [stop] at last
  have ends : n.stop = before.length + core.length := last
  have shown : Text.slice? whole n.start n.stop = some core := by
    rw [ends, ← Option.some.inj start, same, cut, List.append_assoc]
    apply slice_code
    intro c member
    apply code
    rw [same, cut]
    rcases List.mem_append.mp member with front | own
    · exact List.mem_append_left _ front
    · simp [own]
  rw [Source.text]
  dsimp only
  rw [shown, Option.getD_some]

theorem type_start {type : String} (accepted : isTypeName type = true) :
    ∃ c rest, type.toList = c :: rest ∧ isNameStart c = true := by
  unfold isTypeName at accepted
  cases chars : type.toList with
  | nil => simp [chars] at accepted
  | cons c rest =>
      simp only [chars, Bool.and_eq_true] at accepted
      exact ⟨c, rest, rfl, accepted.1.1.1⟩

theorem Stretch.type {whole : List Char} {us : List Token} {type : String}
    (stretch : Stretch whole type.toList us) (code : ∀ c ∈ whole, isCodeChar c = true)
    (accepted : isTypeName type = true) (isType : IsType type) :
    Written .type us ∧
      ∀ n, Covers n us → (Source.mk whole).compact n = Text.oneLine type := by
  obtain ⟨c, rest, chars, first⟩ := type_start accepted
  have solid := name_part_solid (name_part_of_start first)
  obtain ⟨core, blanks, cut, all, told⟩ := stretch.told code (by simp [chars, solid])
  constructor
  · obtain ⟨before, behind, same, rfl⟩ := stretch
    rw [← Nat.add_zero before.length, marks_moved]
    exact isType.moved before.length
  · intro n covers
    rw [Source.compact, told n covers, Text.oneLine, Text.oneLine, cut,
      Text.words_trail fun c member => space_blank (all c member), String.toList_ofList]

end JavaOutline.Generate
