import JavaOutline.Walk.Rose

/-!
Places in trees. A place is the way down from a node: which part to take, again and again, so that
equal nodes at different places stay apart. The parts of a node are given by a function; a tree
agrees with it where the children of every node are the trees of its parts. Listings of a tree name
every place once, and the order of the list is a relation between places.
-/
namespace JavaOutline.Walk

abbrev Place := List Nat

/-- Pre-order: a whole comes before its parts, and earlier parts before later ones. -/
def Place.Precedes (first second : Place) : Prop :=
  List.Lex (fun a b : Nat => a < b) first second

/-- Post-order: parts come before the whole, and places apart keep their pre-order. -/
def Place.DoneBefore (first second : Place) : Prop :=
  (second <+: first ∧ second ≠ first) ∨ (¬ first <+: second ∧ first.Precedes second)

theorem Place.precedes_root (index : Nat) (place : Place) : Place.Precedes [] (index :: place) :=
  List.Lex.nil

theorem Place.precedes_under (index : Nat) (first second : Place)
    (before : first.Precedes second) : Place.Precedes (index :: first) (index :: second) :=
  List.Lex.cons before

theorem Place.precedes_beside (left right : Nat) (first second : Place) (order : left < right) :
    Place.Precedes (left :: first) (right :: second) :=
  List.Lex.rel order

theorem Place.doneBefore_root (index : Nat) (place : Place) :
    Place.DoneBefore (index :: place) [] :=
  Or.inl ⟨List.nil_prefix, by simp⟩

theorem Place.doneBefore_under (index : Nat) (first second : Place)
    (before : first.DoneBefore second) : Place.DoneBefore (index :: first) (index :: second) := by
  rcases before with ⟨inside, different⟩ | ⟨apart, earlier⟩
  · exact Or.inl ⟨(List.prefix_cons_inj index).mpr inside, by simpa using different⟩
  · refine Or.inr ⟨fun within => apart ((List.prefix_cons_inj index).mp within), ?_⟩
    exact Place.precedes_under index first second earlier

theorem Place.doneBefore_beside (left right : Nat) (first second : Place) (order : left < right) :
    Place.DoneBefore (left :: first) (right :: second) := by
  refine Or.inr ⟨fun within => ?_, Place.precedes_beside left right first second order⟩
  have same : left = right := (List.cons_prefix_cons.mp within).1
  omega

section Descent
variable {α : Type} (parts : α → List α) (cost : α → Nat)

def partAt? (whole : α) : Place → Option α
  | [] => some whole
  | index :: rest => (parts whole)[index]?.bind fun part => partAt? part rest

def partAmong? (wholes : List α) : Place → Option α
  | [] => none
  | index :: rest => wholes[index]?.bind fun whole => partAt? parts whole rest

theorem part_at_below (upper lower : Place) (whole part : α)
    (found : partAt? parts whole upper = some part) :
    partAt? parts whole (upper ++ lower) = partAt? parts part lower := by
  induction upper generalizing whole with
  | nil =>
      cases found
      rfl
  | cons index rest ih =>
      obtain ⟨child, atIndex, inChild⟩ := Option.bind_eq_some_iff.mp found
      simp [partAt?, atIndex, ih child inChild]

theorem part_among_single (whole : α) (place : Place) :
    partAmong? parts [whole] (0 :: place) = partAt? parts whole place :=
  rfl

theorem part_at_last {whole part : α} {above : Place} {index : Nat}
    (found : partAt? parts whole (above ++ [index]) = some part) :
    ∃ last, partAt? parts whole above = some last ∧ (parts last)[index]? = some part := by
  induction above generalizing whole with
  | nil =>
      obtain ⟨last, found, same⟩ := Option.bind_eq_some_iff.mp found
      exact ⟨whole, rfl, found.trans same⟩
  | cons next rest ih =>
      obtain ⟨child, atNext, inChild⟩ := Option.bind_eq_some_iff.mp found
      obtain ⟨last, stands, inLast⟩ := ih inChild
      exact ⟨last, Option.bind_eq_some_iff.mpr ⟨child, atNext, stands⟩, inLast⟩

theorem part_at_next {whole between part : α} {place : Place}
    (found : partAt? parts whole place = some between) (member : part ∈ parts between) :
    ∃ index, partAt? parts whole (place ++ [index]) = some part := by
  obtain ⟨index, inBetween⟩ := List.mem_iff_getElem?.mp member
  have below := part_at_below parts place [index] whole between found
  exact ⟨index, below.trans (by simp [partAt?, inBetween])⟩

theorem part_among_below (upper : Place) (index : Nat) (lower : Place) (wholes : List α) (part : α)
    (found : partAmong? parts wholes upper = some part) :
    partAmong? parts wholes (upper ++ index :: lower) =
      partAmong? parts (parts part) (index :: lower) := by
  cases upper with
  | nil => cases found
  | cons first rest =>
      obtain ⟨child, atIndex, inChild⟩ := Option.bind_eq_some_iff.mp found
      have below := part_at_below parts rest (index :: lower) child part inChild
      simp [partAmong?, partAt?, atIndex, below]

def chargeAt (whole : α) : Place → Nat
  | [] => cost whole
  | index :: rest => cost whole + ((parts whole)[index]?.elim 0 fun part => chargeAt part rest)

def Fits (room : Nat) (whole : α) : Prop :=
  ∀ place part, partAt? parts whole place = some part → chargeAt parts cost whole place ≤ room

theorem fits_iff (room : Nat) (whole : α) :
    Fits parts cost room whole ↔
      cost whole ≤ room ∧ ∀ part ∈ parts whole, Fits parts cost (room - cost whole) part := by
  constructor
  · intro fits
    refine ⟨fits [] whole rfl, ?_⟩
    intro part member place inner found
    obtain ⟨index, atIndex⟩ := List.mem_iff_getElem?.mp member
    have charged := fits (index :: place) inner (by simpa [partAt?, atIndex] using found)
    simp only [chargeAt, atIndex, Option.elim_some] at charged
    omega
  · rintro ⟨own, below⟩ place part found
    cases place with
    | nil => exact own
    | cons index rest =>
        obtain ⟨child, atIndex, inChild⟩ := Option.bind_eq_some_iff.mp found
        have charged := below child (List.mem_of_getElem? atIndex) rest part inChild
        simp only [chargeAt, atIndex, Option.elim_some]
        omega

theorem fits_mono (small large : Nat) (whole : α) (order : small ≤ large)
    (fits : Fits parts cost small whole) : Fits parts cost large whole :=
  fun place part found => Nat.le_trans (fits place part found) order

theorem fits_descend (room : Nat) (whole part : α) (place : Place)
    (fits : Fits parts cost room whole) (found : partAt? parts whole place = some part) :
    Fits parts cost room part := by
  induction place generalizing whole with
  | nil =>
      cases found
      exact fits
  | cons index rest ih =>
      obtain ⟨child, atIndex, inChild⟩ := Option.bind_eq_some_iff.mp found
      have below := ((fits_iff parts cost room whole).mp fits).2 child
        (List.mem_of_getElem? atIndex)
      exact ih child (fits_mono parts cost _ room child (Nat.sub_le ..) below) inChild

theorem charge_split (first second : α → Nat) (whole : α) (place : Place) :
    chargeAt parts (fun node => first node + second node) whole place =
      chargeAt parts first whole place + chargeAt parts second whole place := by
  induction place generalizing whole with
  | nil => rfl
  | cons index rest ih =>
      cases found : (parts whole)[index]? with
      | none => simp [chargeAt, found]
      | some part =>
          simp only [chargeAt, found, Option.elim_some, ih part]
          omega

theorem charge_mono (small large : α → Nat) (order : ∀ node, small node ≤ large node)
    (whole : α) (place : Place) :
    chargeAt parts small whole place ≤ chargeAt parts large whole place := by
  induction place generalizing whole with
  | nil => exact order whole
  | cons index rest ih =>
      have own := order whole
      cases found : (parts whole)[index]? with
      | none => simpa [chargeAt, found] using own
      | some part =>
          have below := ih part
          simp only [chargeAt, found, Option.elim_some]
          omega

theorem charge_each (whole part : α) (place : Place)
    (found : partAt? parts whole place = some part) :
    chargeAt parts (fun _ => 1) whole place = place.length + 1 := by
  induction place generalizing whole with
  | nil => rfl
  | cons index rest ih =>
      obtain ⟨child, atIndex, inChild⟩ := Option.bind_eq_some_iff.mp found
      simp only [chargeAt, atIndex, Option.elim_some, List.length_cons, ih child inChild]
      omega

end Descent

/-- The list names every place at which something stands, once and in pre-order. -/
structure Listing {α : Type} (standsAt : Place → Option α) (listed : List (Place × α)) : Prop where
  exact : ∀ place node, (place, node) ∈ listed ↔ standsAt place = some node
  ordered : listed.Pairwise fun first second => first.1.Precedes second.1

section Selection
variable {α β γ : Type}

def selectAt (select : α → Option β) (entry : Place × α) : Option (Place × β) :=
  (select entry.2).map fun selected => (entry.1, selected)

theorem select_place (select : α → Option β) (entry : Place × α) (selected : Place × β)
    (found : selectAt select entry = some selected) : selected.1 = entry.1 := by
  obtain ⟨_, _, rfl⟩ := Option.map_eq_some_iff.mp found
  rfl

theorem select_nodes (select : α → Option β) (listed : List (Place × α)) :
    (listed.filterMap (selectAt select)).map Prod.snd =
      (listed.map Prod.snd).filterMap select := by
  rw [List.map_filterMap, List.filterMap_map]
  congr
  funext entry
  simp [selectAt, Option.map_map, Function.comp_def]

theorem select_select (first : α → Option β) (second : β → Option γ)
    (listed : List (Place × α)) :
    (listed.filterMap (selectAt first)).filterMap (selectAt second) =
      listed.filterMap (selectAt fun node => (first node).bind second) := by
  rw [List.filterMap_filterMap]
  congr
  funext entry
  cases found : first entry.2 <;> simp [selectAt, found]

theorem select_ordered (select : α → Option β) (before : Place → Place → Prop)
    (listed : List (Place × α))
    (ordered : listed.Pairwise fun first second => before first.1 second.1) :
    (listed.filterMap (selectAt select)).Pairwise
      fun first second => before first.1 second.1 := by
  refine ordered.filterMap _ fun first second order left atLeft right atRight => ?_
  rw [select_place select first left atLeft, select_place select second right atRight]
  exact order

theorem Listing.select {standsAt : Place → Option α} {listed : List (Place × α)}
    (listing : Listing standsAt listed) (select : α → Option β) :
    Listing (fun place => (standsAt place).bind select) (listed.filterMap (selectAt select)) := by
  refine ⟨fun place selected => ?_, select_ordered select Place.Precedes listed listing.ordered⟩
  rw [List.mem_filterMap, Option.bind_eq_some_iff]
  constructor
  · rintro ⟨⟨at', node⟩, member, found⟩
    obtain ⟨chosen, atNode, same⟩ := Option.map_eq_some_iff.mp found
    cases same
    exact ⟨node, (listing.exact at' node).mp member, atNode⟩
  · rintro ⟨node, stands, atNode⟩
    exact ⟨(place, node), (listing.exact place node).mpr stands, by simp [selectAt, atNode]⟩

end Selection

end JavaOutline.Walk
