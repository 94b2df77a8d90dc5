import JavaOutline.Proofs.Walk.Places

/-!
Listings of trees with the place of every node, in pre-order and in post-order. Both come from one
recursion that differs only in where a node joins the nodes below it.
-/
namespace JavaOutline.Walk

variable {α : Type}

abbrev Join (α : Type) := Place × α → List (Place × α) → List (Place × α)

def Join.before : Join α := fun own below => own :: below

def Join.behind : Join α := fun own below => below ++ [own]

namespace Rose

/-- A property of all trees, from that of the children to that of the node above them. -/
@[elab_as_elim]
theorem induction {motive : Rose α → Prop}
    (step : ∀ value children, (∀ child ∈ children, motive child) → motive (.node value children)) :
    ∀ tree : Rose α, motive tree
  | .node value children => step value children fun child _ => induction step child

mutual

def listed (join : Join α) : Rose α → List (Place × α)
  | .node value children => join ([], value) (listedAll join 0 children)

def listedAll (join : Join α) (index : Nat) : List (Rose α) → List (Place × α)
  | [] => []
  | tree :: rest =>
    (tree.listed join).map (fun entry => (index :: entry.1, entry.2)) ++
      listedAll join (index + 1) rest

end

theorem listed_all_index (join : Join α) (trees : List (Rose α)) (index : Nat)
    (entry : Place × α) (member : entry ∈ listedAll join index trees) :
    ∃ found rest, index ≤ found ∧ entry.1 = found :: rest := by
  induction trees generalizing index with
  | nil => simp [listedAll] at member
  | cons tree rest ih =>
      rcases List.mem_append.mp member with own | other
      · obtain ⟨inner, _, rfl⟩ := List.mem_map.mp own
        exact ⟨index, inner.1, Nat.le_refl _, rfl⟩
      · obtain ⟨found, place, order, same⟩ := ih (index + 1) other
        exact ⟨found, place, by omega, same⟩

-- The relation has to survive going down one step and to hold between siblings; where the node
-- itself stands is the business of the two orders below.
theorem listed_all_ordered (join : Join α) (before : Place → Place → Prop)
    (under : ∀ index first second, before first second →
      before (index :: first) (index :: second))
    (beside : ∀ left right first second, left < right → before (left :: first) (right :: second))
    (trees : List (Rose α)) (index : Nat)
    (each : ∀ tree ∈ trees,
      (tree.listed join).Pairwise fun first second => before first.1 second.1) :
    (listedAll join index trees).Pairwise fun first second => before first.1 second.1 := by
  induction trees generalizing index with
  | nil => exact List.Pairwise.nil
  | cons tree rest ih =>
      refine List.pairwise_append.mpr ⟨?_, ?_, ?_⟩
      · exact (each tree List.mem_cons_self).map _ fun first second => under index first.1 second.1
      · exact ih (index + 1) fun other member => each other (List.mem_cons_of_mem tree member)
      · intro first own second later
        obtain ⟨inner, _, rfl⟩ := List.mem_map.mp own
        obtain ⟨found, place, order, same⟩ := listed_all_index join rest (index + 1) second later
        rw [same]
        exact beside index found inner.1 place (by omega)

theorem listed_preorder (tree : Rose α) :
    (tree.listed Join.before).Pairwise fun first second => first.1.Precedes second.1 := by
  induction tree using Rose.induction with
  | step value children below =>
      refine List.pairwise_cons.mpr ⟨?_, ?_⟩
      · intro entry member
        obtain ⟨found, place, _, same⟩ := listed_all_index _ children 0 entry member
        rw [same]
        exact Place.precedes_root found place
      · exact listed_all_ordered _ Place.Precedes Place.precedes_under Place.precedes_beside
          children 0 below

theorem listed_postorder (tree : Rose α) :
    (tree.listed Join.behind).Pairwise fun first second => first.1.DoneBefore second.1 := by
  induction tree using Rose.induction with
  | step value children below =>
      refine List.pairwise_append.mpr ⟨?_, List.pairwise_singleton .., ?_⟩
      · exact listed_all_ordered _ Place.DoneBefore Place.doneBefore_under Place.doneBefore_beside
          children 0 below
      · intro entry member last isLast
        obtain ⟨found, place, _, same⟩ := listed_all_index _ children 0 entry member
        rw [List.mem_singleton.mp isLast, same]
        exact Place.doneBefore_root found place

theorem listed_all_perm (left right : Join α) (trees : List (Rose α)) (index : Nat)
    (each : ∀ tree ∈ trees, (tree.listed left).Perm (tree.listed right)) :
    (listedAll left index trees).Perm (listedAll right index trees) := by
  induction trees generalizing index with
  | nil => exact List.Perm.nil
  | cons tree rest ih =>
      refine List.Perm.append ((each tree List.mem_cons_self).map _) ?_
      exact ih (index + 1) fun other member => each other (List.mem_cons_of_mem tree member)

theorem postorder_perm_preorder (tree : Rose α) :
    (tree.listed Join.behind).Perm (tree.listed Join.before) := by
  induction tree using Rose.induction with
  | step value children below =>
      have moved : (listedAll Join.behind 0 children ++ [([], value)]).Perm
          (([], value) :: listedAll Join.behind 0 children) := List.perm_append_singleton ..
      exact moved.trans ((listed_all_perm _ _ children 0 below).cons _)

theorem listed_nodes (join : Join α) (trees : List (Rose α)) (index : Nat) :
    (listedAll join index trees).map Prod.snd =
      trees.flatMap fun tree => (tree.listed join).map Prod.snd := by
  induction trees generalizing index with
  | nil => rfl
  | cons tree rest ih =>
      simp only [listedAll, List.map_append, List.map_map, List.flatMap_cons, ih]
      rfl

end Rose

/-- The children of every node are the trees of its parts. -/
def Unfolds (parts : α → List α) (tree : α → Rose α) : Prop :=
  ∀ whole, tree whole = .node whole ((parts whole).map tree)

namespace Unfolds

variable {parts : α → List α} {tree : α → Rose α} (unfolds : Unfolds parts tree)
include unfolds

/-- What holds of a whole as soon as it holds of its parts holds everywhere. -/
theorem induction {motive : α → Prop}
    (step : ∀ whole, (∀ part ∈ parts whole, motive part) → motive whole) (whole : α) :
    motive whole := by
  -- The parts need not get smaller in any way of their own, but their trees do.
  have general : ∀ shape : Rose α, ∀ node, tree node = shape → motive node := by
    intro shape
    induction shape using Rose.induction with
    | step value children below =>
        intro node same
        obtain ⟨rfl, rfl⟩ := Rose.node.inj ((unfolds node).symm.trans same)
        refine step node fun part member => ?_
        exact below (tree part) (List.mem_map_of_mem member) part rfl
  exact general (tree whole) whole rfl

theorem nodes_before (whole : α) :
    ((tree whole).listed Join.before).map Prod.snd =
      whole :: (parts whole).flatMap fun part => ((tree part).listed Join.before).map Prod.snd := by
  rw [unfolds whole, Rose.listed, Join.before, List.map_cons, Rose.listed_nodes, List.flatMap_map]

theorem nodes_behind (whole : α) :
    ((tree whole).listed Join.behind).map Prod.snd =
      ((parts whole).flatMap fun part => ((tree part).listed Join.behind).map Prod.snd) ++
        [whole] := by
  rw [unfolds whole, Rose.listed, Join.behind, List.map_append, Rose.listed_nodes,
    List.flatMap_map]
  rfl

omit unfolds in
theorem mem_listed_all (wholes : List α) (index : Nat) (place : Place) (node : α)
    (each : ∀ whole ∈ wholes, ∀ place node,
      (place, node) ∈ (tree whole).listed Join.before ↔ partAt? parts whole place = some node) :
    (place, node) ∈ Rose.listedAll Join.before index (wholes.map tree) ↔
      ∃ offset rest, place = (index + offset) :: rest ∧
        partAmong? parts wholes (offset :: rest) = some node := by
  induction wholes generalizing index with
  | nil => simp [Rose.listedAll, partAmong?]
  | cons whole others ih =>
      have own := each whole List.mem_cons_self
      have later := ih (index + 1) fun other member => each other (List.mem_cons_of_mem _ member)
      simp only [List.map_cons, Rose.listedAll, List.mem_append, List.mem_map, Prod.mk.injEq]
      rw [later]
      constructor
      · rintro (⟨⟨inner, found⟩, member, rfl, rfl⟩ | ⟨offset, rest, rfl, found⟩)
        · exact ⟨0, inner, rfl, by simpa [partAmong?] using (own inner found).mp member⟩
        · refine ⟨offset + 1, rest, by simp; omega, ?_⟩
          simpa [partAmong?] using found
      · rintro ⟨offset, rest, rfl, found⟩
        cases offset with
        | zero =>
            have inside : partAt? parts whole rest = some node := by simpa [partAmong?] using found
            exact Or.inl ⟨(rest, node), (own rest node).mpr inside, rfl, rfl⟩
        | succ offset =>
            refine Or.inr ⟨offset, rest, by simp; omega, ?_⟩
            simpa [partAmong?] using found

omit unfolds in
theorem mem_listed_among (wholes : List α) (place : Place) (node : α)
    (each : ∀ whole ∈ wholes, ∀ place node,
      (place, node) ∈ (tree whole).listed Join.before ↔ partAt? parts whole place = some node) :
    (place, node) ∈ Rose.listedAll Join.before 0 (wholes.map tree) ↔
      partAmong? parts wholes place = some node := by
  rw [mem_listed_all wholes 0 place node each]
  cases place with
  | nil => simp [partAmong?]
  | cons index rest => simp [and_assoc]

theorem mem_listed (whole : α) (place : Place) (node : α) :
    (place, node) ∈ (tree whole).listed Join.before ↔ partAt? parts whole place = some node := by
  revert place node
  refine unfolds.induction (motive := fun whole => ∀ place node,
    (place, node) ∈ (tree whole).listed Join.before ↔ partAt? parts whole place = some node)
    (fun whole below place node => ?_) whole
  rw [unfolds whole, Rose.listed, Join.before, List.mem_cons,
    mem_listed_among (parts whole) place node below]
  cases place with
  | nil => simp [partAt?, partAmong?, eq_comm]
  | cons index rest => simp [partAt?, partAmong?]

theorem listing (whole : α) :
    Listing (partAt? parts whole) ((tree whole).listed Join.before) :=
  ⟨unfolds.mem_listed whole, (tree whole).listed_preorder⟩

theorem listing_among (wholes : List α) :
    Listing (partAmong? parts wholes)
      (Rose.listedAll Join.before 0 (wholes.map tree)) := by
  constructor
  · intro place node
    exact mem_listed_among wholes place node fun whole _ => unfolds.mem_listed whole
  · refine Rose.listed_all_ordered _ Place.Precedes Place.precedes_under
      Place.precedes_beside _ 0 ?_
    exact fun tree _ => tree.listed_preorder

end Unfolds

end JavaOutline.Walk
