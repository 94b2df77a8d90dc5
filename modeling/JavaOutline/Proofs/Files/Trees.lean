import JavaOutline.Proofs.Files.Following
import JavaOutline.Proofs.Text.Utf8

/-!
Trees of folders and the files below a root. Every folder of an orderly tree holds a name once, and
each name leads down. Where no links are in the tree, the path that is spelled along a row of names
leads, if anywhere, to the entry that the row itself leads to. Rows are ordered by the first name in
which they differ.
-/
namespace JavaOutline.Files

/-- Here and below, each name stands in its folder once and leads down. -/
inductive Entry.Orderly : Entry → Prop
  | file (text : Option String) (access : Access) : Orderly (.file text access)
  | link (target : String) : Orderly (.link target)
  | folder (items : Folder) (access : Access) (once : (items.map Prod.fst).Nodup)
      (plain : ∀ item ∈ items, Plain item.1) (below : ∀ item ∈ items, Orderly item.2) :
      Orderly (.folder items access)

def Entry.Unlinked (entry : Entry) : Prop :=
  ∀ names target, entry.below? names ≠ some (.link target)

def Disk.Orderly (disk : Disk) : Prop :=
  disk.top.Orderly

def Disk.Unlinked (disk : Disk) : Prop :=
  disk.top.Unlinked

/-- A row of names comes before another: in the first place where they differ, the bytes of its
name come first. -/
def Before (first second : List String) : Prop :=
  ∃ common a b firstRest secondRest, first = common ++ a :: firstRest ∧
    second = common ++ b :: secondRest ∧ Text.utf8 a.toList < Text.utf8 b.toList

namespace Before

theorem of_heads {a b : String} (less : a < b) (first second : List String) :
    Before (a :: first) (b :: second) :=
  ⟨[], a, b, first, second, rfl, rfl, Text.utf8_lt (String.lt_iff_toList_lt.mp less)⟩

theorem cons {first second : List String} (before : Before first second) (name : String) :
    Before (name :: first) (name :: second) := by
  obtain ⟨common, a, b, firstRest, secondRest, rfl, rfl, less⟩ := before
  exact ⟨name :: common, a, b, firstRest, secondRest, rfl, rfl, less⟩

theorem irrefl (row : List String) : ¬ Before row row := by
  rintro ⟨common, a, b, firstRest, secondRest, first, second, less⟩
  obtain ⟨rfl, -⟩ := List.cons.inj (List.append_cancel_left (first.symm.trans second))
  exact List.lt_irrefl _ less

theorem nodup {rows : List (List String)} (ordered : rows.Pairwise Before) : rows.Nodup := by
  refine ordered.imp fun {first second} before same => ?_
  subst same
  exact irrefl first before

end Before

namespace Folder

variable {items : Folder} {name : String} {entry : Entry}

theorem item_mem (found : item? items name = some entry) : (name, entry) ∈ items := by
  obtain ⟨item, first, rfl⟩ := Option.map_eq_some_iff.mp found
  have named : item.1 = name := by simpa using List.find?_some first
  rw [← named]
  exact List.mem_of_find?_eq_some first

@[simp] theorem item_nil : item? [] name = none :=
  rfl

theorem item_cons (item : String × Entry) (rest : Folder) :
    item? (item :: rest) name = if item.1 = name then some item.2 else item? rest name := by
  by_cases named : item.1 = name <;> simp [item?, named]

theorem item_once (once : (items.map Prod.fst).Nodup) :
    item? items name = some entry ↔ (name, entry) ∈ items := by
  refine ⟨item_mem, fun member => ?_⟩
  induction items with
  | nil => cases member
  | cons item rest ih =>
      obtain ⟨apart, others⟩ := List.nodup_cons.mp once
      rw [item_cons]
      rcases List.mem_cons.mp member with rfl | later
      · exact if_pos rfl
      · rw [if_neg, ih others later]
        rintro rfl
        exact apart (List.mem_map.mpr ⟨_, later, rfl⟩)

end Folder

namespace Entry

variable {entry inner : Entry} {items : Folder} {access : Access} {names : List String}

/-- What an orderly entry holds is orderly. -/
theorem orderly_below (orderly : entry.Orderly) (leads : entry.below? names = some inner) :
    inner.Orderly := by
  induction names generalizing entry with
  | nil =>
      cases leads
      exact orderly
  | cons name rest ih =>
      cases orderly with
      | file text access => cases leads
      | link target => cases leads
      | folder items access once plain below =>
          rw [below_cons] at leads
          obtain ⟨next, found, further⟩ := Option.bind_eq_some_iff.mp leads
          exact ih (below _ (Folder.item_mem found)) further

theorem orderly_names (orderly : entry.Orderly) (leads : entry.below? names = some inner) :
    ∀ name ∈ names, Plain name := by
  induction names generalizing entry with
  | nil => exact List.forall_mem_nil _
  | cons name rest ih =>
      cases orderly with
      | file text access => cases leads
      | link target => cases leads
      | folder items access once plain below =>
          rw [below_cons] at leads
          obtain ⟨next, found, further⟩ := Option.bind_eq_some_iff.mp leads
          have member := Folder.item_mem found
          exact List.forall_mem_cons.mpr ⟨plain _ member, ih (below _ member) further⟩

theorem unlinked_below (unlinked : entry.Unlinked) (leads : entry.below? names = some inner) :
    inner.Unlinked := by
  intro further target found
  apply unlinked (names ++ further) target
  rw [below_append, leads, Option.bind_some, found]

theorem unlinked_item (unlinked : (Entry.folder items access).Unlinked)
    (once : (items.map Prod.fst).Nodup) {item : String × Entry} (member : item ∈ items) :
    item.2.Unlinked := by
  have leads : (Entry.folder items access).below? [item.1] = some item.2 := by
    rw [below_cons, (Folder.item_once once).mpr member]
    rfl
  exact unlinked_below unlinked leads

theorem unlinked_folder (access : Access) (each : ∀ item ∈ items, item.2.Unlinked) :
    (Entry.folder items access).Unlinked := by
  intro names target found
  cases names with
  | nil => cases found
  | cons name rest =>
      rw [below_cons] at found
      obtain ⟨entry, there, further⟩ := Option.bind_eq_some_iff.mp found
      exact each _ (Folder.item_mem there) rest target further

mutual

def isTidy (links : Bool) : Entry → Bool
  | .file .. => true
  | .link _ => links
  | .folder items _ => (items.map Prod.fst).Nodup && areTidy links items

def areTidy (links : Bool) : List (String × Entry) → Bool
  | [] => true
  | item :: rest => isTidyItem links item && areTidy links rest

def isTidyItem (links : Bool) : String × Entry → Bool
  | (name, entry) => decide (Plain name) && isTidy links entry

end

mutual

theorem tidy_entry {links : Bool} : (entry : Entry) → entry.isTidy links = true →
    entry.Orderly ∧ (links = false → entry.Unlinked)
  | .file text access, _ => ⟨.file text access, fun _ names target found => by
      cases names <;> cases found⟩
  | .link target, tidy => ⟨.link target, fun none => by
      rw [isTidy, none] at tidy
      cases tidy⟩
  | .folder items access, tidy => by
      rw [isTidy, Bool.and_eq_true, decide_eq_true_eq] at tidy
      have each := tidy_items items tidy.2
      exact ⟨.folder items access tidy.1 (fun item member => (each item member).1)
          fun item member => (each item member).2.1,
        fun none => unlinked_folder access fun item member => (each item member).2.2 none⟩

theorem tidy_items {links : Bool} : (items : List (String × Entry)) →
    areTidy links items = true → ∀ item ∈ items, Plain item.1 ∧ item.2.Orderly ∧
      (links = false → item.2.Unlinked)
  | [], _ => List.forall_mem_nil _
  | item :: rest, tidy => by
      rw [areTidy, Bool.and_eq_true] at tidy
      exact List.forall_mem_cons.mpr ⟨tidy_item item tidy.1, tidy_items rest tidy.2⟩

theorem tidy_item {links : Bool} : (item : String × Entry) → isTidyItem links item = true →
    Plain item.1 ∧ item.2.Orderly ∧ (links = false → item.2.Unlinked)
  | (name, entry), tidy => by
      rw [isTidyItem, Bool.and_eq_true, decide_eq_true_eq] at tidy
      exact ⟨tidy.1, tidy_entry entry tidy.2⟩

end

end Entry

namespace Disk

variable {disk : Disk} {items : Folder} {access : Access}

theorem orderly_found {path : String} {entry : Entry} (orderly : disk.Orderly)
    (found : disk.find path = .ok entry) : entry.Orderly := by
  obtain ⟨place, -, reached⟩ := (find_ok_iff path entry).mp found
  exact Entry.orderly_below orderly reached

theorem unlinked_found {path : String} {entry : Entry} (unlinked : disk.Unlinked)
    (found : disk.find path = .ok entry) : entry.Unlinked := by
  obtain ⟨place, -, reached⟩ := (find_ok_iff path entry).mp found
  exact Entry.unlinked_below unlinked reached

/-- Wherever a path leads, an entry stands there. -/
def Stands (disk : Disk) (path : String) (entry : Entry) : Prop :=
  ∀ place, disk.locate path = .ok place → disk.occupant? place = some entry

theorem stands_of_find {path : String} {entry : Entry} (found : disk.find path = .ok entry) :
    disk.Stands path entry := by
  intro place located
  obtain ⟨other, also, there⟩ := (find_ok_iff path entry).mp found
  cases located.symm.trans also
  exact there

theorem Stands.find {path : String} {entry other : Entry} (stands : disk.Stands path entry)
    (found : disk.find path = .ok other) : other = entry := by
  obtain ⟨place, located, there⟩ := (find_ok_iff path other).mp found
  exact Option.some.inj (there.symm.trans (stands place located))

theorem Stands.join {base name : String} {entry : Entry} (filled : base ≠ "") (plain : Plain name)
    (stands : disk.Stands base (.folder items access))
    (found : Folder.item? items name = some entry)
    (loose : ∀ target, entry ≠ .link target) : disk.Stands (join base name) entry := by
  intro goal located
  obtain ⟨place, links, upper, onward⟩ := locate_below filled plain.relative located
  have here := stands place upper
  have there : disk.occupant? (place ++ [name]) = some entry := by rw [occupant_inside here, found]
  have unlinked (target : String) : disk.sight (place ++ [name]) ≠ some (.link target) := by
    rw [sight, there]
    intro same
    cases entry with
    | file text rights => cases same
    | folder inner rights => cases same
    | link goal => exact loose goal rfl
  rw [plain.pieces] at onward
  have down : goal = place ++ [name] := by
    refine follow_down (List.forall_mem_singleton.mpr plain)
      (fun front starts nonempty target => ?_)
      onward
    have same : front = [name] := by
      obtain ⟨rest, rfl, tail⟩ := (List.prefix_cons_iff.mp starts).resolve_left nonempty
      rw [List.prefix_nil.mp tail]
    rw [same]
    exact unlinked target
  rw [down, there]

theorem tidy_unlinked (tidy : disk.top.isTidy false = true) : disk.Orderly ∧ disk.Unlinked :=
  ⟨(Entry.tidy_entry disk.top tidy).1, (Entry.tidy_entry disk.top tidy).2 rfl⟩

theorem holds_iff (path : String) :
    disk.holds path = true ↔ ∃ entry, disk.find path = .ok entry := by
  unfold holds
  cases disk.find path <;> simp

theorem is_file_iff (path : String) :
    disk.isFile path = true ↔ ∃ text access, disk.find path = .ok (.file text access) := by
  unfold isFile
  cases disk.find path with
  | error fault => simp
  | ok entry => cases entry <;> simp

end Disk

end JavaOutline.Files
