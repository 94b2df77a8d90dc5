import JavaOutline.Proofs.Inspection.Obstacles
import JavaOutline.Proofs.Settings.Checks
import Mathlib.Data.List.Nodup

/-!
Which files are collected on a disk without links. The files of a folder are listed by the rows of
names that lead to them; a folder below another lists its rows behind its own name, and the rows of
its items follow one another as the names of the items do. Where every folder can be listed, this
lists every wanted file once.
-/
namespace JavaOutline.Inspection

open Files

/-- What is asked of the names that lead from a root to a file: its extension is that of sources,
no folder on the way is hidden or named for build output, and the path is kept. -/
structure Wanted (keeps : String → Prop) (root : String) (names : List String) : Prop where
  java : ∃ folders stem, names = folders ++ [stem ++ ".java"] ∧ stem ≠ ""
  seen : ∀ folder ∈ names.dropLast,
    folder.startsWith "." = false ∧ folder ∉ ["target", "build", "out"]
  kept : keeps (spelled root names)

def IsFile (items : Folder) (names : List String) : Prop :=
  ∃ text access, (Entry.folder items).below? names = some (.file text access)

/-- The paths are those of the wanted files below a root, in the order of their names. -/
def Lists (keeps : String → Prop) (root : String) (items : Folder) (found : List String) : Prop :=
  ∃ rows : List (List String), found = rows.map (spelled root) ∧ rows.Pairwise Before ∧
    ∀ names, names ∈ rows ↔ IsFile items names ∧ Wanted keeps root names

/-- What is collected for a root: the root itself, if it is a file, or the wanted files below it. -/
def Collected (disk : Disk) (settings : Settings) (root : String) (found : List String) : Prop :=
  (∃ text access, disk.find root = .ok (.file text access)) ∧ found = [root] ∨
    ∃ items access, disk.find root = .ok (.folder items access) ∧ found.Nodup ∧
      Lists settings.Keeps root items found

/-- A root stands for nothing, or a folder there or below cannot be listed. -/
def Shut (disk : Disk) (root : String) : Prop :=
  disk.holds root = false ∨ ∃ items access, disk.find root = .ok (.folder items access) ∧
    Unlisted disk root (.folder items access)

theorem passed_over_iff (name : String) :
    isPassedOver name = false ↔
      name.startsWith "." = false ∧ name ∉ ["target", "build", "out"] := by
  simp [isPassedOver]

theorem java_iff (name : String) :
    extension? name = some "java" ↔ ∃ stem, name = stem ++ ".java" ∧ stem ≠ "" := by
  refine (extension_iff name "java" (by decide)).trans (exists_congr fun stem => ?_)
  have whole : stem ++ "." ++ "java" = stem ++ ".java" := String.append_assoc ..
  rw [whole, and_comm]

section Rows

variable {keeps : String → Prop} {root : String} {items : Folder}

theorem file_filled {names : List String} (leads : IsFile items names) : names ≠ [] := by
  rintro rfl
  obtain ⟨text, access, found⟩ := leads
  cases found

theorem file_cons (name : String) (rest : List String) :
    IsFile items (name :: rest) ↔ ∃ entry text access,
      Folder.item? items name = some entry ∧ entry.below? rest = some (.file text access) := by
  simp only [IsFile, Entry.below_cons, Option.bind_eq_some_iff]
  exact ⟨fun ⟨text, access, entry, found, below⟩ => ⟨entry, text, access, found, below⟩,
    fun ⟨entry, text, access, found, below⟩ => ⟨text, access, entry, found, below⟩⟩

theorem file_item (item : String × Entry) (names : List String) :
    IsFile [item] names ↔ ∃ rest text access,
      names = item.1 :: rest ∧ item.2.below? rest = some (.file text access) := by
  cases names with
  | nil =>
      exact ⟨fun leads => absurd rfl (file_filled leads), fun ⟨_, _, _, same, _⟩ => nomatch same⟩
  | cons name rest =>
      rw [file_cons, Folder.item_cons]
      by_cases same : item.1 = name
      · simp [same]
      · simp [same, Ne.symm same]

theorem file_items (item : String × Entry) (apart : item.1 ∉ items.map Prod.fst)
    (names : List String) :
    IsFile (item :: items) names ↔ IsFile [item] names ∨ IsFile items names := by
  cases names with
  | nil => simp [IsFile, Entry.below?]
  | cons name rest =>
      rw [file_cons, file_cons, file_cons, Folder.item_cons, Folder.item_cons, Folder.item_nil]
      split
      case isTrue same =>
          have absent : Folder.item? items name = none := by
            cases found : Folder.item? items name with
            | none => rfl
            | some entry =>
                exact absurd (List.mem_map.mpr ⟨_, Folder.item_mem found, same.symm⟩) apart
          simp [absent]
      case isFalse => simp

theorem file_perm {others : Folder} (same : others.Perm items) (once : (items.map Prod.fst).Nodup)
    (names : List String) : IsFile others names ↔ IsFile items names := by
  cases names with
  | nil => simp [IsFile, Entry.below?]
  | cons name rest =>
      have also : (others.map Prod.fst).Nodup := (same.map Prod.fst).nodup_iff.mpr once
      have found : Folder.item? others name = Folder.item? items name := by
        apply Option.ext
        intro entry
        rw [Folder.item_once also, Folder.item_once once, same.mem_iff]
      rw [file_cons, file_cons, found]

theorem below_access (items : Folder) (access other : Access) {names : List String}
    (filled : names ≠ []) :
    (Entry.folder items access).below? names = (Entry.folder items other).below? names := by
  obtain ⟨name, rest, rfl⟩ := List.exists_cons_of_ne_nil filled
  rw [Entry.below_cons, Entry.below_cons]

theorem wanted_file (name : String) :
    Wanted keeps root [name] ↔ extension? name = some "java" ∧ keeps (join root name) := by
  rw [java_iff]
  constructor
  · intro wanted
    obtain ⟨folders, stem, whole, filled⟩ := wanted.java
    cases folders with
    | nil => exact ⟨⟨stem, List.singleton_inj.mp whole, filled⟩, wanted.kept⟩
    | cons first folders => simp at whole
  · rintro ⟨⟨stem, rfl, filled⟩, kept⟩
    exact ⟨⟨[], stem, rfl, filled⟩, by simp, kept⟩

theorem wanted_below (name : String) (names : List String) (further : names ≠ []) :
    Wanted keeps root (name :: names) ↔
      isPassedOver name = false ∧ Wanted keeps (join root name) names := by
  rw [passed_over_iff]
  constructor
  · rintro ⟨⟨folders, stem, whole, filled⟩, seen, kept⟩
    rw [List.dropLast_cons_of_ne_nil further] at seen
    obtain ⟨own, others⟩ := List.forall_mem_cons.mp seen
    refine ⟨own, ?_, others, kept⟩
    cases folders with
    | nil => exact absurd (List.cons.inj whole).2 further
    | cons first folders => exact ⟨folders, stem, (List.cons.inj whole).2, filled⟩
  · rintro ⟨own, ⟨folders, stem, rfl, filled⟩, seen, kept⟩
    refine ⟨⟨name :: folders, stem, rfl, filled⟩, ?_, kept⟩
    rw [List.dropLast_cons_of_ne_nil further]
    exact List.forall_mem_cons.mpr ⟨own, seen⟩

theorem Lists.nil : Lists keeps root [] [] :=
  ⟨[], rfl, .nil, fun names => by
    cases names <;> simp [IsFile, Entry.below?]⟩

/-- The files of an item are listed before those of items with later names. -/
theorem Lists.cons {item : String × Entry} {first others : List String}
    (ascends : ∀ other ∈ items, item.1 < other.1) (own : Lists keeps root [item] first)
    (later : Lists keeps root items others) :
    Lists keeps root (item :: items) (first ++ others) := by
  obtain ⟨ownRows, rfl, ownOrdered, ownExactly⟩ := own
  obtain ⟨rows, rfl, ordered, exactly⟩ := later
  have apart : item.1 ∉ items.map Prod.fst := by
    intro member
    obtain ⟨other, there, same⟩ := List.mem_map.mp member
    exact String.lt_irrefl _ (same ▸ ascends other there)
  refine ⟨ownRows ++ rows, (List.map_append).symm, ?_, fun names => ?_⟩
  · refine List.pairwise_append.mpr ⟨ownOrdered, ordered, fun row among other after => ?_⟩
    obtain ⟨leads, -⟩ := (ownExactly row).mp among
    obtain ⟨rest, text, access, rfl, -⟩ := (file_item item row).mp leads
    obtain ⟨further, -⟩ := (exactly other).mp after
    cases other with
    | nil => exact absurd rfl (file_filled further)
    | cons name row =>
        obtain ⟨entry, _, _, there, -⟩ := (file_cons name row).mp further
        exact Before.of_heads (ascends _ (Folder.item_mem there)) rest row
  · simp only [List.mem_append, ownExactly, exactly, file_items item apart, or_and_right]

/-- The order in which a folder holds its items does not matter. -/
theorem Lists.perm {others : Folder} {found : List String} (same : others.Perm items)
    (once : (items.map Prod.fst).Nodup) (listed : Lists keeps root others found) :
    Lists keeps root items found := by
  obtain ⟨rows, rfl, ordered, exactly⟩ := listed
  exact ⟨rows, rfl, ordered, fun names => by rw [exactly, file_perm same once]⟩

theorem Lists.file (kept : String → Bool) (name : String) (text : Option String)
    (access : Access) :
    Lists (fun path => kept path = true) root [(name, .file text access)]
      (if extension? name = some "java" && kept (join root name) then [join root name]
        else []) := by
  have among (names : List String) :
      IsFile [(name, .file text access)] names ∧ Wanted (fun path => kept path = true) root names ↔
        (extension? name = some "java" ∧ kept (join root name) = true) ∧ names = [name] := by
    have own : Wanted (fun path => kept path = true) root [name] ↔ _ := wanted_file name
    rw [← own]
    constructor
    · rintro ⟨leads, wanted⟩
      obtain ⟨rest, _, _, rfl, below⟩ := (file_item _ names).mp leads
      cases rest with
      | nil => exact ⟨wanted, rfl⟩
      | cons _ _ => cases below
    · rintro ⟨wanted, rfl⟩
      exact ⟨(file_item _ _).mpr ⟨[], text, access, rfl, rfl⟩, wanted⟩
  by_cases told : extension? name = some "java" ∧ kept (join root name) = true
  · exact ⟨[[name]], by simp [told, spelled], List.pairwise_singleton _ _,
      fun names => by simp [among, told]⟩
  · exact ⟨[], by simpa using told, .nil, fun names => by simp only [among, told]; simp⟩

theorem Lists.folder {found : List String} {name : String} (access : Access)
    (seen : isPassedOver name = false) (listed : Lists keeps (join root name) items found) :
    Lists keeps root [(name, .folder items access)] found := by
  obtain ⟨rows, rfl, ordered, exactly⟩ := listed
  refine ⟨rows.map (List.cons name), ?_, ?_, fun names => ?_⟩
  · rw [List.map_map]
    rfl
  · exact List.pairwise_map.mpr (ordered.imp fun before => before.cons name)
  · rw [List.mem_map]
    constructor
    · rintro ⟨row, member, rfl⟩
      obtain ⟨⟨text, own, below⟩, inside⟩ := (exactly row).mp member
      have filled := file_filled ⟨text, own, below⟩
      refine ⟨(file_item _ _).mpr ⟨row, text, own, rfl, ?_⟩,
        (wanted_below name row filled).mpr ⟨seen, inside⟩⟩
      rwa [below_access items access {} filled]
    · rintro ⟨leads, wanted⟩
      obtain ⟨row, text, own, rfl, below⟩ := (file_item _ names).mp leads
      have filled : row ≠ [] := by
        rintro rfl
        cases below
      obtain ⟨-, inside⟩ := (wanted_below name row filled).mp wanted
      rw [below_access items access {} filled] at below
      exact ⟨row, (exactly row).mpr ⟨⟨text, own, below⟩, inside⟩, rfl⟩

theorem Lists.passed {name : String} (access : Access) (passed : isPassedOver name = true) :
    Lists keeps root [(name, .folder items access)] [] := by
  refine ⟨[], rfl, .nil, fun names => ?_⟩
  constructor
  · intro member
    cases member
  · rintro ⟨leads, wanted⟩
    obtain ⟨row, text, own, rfl, below⟩ := (file_item _ names).mp leads
    have filled : row ≠ [] := by
      rintro rfl
      cases below
    cases passed.symm.trans ((wanted_below name row filled).mp wanted).1

end Rows

theorem by_name_ascends (items : Folder) (once : (items.map Prod.fst).Nodup) :
    (byName items).Pairwise fun a b => a.1 < b.1 := by
  have apart : (byName items).Pairwise fun a b => a.1 ≠ b.1 :=
    List.pairwise_map.mp ((((List.mergeSort_perm items _).map Prod.fst).nodup_iff).mpr once)
  have ascends : (byName items).Pairwise fun a b => decide (a.1 ≤ b.1) = true := by
    apply List.pairwise_mergeSort
    · intro a b c first second
      simp only [decide_eq_true_eq] at first second ⊢
      exact String.le_trans first second
    · intro a b
      simpa using String.le_total a.1 b.1
  refine ascends.imp₂ (fun {a b} below other => ?_) apart
  exact String.not_le.mp fun above => other (String.le_antisymm (of_decide_eq_true below) above)

theorem items_listed {keeps : String → Prop} {root : String} {items : Folder}
    {lists : List (List String)} {gives : String × Entry → List String → Prop}
    (ascends : items.Pairwise fun a b => a.1 < b.1) (each : List.Forall₂ gives items lists)
    (lists_own : ∀ item ∈ items, ∀ own, gives item own → Lists keeps root [item] own) :
    Lists keeps root items lists.flatten := by
  induction each with
  | nil => exact Lists.nil
  | cons given _ ih =>
      obtain ⟨first, later⟩ := List.pairwise_cons.mp ascends
      obtain ⟨own, others⟩ := List.forall_mem_cons.mp lists_own
      exact Lists.cons first (own _ given) (ih later others)

variable {disk : Disk} {settings : Settings}

theorem walk_lists (kept : String → Bool) {levels : Nat} {above : List Stage} {root : String}
    {items : Folder} {access : Access} {found : List String} (filled : root ≠ "")
    (orderly : (Entry.folder items access).Orderly)
    (unlinked : (Entry.folder items access).Unlinked)
    (stands : disk.Stands root (.folder items access))
    (walked : walk disk kept levels above root = .ok found) :
    Lists (fun path => kept path = true) root items found := by
  induction levels generalizing above root items access found with
  | zero => cases walked
  | succ levels ih =>
      cases listed : disk.list root with
      | error fault =>
          obtain ⟨obstacle, failed⟩ :
              ∃ obstacle, walk disk kept (levels + 1) above root = .error obstacle :=
            walk_unlisted listed (levels + 1)
          cases walked.symm.trans failed
      | ok others =>
          cases listed_same stands listed
          obtain ⟨place, located⟩ := list_place listed
          rw [walk_listed listed located] at walked
          obtain ⟨lists, gathered, rfl⟩ := map_ok walked
          have once : (items.map Prod.fst).Nodup := by
            cases orderly with
            | folder _ _ once _ _ => exact once
          refine Lists.perm (List.mergeSort_perm items _) once (items_listed
            (by_name_ascends items once) ((mapM_ok_forall_iff _ _ _).mp gathered)
              fun item among own given => ?_)
          have member := mem_by_name.mp among
          obtain ⟨below, joined, ordered, loose⟩ :=
            stands_item filled orderly unlinked stands member
          obtain ⟨name, entry⟩ := item
          cases entry with
          | link target => exact absurd rfl (loose_item orderly unlinked member target)
          | file text rights =>
              cases given
              exact Lists.file kept name text rights
          | folder inner rights =>
              simp only [itemPaths, followed, bind, Except.bind] at given
              split at given
              case isTrue passed =>
                  cases given
                  exact Lists.passed rights passed
              case isFalse seen =>
                  exact Lists.folder rights (by simpa using seen)
                    (ih joined ordered loose below given)

theorem Lists.nodup {items : Folder} {keeps : String → Prop} {root : String}
    {found : List String} {access : Access} (orderly : (Entry.folder items access).Orderly)
    (listed : Lists keeps root items found) : found.Nodup := by
  obtain ⟨rows, rfl, ordered, exactly⟩ := listed
  have leads (row : List String) (member : row ∈ rows) :
      row ≠ [] ∧ ∀ name ∈ row, Plain name := by
    obtain ⟨⟨text, own, below⟩, -⟩ := (exactly row).mp member
    have filled := file_filled ⟨text, own, below⟩
    rw [below_access items {} access filled] at below
    exact ⟨filled, Entry.orderly_names orderly below⟩
  refine List.Nodup.map_on (fun first one second other same => ?_) (Before.nodup ordered)
  exact spelled_apart (leads first one).1 (leads second other).1 (leads first one).2
    (leads second other).2 same

theorem find_filled {path : String} {entry : Entry} (found : disk.find path = .ok entry) :
    path ≠ "" := by
  obtain ⟨place, located, -⟩ := (Disk.find_ok_iff path entry).mp found
  exact ((Disk.locate_ok_iff path place).mp located).1

theorem barred_iff_shut (orderly : disk.Orderly) (unlinked : disk.Unlinked) (root : String) :
    Barred disk root ↔ Shut disk root := by
  unfold Barred Shut
  cases found : disk.find root with
  | error fault =>
      have absent : disk.holds root = false := by
        rw [Disk.holds, found]
      simp [absent]
  | ok entry =>
      have there : disk.holds root = true := (Disk.holds_iff root).mpr ⟨entry, found⟩
      have inside := Disk.orderly_found orderly found
      have loose := Disk.unlinked_found unlinked found
      have stands := Disk.stands_of_find found
      cases entry with
      | link target => exact absurd rfl (loose [] target)
      | file text access => simp [there, (Disk.is_file_iff root).mpr ⟨text, access, found⟩]
      | folder items access =>
          have unfiled : disk.isFile root = false := by
            rw [Disk.isFile, found]
          simp [there, unfiled,
            obstructed_iff_unlisted [] (find_filled found) inside loose stands]

theorem paths_below_collected (orderly : disk.Orderly) (unlinked : disk.Unlinked)
    (sound : settings.Sound) (root : String) (found : List String)
    (listed : pathsBelow disk settings root = .ok found) : Collected disk settings root found := by
  unfold pathsBelow at listed
  split at listed
  case h_1 text access here =>
      cases listed
      exact .inl ⟨⟨text, access, here⟩, rfl⟩
  case h_3 => cases listed
  case h_2 entry bare here =>
      have inside := Disk.orderly_found orderly here
      have loose := Disk.unlinked_found unlinked here
      have stands := Disk.stands_of_find here
      cases entry with
      | link target => exact absurd rfl (loose [] target)
      | file text access => exact absurd rfl (bare text access)
      | folder items access =>
          have same : (fun path => (!settings.isExcluded path) = true) = settings.Keeps := by
            funext path
            simp [← Settings.not_excluded_iff sound]
          have lists := walk_lists _ (find_filled here) inside loose stands
            ((map_error_ok_iff _ _ _).mp listed)
          rw [same] at lists
          exact .inr ⟨items, access, here, lists.nodup inside, lists⟩

/-- Collecting fails if a root stands for nothing or a folder at or below it cannot be listed, and
only then. Otherwise the files of the roots follow one another as the roots do: a file that is named
stands for itself, and a folder for the wanted files below it, each of them once, in the order of
their names. -/
theorem paths_collected (disk : Disk) (settings : Settings) (roots : List String)
    (orderly : disk.Orderly) (unlinked : disk.Unlinked)
    (checked : settings.checked = .ok settings) :
    ((∃ error, paths disk settings roots = .error error) ↔ ∃ root ∈ roots, Shut disk root) ∧
      ((∀ root ∈ roots, ¬ Shut disk root) →
        ∃ lists, paths disk settings roots = .ok lists.flatten ∧
          List.Forall₂ (Collected disk settings) roots lists) := by
  obtain ⟨-, sound⟩ := (Settings.checked_iff settings).mp checked
  have fails : (∃ error, paths disk settings roots = .error error) ↔
      ∃ root ∈ roots, Shut disk root := by
    simp only [paths_fail_iff orderly, barred_iff_shut orderly unlinked]
  refine ⟨fails, fun free => ?_⟩
  cases gathered : paths disk settings roots with
  | error error =>
      obtain ⟨root, member, shut⟩ := fails.mp ⟨error, gathered⟩
      exact absurd shut (free root member)
  | ok found =>
      obtain ⟨lists, each, rfl⟩ := map_ok gathered
      refine ⟨lists, rfl, ((mapM_ok_forall_iff _ _ _).mp each).imp ?_⟩
      exact paths_below_collected orderly unlinked sound

def smallDisk : Disk where
  root := [("home", .folder [
    ("src", .folder [
      ("main", .folder [("A.java", .file (some "class A \x7b\x7d"))]),
      ("more", .folder [("gen", .folder [("G.java", .file (some "class G \x7b\x7d"))])]),
      ("notes.txt", .file none)]),
    ("target", .folder [("T.java", .file (some "class T \x7b\x7d"))])])]
  work := ["home"]

def withoutGenerated : Settings :=
  { excludedPaths := ["**/gen/**"] }

def smallRoots : List String :=
  ["target", "src/notes.txt", "/home/src/main", "../home/src/more"]

theorem small_disk_collected :
    smallDisk.Orderly ∧ smallDisk.Unlinked ∧ withoutGenerated.checked = .ok withoutGenerated ∧
      (∀ root ∈ smallRoots, ¬ Shut smallDisk root) ∧
      ∃ lists, paths smallDisk withoutGenerated smallRoots = .ok lists.flatten ∧
        List.Forall₂ (Collected smallDisk withoutGenerated) smallRoots lists := by
  obtain ⟨orderly, unlinked⟩ := @Disk.tidy_unlinked smallDisk (by decide +kernel)
  have checked : withoutGenerated.checked = .ok withoutGenerated := rfl
  obtain ⟨fails, collects⟩ :=
    paths_collected smallDisk withoutGenerated smallRoots orderly unlinked checked
  have succeeds : (paths smallDisk withoutGenerated smallRoots).isOk = true := by decide +kernel
  have free : ∀ root ∈ smallRoots, ¬ Shut smallDisk root := by
    intro root member shut
    obtain ⟨error, failed⟩ := fails.mpr ⟨root, member, shut⟩
    rw [failed] at succeeds
    cases succeeds
  exact ⟨orderly, unlinked, checked, free, collects free⟩

def lockedDisk : Disk where
  root := [("src", .folder [("locked", .folder [] { read := false })])]

/-- Roots that are there and cannot be walked through: one for the rights of a folder below it, one
for the length of its path. -/
theorem standing_roots_fail :
    ({} : Settings).checked = .ok {} ∧
    (lockedDisk.Orderly ∧ lockedDisk.Unlinked ∧ lockedDisk.holds "src" = true ∧
      ∃ error, paths lockedDisk {} ["src"] = .error error) ∧
    (deepDisk.Orderly ∧ deepDisk.Unlinked ∧ deepDisk.holds (dotted "d" 2045) = true ∧
      ∃ error, paths deepDisk {} [dotted "d" 2045] = .error error) := by
  obtain ⟨orderly, unlinked⟩ := @Disk.tidy_unlinked deepDisk (by decide +kernel)
  obtain ⟨lockedOrderly, lockedUnlinked⟩ :=
    @Disk.tidy_unlinked lockedDisk (by decide +kernel)
  obtain ⟨holds, barred⟩ := deep_root_barred
  refine ⟨rfl, ⟨lockedOrderly, lockedUnlinked, by decide +kernel, ?_⟩, orderly, unlinked, holds,
    (paths_fail_iff orderly _ _).mpr ⟨_, List.mem_singleton.mpr rfl, barred⟩⟩
  cases found : paths lockedDisk {} ["src"] with
  | error error => exact ⟨error, rfl⟩
  | ok files =>
      have failing : (paths lockedDisk {} ["src"]).isOk = false := by decide +kernel
      rw [found] at failing
      cases failing

end JavaOutline.Inspection
