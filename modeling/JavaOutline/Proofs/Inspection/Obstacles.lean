import JavaOutline.Inspection.Paths
import JavaOutline.Proofs.Attempts
import JavaOutline.Proofs.Files.Trees

/-!
What stops a walk. A walk fails if it comes to a folder that cannot be listed, or to a link that
leads nowhere, to a folder that cannot be opened, or back up; in which order it comes to entries
does not matter for that. On a disk without links only folders that cannot be listed are left, and
they are found by the rows of names that lead to them.
-/
namespace JavaOutline.Inspection

open Files

/-- A link, at a path, that cannot be followed from within some folders. -/
inductive Blocked (disk : Disk) (above : List Stage) (path : String) : Entry → Prop
  | dangling (target : String) (fault : FileFault) (lost : disk.find path = .error fault) :
      Blocked disk above path (.link target)
  | closed (target : String) (items : Folder) (access : Access)
      (found : disk.find path = .ok (.folder items access)) (unread : access.read = false) :
      Blocked disk above path (.link target)
  | back (target : String) (items : Folder) (access : Access) (stage : Stage)
      (found : disk.find path = .ok (.folder items access))
      (located : disk.locate path = .ok stage.place) (among : stage ∈ above) :
      Blocked disk above path (.link target)

def Means (disk : Disk) (path : String) : Entry → Entry → Prop
  | .link _, meant => disk.find path = .ok meant
  | entry, meant => entry = meant

/-- A walk that comes to a folder by a path, from within some folders, is stopped there or below. -/
inductive Obstructed (disk : Disk) : List Stage → String → Prop
  | unlisted {above : List Stage} {path : String} (fault : FileFault)
      (failed : disk.list path = .error fault) : Obstructed disk above path
  | blocked {above : List Stage} {path : String} {items : Folder} {place : List String}
      (listed : disk.list path = .ok items) (located : disk.locate path = .ok place)
      (item : String × Entry) (member : item ∈ items)
      (stuck : Blocked disk (⟨path, place⟩ :: above) (join path item.1) item.2) :
      Obstructed disk above path
  | deeper {above : List Stage} {path : String} {items inner : Folder} {place : List String}
      {access : Access} (listed : disk.list path = .ok items)
      (located : disk.locate path = .ok place) (item : String × Entry) (member : item ∈ items)
      (means : Means disk (join path item.1) item.2 (.folder inner access))
      (seen : isPassedOver item.1 = false)
      (further : Obstructed disk (⟨path, place⟩ :: above) (join path item.1)) :
      Obstructed disk above path

variable {disk : Disk} {above : List Stage} {path : String}

theorem enter_link_iff (above : List Stage) (path : String) (place : List String)
    (access : Access) :
    (∃ obstacle, enterLink above path place access = .error obstacle) ↔
      access.read = false ∨ ∃ stage ∈ above, stage.place = place := by
  unfold enterLink
  by_cases closed : access.read = false
  · simp [closed]
  · rw [if_neg (by simpa using closed)]
    cases found : above.find? fun stage => stage.place == place with
    | none => simpa [closed] using found
    | some stage =>
        have same : stage.place = place := by simpa using List.find?_some found
        have among := List.mem_of_find?_eq_some found
        simp only [Except.error.injEq, exists_eq', true_iff]
        exact .inr ⟨stage, among, same⟩

theorem blocked_link {entry : Entry} (stuck : Blocked disk above path entry) :
    ∃ target, entry = .link target := by
  cases stuck <;> exact ⟨_, rfl⟩

theorem blocked_folder_iff (above : List Stage) {items : Folder} {access : Access}
    {place : List String} (target : String) (found : disk.find path = .ok (.folder items access))
    (located : disk.locate path = .ok place) :
    Blocked disk above path (.link target) ↔
      ∃ obstacle, enterLink above path place access = .error obstacle := by
  rw [enter_link_iff]
  constructor
  · intro stuck
    cases stuck with
    | dangling _ fault lost => cases found.symm.trans lost
    | closed _ _ _ also unread =>
        cases found.symm.trans also
        exact .inl unread
    | back _ _ _ stage _ there among =>
        cases located.symm.trans there
        exact .inr ⟨stage, among, rfl⟩
  · rintro (unread | ⟨stage, among, rfl⟩)
    · exact .closed target items access found unread
    · exact .back target items access stage found located among

theorem followed_cases (disk : Disk) (above : List Stage) (path : String) (entry : Entry) :
    (∃ obstacle, followed disk above path entry = .error obstacle ∧ Blocked disk above path entry) ∨
      ∃ meant, followed disk above path entry = .ok meant ∧ ¬ Blocked disk above path entry ∧
        Means disk path entry meant := by
  cases entry with
  | file text access =>
      refine .inr ⟨_, rfl, fun stuck => ?_, rfl⟩
      obtain ⟨target, same⟩ := blocked_link stuck
      cases same
  | folder items access =>
      refine .inr ⟨_, rfl, fun stuck => ?_, rfl⟩
      obtain ⟨target, same⟩ := blocked_link stuck
      cases same
  | link target =>
      unfold followed
      cases found : disk.find path with
      | error fault =>
          refine .inl ?_
          cases disk.locate path <;> exact ⟨_, rfl, .dangling target fault found⟩
      | ok meant =>
          obtain ⟨place, located, -⟩ := (Disk.find_ok_iff path meant).mp found
          rw [located]
          cases meant with
          | file text access =>
              refine .inr ⟨_, rfl, fun stuck => ?_, found⟩
              cases stuck <;> simp_all
          | link other =>
              refine .inr ⟨_, rfl, fun stuck => ?_, found⟩
              cases stuck <;> simp_all
          | folder items access =>
              have blocked := blocked_folder_iff above target found located
              cases entered : enterLink above path place access with
              | error obstacle =>
                  refine .inl ⟨obstacle, ?_, blocked.mpr ⟨obstacle, entered⟩⟩
                  simp [bind, Except.bind, Except.mapError, entered]
              | ok done =>
                  refine .inr ⟨_, by simp [bind, Except.bind, Except.mapError, entered]; rfl,
                    fun stuck => ?_, found⟩
                  obtain ⟨obstacle, failed⟩ := blocked.mp stuck
                  cases entered.symm.trans failed

theorem mem_by_name {items : Folder} {item : String × Entry} :
    item ∈ byName items ↔ item ∈ items :=
  (List.mergeSort_perm items _).mem_iff

variable {keeps : String → Bool}

theorem item_fails_iff (disk : Disk) (keeps : String → Bool) (above : List Stage)
    (inside : String → Except Obstacle (List String)) (name path : String) (entry : Entry) :
    (∃ obstacle, itemPaths disk keeps above inside name path entry = .error obstacle) ↔
      Blocked disk above path entry ∨ ∃ inner access, Means disk path entry (.folder inner access) ∧
        isPassedOver name = false ∧ ∃ obstacle, inside path = .error obstacle := by
  unfold itemPaths
  rcases followed_cases disk above path entry with
    ⟨obstacle, failed, stuck⟩ | ⟨meant, passed, free, means⟩
  · rw [failed]
    exact ⟨fun _ => .inl stuck, fun _ => ⟨obstacle, rfl⟩⟩
  · rw [passed]
    have told (other : Entry) (also : Means disk path entry other) : other = meant := by
      cases entry with
      | file text access => exact also.symm.trans means
      | folder items access => exact also.symm.trans means
      | link target => exact Except.ok.inj (also.symm.trans means)
    cases meant with
    | file text access =>
        refine ⟨fun ⟨_, same⟩ => ?_, ?_⟩
        · cases same
        · rintro (stuck | ⟨inner, rights, also, -⟩)
          · exact absurd stuck free
          · cases told _ also
    | link target =>
        refine ⟨fun ⟨_, same⟩ => ?_, ?_⟩
        · cases same
        · rintro (stuck | ⟨inner, rights, also, -⟩)
          · exact absurd stuck free
          · cases told _ also
    | folder inner rights =>
        cases passes : isPassedOver name with
        | true => simp [bind, Except.bind, pure, Except.pure, free]
        | false =>
            simp only [bind, Except.bind, Bool.false_eq_true, if_false, free, false_or, true_and]
            exact ⟨fun failed => ⟨inner, rights, means, failed⟩, fun ⟨_, _, _, failed⟩ => failed⟩

theorem list_place {items : Folder} (listed : disk.list path = .ok items) :
    ∃ place, disk.locate path = .ok place := by
  obtain ⟨access, found, -⟩ := (Disk.list_ok_iff path items).mp listed
  obtain ⟨place, located, -⟩ := (Disk.find_ok_iff path _).mp found
  exact ⟨place, located⟩

theorem walk_listed {items : Folder} {place : List String} (listed : disk.list path = .ok items)
    (located : disk.locate path = .ok place) (levels : Nat) :
    walk disk keeps (levels + 1) above path =
      ((byName items).mapM fun item => itemPaths disk keeps (⟨path, place⟩ :: above)
        (walk disk keeps levels (⟨path, place⟩ :: above)) item.1 (join path item.1) item.2).map
          List.flatten := by
  rw [walk, listed, located]
  rfl

theorem walk_unlisted {fault : FileFault} (failed : disk.list path = .error fault) (levels : Nat) :
    ∃ obstacle, walk disk keeps levels above path = .error obstacle := by
  cases levels with
  | zero => exact ⟨_, rfl⟩
  | succ levels =>
      rw [walk, failed]
      exact ⟨_, rfl⟩

theorem walk_listed_fails_iff {items : Folder} {place : List String}
    (listed : disk.list path = .ok items) (located : disk.locate path = .ok place)
    (levels : Nat) :
    (∃ obstacle, walk disk keeps (levels + 1) above path = .error obstacle) ↔
      ∃ item ∈ items, Blocked disk (⟨path, place⟩ :: above) (join path item.1) item.2 ∨
        ∃ inner access, Means disk (join path item.1) item.2 (.folder inner access) ∧
          isPassedOver item.1 = false ∧ ∃ obstacle,
            walk disk keeps levels (⟨path, place⟩ :: above) (join path item.1) =
              .error obstacle := by
  rw [walk_listed listed located, map_fails_iff, mapM_fails_iff]
  simp only [mem_by_name, item_fails_iff]

theorem list_long (long : longestPath < path.utf8ByteSize) :
    ∃ fault, disk.list path = .error fault := by
  cases listed : disk.list path with
  | error fault => exact ⟨fault, rfl⟩
  | ok items =>
      obtain ⟨place, located⟩ := list_place listed
      have short := ((Disk.locate_ok_iff path place).mp located).2.1
      omega

theorem list_plain {items : Folder} (orderly : disk.Orderly) (listed : disk.list path = .ok items) :
    (items.map Prod.fst).Nodup ∧ ∀ item ∈ items, Plain item.1 := by
  obtain ⟨access, found, -⟩ := (Disk.list_ok_iff path items).mp listed
  cases Disk.orderly_found orderly found with
  | folder _ _ once plain _ => exact ⟨once, plain⟩

theorem join_deep {name : String} {levels : Nat} (plain : Plain name)
    (deep : longestPath < path.utf8ByteSize + (levels + 1)) :
    longestPath < (join path name).utf8ByteSize + levels := by
  have longer := join_size path name plain.relative
  have some : name.utf8ByteSize ≠ 0 :=
    fun none => plain.filled (String.utf8ByteSize_eq_zero_iff.mp none)
  omega

/-- With levels for as much as a path can tell, a walk fails if it is obstructed. -/
theorem walk_fails_iff (orderly : disk.Orderly) {levels : Nat}
    (deep : longestPath < path.utf8ByteSize + levels) :
    (∃ obstacle, walk disk keeps levels above path = .error obstacle) ↔
      Obstructed disk above path := by
  constructor
  · intro failed
    induction levels generalizing above path with
    | zero =>
        obtain ⟨fault, unlisted⟩ : ∃ fault, disk.list path = .error fault := list_long deep
        exact .unlisted fault unlisted
    | succ levels ih =>
        cases listed : disk.list path with
        | error fault => exact .unlisted fault listed
        | ok items =>
            obtain ⟨place, located⟩ := list_place listed
            obtain ⟨item, member, stuck | ⟨inner, access, means, seen, further⟩⟩ :=
              (walk_listed_fails_iff listed located levels).mp failed
            · exact .blocked listed located item member stuck
            · have plain := (list_plain orderly listed).2 item member
              exact .deeper listed located item member means seen
                (ih (join_deep plain deep) further)
  · intro obstructed
    clear deep
    induction obstructed generalizing levels with
    | unlisted fault failed => exact walk_unlisted failed levels
    | blocked listed located item member stuck =>
        cases levels with
        | zero => exact ⟨_, rfl⟩
        | succ levels =>
            exact (walk_listed_fails_iff listed located levels).mpr ⟨item, member, .inl stuck⟩
    | deeper listed located item member means seen further ih =>
        cases levels with
        | zero => exact ⟨_, rfl⟩
        | succ levels =>
            exact (walk_listed_fails_iff listed located levels).mpr
              ⟨item, member, .inr ⟨_, _, means, seen, ih⟩⟩

/-- A root stands for nothing, or it is no file and a walk is stopped there or below. -/
def Barred (disk : Disk) (root : String) : Prop :=
  disk.holds root = false ∨ disk.isFile root = false ∧ Obstructed disk [] root

theorem paths_below_fails_iff (orderly : disk.Orderly) (settings : Settings) (root : String) :
    (∃ error, pathsBelow disk settings root = .error error) ↔ Barred disk root := by
  have deep : longestPath < root.utf8ByteSize + (longestPath + 1) := by omega
  have renamed (attempt : Except Obstacle (List String)) :
      (∃ error, attempt.mapError Error.inaccessible = .error error) ↔
        ∃ obstacle, attempt = .error obstacle := by
    cases attempt <;> simp [Except.mapError]
  unfold pathsBelow Barred Disk.holds Disk.isFile
  cases disk.find root with
  | error fault => simp
  | ok entry => cases entry <;> simp [renamed, walk_fails_iff orderly deep]

theorem paths_fail_iff (orderly : disk.Orderly) (settings : Settings) (roots : List String) :
    (∃ error, paths disk settings roots = .error error) ↔ ∃ root ∈ roots, Barred disk root := by
  simp only [paths, map_fails_iff, mapM_fails_iff, paths_below_fails_iff orderly]

def dotted (name : String) : Nat → String
  | 0 => name
  | dots + 1 => "./" ++ dotted name dots

theorem dotted_size (name : String) (dots : Nat) :
    (dotted name dots).utf8ByteSize = 2 * dots + name.utf8ByteSize := by
  induction dots with
  | zero => simp [dotted]
  | succ dots ih =>
      have dot : "./".utf8ByteSize = 2 := by decide
      rw [dotted, String.utf8ByteSize_append, ih, dot]
      omega

theorem follow_dotted {access : Access} {name : String} {place : List String} (plain : Plain name)
    (here : disk.sight place = some (.folder access)) (enters : access.enter = true)
    (links dots : Nat) :
    follow disk.top links place (pieces (dotted name dots)) =
      follow disk.top links place [name] := by
  induction dots with
  | zero => rw [dotted, plain.pieces]
  | succ dots ih =>
      have row : pieces (dotted name (dots + 1)) = "." :: pieces (dotted name dots) := by
        have whole : dotted name (dots + 1) =
            String.ofList (['.'] ++ '/' :: (dotted name dots).toList) := by
          rw [← String.toList_inj]
          simp [dotted]
        rw [whole, pieces_below, String.ofList_toList]
        rfl
      have stays : step disk.top place "." = .ok (.on place) := by
        rw [Disk.step_sight, here]
        simp [Disk.taken, enters]
      rw [row, follow_cons, stays]
      exact ih

def deepDisk : Disk where
  root := [("d", .folder [("inner", .folder [])])]

theorem deep_root_barred :
    deepDisk.holds (dotted "d" 2045) = true ∧ Barred deepDisk (dotted "d" 2045) := by
  have sized : (dotted "d" 2045).utf8ByteSize = 4091 := dotted_size "d" 2045
  have plain : Plain "d" := by decide
  have located : deepDisk.locate (dotted "d" 2045) = .ok ["d"] := by
    refine (Disk.locate_ok_iff _ _).mpr ⟨fun blank => ?_, ?_, ?_⟩
    · rw [blank] at sized
      cases sized
    · rw [sized]
      decide
    · have start : origin deepDisk.work (pieces (dotted "d" 2045)) = [] := by
        unfold origin
        split <;> rfl
      have top : deepDisk.sight [] = some (.folder {}) := rfl
      rw [start, follow_dotted plain top rfl]
      rfl
  have found : deepDisk.find (dotted "d" 2045) = .ok (.folder [("inner", .folder [])]) :=
    (Disk.find_ok_iff _ _).mpr ⟨["d"], located, rfl⟩
  have listed : deepDisk.list (dotted "d" 2045) = .ok [("inner", .folder [])] :=
    (Disk.list_ok_iff _ _).mpr ⟨{}, found, rfl⟩
  have long : longestPath < (join (dotted "d" 2045) "inner").utf8ByteSize := by
    have longer := join_size (dotted "d" 2045) "inner" (by decide)
    have inner : "inner".utf8ByteSize = 5 := by decide
    unfold longestPath
    omega
  obtain ⟨fault, failed⟩ : ∃ fault, deepDisk.list (join (dotted "d" 2045) "inner") = .error fault :=
    list_long long
  refine ⟨(Disk.holds_iff _).mpr ⟨_, found⟩, .inr ⟨by rw [Disk.isFile, found], ?_⟩⟩
  exact .deeper listed located ("inner", .folder []) (List.mem_singleton.mpr rfl) rfl
    (by decide +kernel) (.unlisted fault failed)

/-- A folder below a root, or the root itself, cannot be listed, and none on the way to it is passed
over. -/
def Unlisted (disk : Disk) (root : String) (entry : Entry) : Prop :=
  ∃ names inner access, entry.below? names = some (.folder inner access) ∧
    (∀ name ∈ names, isPassedOver name = false) ∧
      ∃ fault, disk.list (spelled root names) = .error fault

theorem listed_same {root : String} {items listed : Folder} {access : Access}
    (stands : disk.Stands root (.folder items access)) (found : disk.list root = .ok listed) :
    listed = items := by
  obtain ⟨rights, here, -⟩ := (Disk.list_ok_iff root listed).mp found
  cases stands.find here
  rfl

theorem loose_item {items : Folder} {access : Access}
    (orderly : (Entry.folder items access).Orderly)
    (unlinked : (Entry.folder items access).Unlinked) {item : String × Entry}
    (member : item ∈ items) (target : String) : item.2 ≠ .link target := by
  cases orderly with
  | folder _ _ once plain below =>
      intro same
      exact Entry.unlinked_item unlinked once member [] target (congrArg some same)

theorem stands_item {root : String} {items : Folder} {access : Access} (filled : root ≠ "")
    (orderly : (Entry.folder items access).Orderly)
    (unlinked : (Entry.folder items access).Unlinked)
    (stands : disk.Stands root (.folder items access)) {item : String × Entry}
    (member : item ∈ items) :
    disk.Stands (join root item.1) item.2 ∧ join root item.1 ≠ "" ∧ item.2.Orderly ∧
      item.2.Unlinked := by
  have loose := loose_item orderly unlinked member
  cases orderly with
  | folder _ _ once plain below =>
      have own := plain item member
      refine ⟨stands.join filled own ((Folder.item_once once).mpr member) loose, fun blank => ?_,
        below item member, Entry.unlinked_item unlinked once member⟩
      have longer := join_size root item.1 own.relative
      rw [blank] at longer
      exact filled (String.utf8ByteSize_eq_zero_iff.mp (Nat.le_zero.mp
        ((Nat.le_add_right _ _).trans longer)))

theorem obstructed_iff_unlisted (above : List Stage) {root : String} {items : Folder}
    {access : Access} (filled : root ≠ "") (orderly : (Entry.folder items access).Orderly)
    (unlinked : (Entry.folder items access).Unlinked)
    (stands : disk.Stands root (.folder items access)) :
    Obstructed disk above root ↔ Unlisted disk root (.folder items access) := by
  constructor
  · intro obstructed
    induction obstructed generalizing items access with
    | unlisted fault failed =>
        exact ⟨[], items, access, rfl, List.forall_mem_nil _, fault, failed⟩
    | blocked listed located item member stuck =>
        cases listed_same stands listed
        obtain ⟨target, same⟩ := blocked_link stuck
        exact absurd same (loose_item orderly unlinked member target)
    | @deeper above root listed inner place rights found located item member means seen _ ih =>
        cases listed_same stands found
        have loose := loose_item orderly unlinked member
        obtain ⟨below, joined, ordered, further⟩ :=
          stands_item filled orderly unlinked stands member
        have own : item.2 = .folder inner rights := by
          revert means loose
          cases item.2 with
          | file text access => exact fun same _ => same
          | folder items access => exact fun same _ => same
          | link target => exact fun _ loose => absurd rfl (loose target)
        rw [own] at below ordered further
        obtain ⟨names, last, lastAccess, leads, free, fault, failed⟩ :=
          ih joined ordered further below
        cases orderly with
        | folder _ _ once plain _ =>
            refine ⟨item.1 :: names, last, lastAccess, ?_, List.forall_mem_cons.mpr ⟨seen, free⟩,
              fault, failed⟩
            rw [Entry.below_cons, (Folder.item_once once).mpr member, Option.bind_some, own, leads]
  · rintro ⟨names, inner, rights, leads, free, fault, failed⟩
    induction names generalizing above root items access with
    | nil => exact .unlisted fault failed
    | cons name rest ih =>
        obtain ⟨seen, others⟩ := List.forall_mem_cons.mp free
        rw [Entry.below_cons] at leads
        obtain ⟨entry, there, further⟩ := Option.bind_eq_some_iff.mp leads
        have member := Folder.item_mem there
        obtain ⟨below, joined, ordered, loose⟩ := stands_item filled orderly unlinked stands member
        -- Only a folder has a folder below it.
        obtain ⟨own, ownAccess, rfl⟩ : ∃ own ownAccess, entry = .folder own ownAccess := by
          by_contra bare
          push Not at bare
          cases rest with
          | nil => exact bare inner rights (Option.some.inj further)
          | cons next rest =>
              rw [Entry.below_bare bare (by simp)] at further
              cases further
        cases listed : disk.list root with
        | error fault => exact .unlisted fault listed
        | ok found =>
            cases listed_same stands listed
            obtain ⟨place, located⟩ := list_place listed
            exact .deeper listed located (name, .folder own ownAccess) member rfl seen
              (ih _ joined ordered loose below further others failed)

end JavaOutline.Inspection
