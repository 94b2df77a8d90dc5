import JavaOutline.Proofs.Attempts
import JavaOutline.Proofs.Files.Following

/-!
What changes on a disk. Making folders only shows folders where nothing was, each of them where a
part of the path leads afterwards. Writing a text changes what is shown at one place, the one that
the path stands for. Neither keeps a path that could be followed from leading where it led.
-/
namespace JavaOutline.Files

namespace Folder

theorem item_set_item (folder : Folder) (name other : String) (entry : Entry) :
    item? (setItem folder name entry) other =
      if other = name then some entry else item? folder other := by
  unfold item? setItem
  split
  case isTrue there =>
      -- Setting keeps the names, so the same item is found as before.
      have same : ((fun item => item.1 == other) ∘
          fun item : String × Entry => if item.1 == name then (name, entry) else item) =
          fun item => item.1 == other := by
        funext item
        by_cases named : item.1 = name <;> simp [named]
      rw [List.find?_map, same]
      cases found : folder.find? fun item => item.1 == other with
      | none =>
          have absent : other ≠ name := by
            rintro rfl
            rw [List.find?_eq_none] at found
            obtain ⟨item, member, named⟩ := List.any_eq_true.mp there
            exact found item member named
          simp [absent]
      | some item =>
          have named : item.1 = other := by simpa using List.find?_some found
          by_cases asked : other = name <;> simp [named, asked]
  case isFalse missing =>
      have absent : folder.find? (fun item => item.1 == name) = none := by
        rw [List.find?_eq_none]
        intro item member named
        exact missing (List.any_eq_true.mpr ⟨item, member, named⟩)
      by_cases asked : other = name
      · simp [List.find?_append, asked, absent]
      · have apart : name ≠ other := fun h => asked h.symm
        simp [List.find?_append, asked, apart]

theorem sight_set_entry {entry : Entry} (bare : ∀ names, names ≠ [] → entry.below? names = none)
    {root items : Folder} {access own : Access} {place : List String} {name : String}
    (leads : (Entry.folder root access).below? place = some (.folder items own))
    (free : ∀ inner rights, item? items name ≠ some (.folder inner rights)) (names : List String) :
    ((Entry.folder (setEntry entry root (place ++ [name])) access).below? names).map Entry.sight =
      if names = place ++ [name] then some entry.sight
      else ((Entry.folder root access).below? names).map Entry.sight := by
  induction place generalizing root access names with
  | nil =>
      cases leads
      cases names with
      | nil => simp [Entry.below?, Entry.sight]
      | cons first rest =>
          rw [List.nil_append, setEntry, Entry.below_cons, Entry.below_cons, item_set_item]
          by_cases same : first = name
          · subst same
            cases rest with
            | nil => simp [Entry.below?]
            | cons second rest =>
                -- What was there is no folder, with nothing below it either.
                have nothing : ((item? items first).bind fun inner =>
                    inner.below? (second :: rest)) = none := by
                  rw [Option.bind_eq_none_iff]
                  intro inner found
                  exact Entry.below_bare (fun below rights same => free below rights (same ▸ found))
                    (by simp)
                simp [bare, nothing]
          · simp [same]
  | cons outer place ih =>
      rw [Entry.below_cons] at leads
      obtain ⟨old, found, inside⟩ := Option.bind_eq_some_iff.mp leads
      cases old with
      | file text rights =>
          cases place <;> cases inside
      | link target =>
          cases place <;> cases inside
      | folder inner rights =>
          have step : setEntry entry root (outer :: place ++ [name]) =
              setItem root outer (.folder (setEntry entry inner (place ++ [name])) rights) := by
            cases place <;> simp [setEntry, found]
          rw [step]
          cases names with
          | nil => simp [Entry.below?, Entry.sight]
          | cons first rest =>
              rw [Entry.below_cons, Entry.below_cons, item_set_item]
              by_cases same : first = outer
              · subst same
                rw [if_pos rfl, found, Option.bind_some, Option.bind_some, ih inside rest]
                simp
              · simp [same]

end Folder

namespace Disk

variable {before between after disk : Disk} {row place : List String}

theorem sight_top (disk : Disk) : disk.sight [] = some (.folder disk.access) :=
  rfl

theorem sight_put {name : String} {entry : Entry} {access : Access}
    (bare : ∀ names, names ≠ [] → entry.below? names = none)
    (here : disk.sight place = some (.folder access))
    (free : ∀ rights, disk.sight (place ++ [name]) ≠ some (.folder rights)) (names : List String) :
    (disk.put (place ++ [name]) entry).sight names =
      if names = place ++ [name] then some entry.sight else disk.sight names := by
  obtain ⟨items, leads⟩ := sight_folder here
  refine Folder.sight_set_entry bare leads (fun inner rights found => ?_) names
  rw [← occupant_inside leads] at found
  exact free rights (by rw [sight, found]; rfl)

/-- What stands at a place, or nothing, becomes what stands there later: the same, a new file or
folder, or a file with another text. -/
inductive Becomes : Option Sight → Option Sight → Prop
  | same (seen : Option Sight) : Becomes seen seen
  | made (access : Access) : Becomes none (some (.folder access))
  | written (text : Option String) (access : Access) : Becomes none (some (.file text access))
  | rewritten (old text : Option String) (access : Access) :
      Becomes (some (.file old access)) (some (.file text access))

/-- No link and no folder has gone, and the working folder is the same. -/
structure Evolves (before after : Disk) : Prop where
  work : after.work = before.work
  sights : ∀ names, Becomes (before.sight names) (after.sight names)

theorem Becomes.folder {access : Access} {seen : Option Sight}
    (becomes : Becomes (some (.folder access)) seen) : seen = some (.folder access) := by
  cases becomes
  rfl

theorem Becomes.named {name : String} {seen later : Option Sight} (becomes : Becomes seen later) :
    Disk.named place name later = Disk.named place name seen ∨
      Disk.named place name seen = .free ∧
        Disk.named place name later = .on (place ++ [name]) := by
  cases becomes with
  | same => exact .inl rfl
  | made access => exact .inr ⟨rfl, rfl⟩
  | written text access => exact .inr ⟨rfl, rfl⟩
  | rewritten old text access => exact .inl rfl

theorem Evolves.step (evolves : Evolves before after) {piece : String} {move : Move}
    (moved : step before.top place piece = .ok move) :
    step after.top place piece = .ok move ∨
      move = .free ∧ step after.top place piece = .ok (.on (place ++ [piece])) := by
  obtain ⟨⟨access, here⟩, -⟩ := step_cases moved
  have still := (here ▸ evolves.sights place).folder
  rw [step_sight, here] at moved
  rw [step_sight, still]
  rcases taken_cases moved with ⟨always, -⟩ | ⟨looked, -, -, rfl⟩
  · exact .inl (always _)
  · dsimp only
    rw [looked]
    rcases (evolves.sights (place ++ [piece])).named with same | ⟨free, onward⟩
    · exact .inl (by rw [same])
    · exact .inr ⟨free, by rw [onward]⟩

theorem Evolves.follow (evolves : Evolves before after) {links : Nat} {goal : List String}
    (followed : follow before.top links place row = .ok goal) :
    follow after.top links place row = .ok goal := by
  induction links using Nat.strong_induction_on generalizing place row with
  | _ links fewer =>
      induction row generalizing place with
      | nil =>
          rw [follow_nil] at followed ⊢
          exact followed
      | cons piece rest ih =>
          rw [follow_cons] at followed ⊢
          split at followed
          case h_1 => cases followed
          case h_2 next moved =>
              rcases evolves.step moved with same | ⟨free, -⟩
              · rw [same]
                exact ih followed
              · cases free
          case h_3 target moved =>
              rcases evolves.step moved with same | ⟨free, -⟩
              · rw [same]
                cases links with
                | zero => cases followed
                | succ left => exact fewer left (Nat.lt_succ_self left) followed
              · cases free
          case h_4 moved =>
              split at followed
              case isFalse => cases followed
              case isTrue last =>
                  cases List.isEmpty_iff.mp last
                  rcases evolves.step moved with same | ⟨-, onward⟩
                  · rw [same]
                    exact followed
                  · rw [onward]
                    exact (follow_nil _ _ _).trans followed

theorem Evolves.resolve (evolves : Evolves before after) {goal : List String}
    (resolved : before.resolve row = .ok goal) : after.resolve row = .ok goal := by
  unfold Disk.resolve at resolved ⊢
  split at resolved
  case isTrue short =>
      rw [if_pos short, evolves.work]
      exact evolves.follow resolved
  case isFalse => cases resolved

theorem Evolves.locate (evolves : Evolves before after) {path : String} {goal : List String}
    (located : before.locate path = .ok goal) : after.locate path = .ok goal := by
  unfold Disk.locate at located ⊢
  split at located
  case isTrue => cases located
  case isFalse filled =>
      rw [if_neg filled]
      exact evolves.resolve located

/-- At a place stands what stood there, or a new folder where the start of a row leads now. -/
def Kept (row : List String) (before after : Disk) (place : List String) : Prop :=
  after.sight place = before.sight place ∨
    before.sight place = none ∧ after.sight place = some (.folder {}) ∧
      ∃ front, front <+: row ∧ after.resolve front = .ok place

structure Grown (row : List String) (before after : Disk) : Prop where
  work : after.work = before.work
  room : after.room = before.room
  kept : ∀ place, Kept row before after place

theorem Grown.refl (row : List String) (disk : Disk) : Grown row disk disk :=
  ⟨rfl, rfl, fun _ => .inl rfl⟩

theorem Grown.evolves (grown : Grown row before after) : Evolves before after := by
  refine ⟨grown.work, fun place => ?_⟩
  rcases grown.kept place with same | ⟨nothing, made, -⟩
  · rw [same]
    exact .same _
  · rw [nothing, made]
    exact .made {}

/-- What is kept while nothing but texts changes is kept with them. -/
theorem Kept.later (kept : Kept row before between place) (evolves : Evolves between after)
    (same : after.sight place = between.sight place) : Kept row before after place := by
  rcases kept with still | ⟨nothing, made, front, starts, leads⟩
  · exact .inl (same.trans still)
  · exact .inr ⟨nothing, same.trans made, front, starts, evolves.resolve leads⟩

theorem Grown.trans (first : Grown row before between) (second : Grown row between after) :
    Grown row before after := by
  refine ⟨second.work.trans first.work, second.room.trans first.room, fun place => ?_⟩
  rcases second.kept place with same | ⟨nothing, made, leads⟩
  · exact (first.kept place).later second.evolves same
  · rcases first.kept place with still | ⟨-, already, -⟩
    · exact .inr ⟨still ▸ nothing, made, leads⟩
    · cases already.symm.trans nothing

theorem Grown.widen {further : List String} (grown : Grown row before after)
    (longer : row <+: further) : Grown further before after := by
  refine ⟨grown.work, grown.room, fun place => ?_⟩
  rcases grown.kept place with same | ⟨nothing, made, front, starts, leads⟩
  · exact .inl same
  · exact .inr ⟨nothing, made, front, starts.trans longer, leads⟩

theorem nothing_below (names : List String) (further : names ≠ []) :
    (Entry.folder []).below? names = none := by
  obtain ⟨name, rest, rfl⟩ := List.exists_cons_of_ne_nil further
  rfl

theorem resolve_ok_iff (goal : List String) :
    disk.resolve row = .ok goal ↔
      fits row = true ∧ follow disk.top mostLinks (origin disk.work row) row = .ok goal := by
  unfold resolve
  by_cases short : fits row = true <;> simp [short]

theorem make_folder_grown {made : Disk} (done : disk.makeFolder row = .ok made) :
    Grown row disk made := by
  unfold makeFolder at done
  split at done
  case h_1 => cases done
  case h_2 name last =>
      obtain ⟨above, rfl⟩ := List.getLast?_eq_some_iff.mp last
      rw [List.dropLast_concat] at done
      split at done
      case isTrue => cases done
      case isFalse short =>
          obtain ⟨place, resolved, done⟩ := bind_ok done
          split at done
          case isTrue => cases done
          case isFalse =>
              obtain ⟨move, moved, done⟩ := bind_ok done
              split at done
              case h_2 => cases done
              case h_1 =>
                  split at done
                  case isFalse => cases done
                  case isTrue =>
                      cases done
                      obtain ⟨⟨access, here⟩, -⟩ := step_cases moved
                      obtain ⟨telling, absent⟩ := step_free moved
                      have sights := sight_put nothing_below here
                        (fun rights => by rw [absent]; exact fun same => nomatch same)
                      have grown : Evolves disk (disk.put (place ++ [name]) (.folder [])) := by
                        refine ⟨rfl, fun names => ?_⟩
                        rw [sights]
                        split
                        case isTrue same =>
                            rw [same, absent]
                            exact .made {}
                        case isFalse => exact .same _
                      refine ⟨rfl, rfl, fun names => ?_⟩
                      by_cases there : names = place ++ [name]
                      · refine .inr ⟨there ▸ absent, by rw [sights, if_pos there]; rfl, _,
                          List.prefix_refl _, grown.resolve ((resolve_ok_iff _).mpr
                            ⟨by simpa using short, ?_⟩)⟩
                        obtain ⟨-, followed⟩ := (resolve_ok_iff _).mp resolved
                        have start : origin disk.work (above ++ [name]) =
                            origin disk.work above := by
                          cases above with
                          | nil =>
                              have filled : name ≠ "" := by
                                rintro rfl
                                cases telling
                              simp [origin, filled]
                          | cons piece rest => rfl
                        rw [start, there]
                        exact follow_snoc followed moved rfl
                      · exact .inl (by rw [sights, if_neg there])

theorem settle_grown (row : List String) (attempt : Except FileFault Disk)
    (made : ∀ changed, attempt = .ok changed → Grown row disk changed) :
    Grown row disk (disk.settle row attempt).1 := by
  unfold settle
  split
  · exact made _ rfl
  · split <;> exact Grown.refl row disk

/-- Making a folder with all folders above it adds folders on the way to it, whether it ends well or
not. The row is given in reverse. -/
theorem make_folders_grown (disk : Disk) (row : List String) :
    Grown row.reverse disk (disk.makeFolders row).1 := by
  induction row generalizing disk with
  | nil => exact Grown.refl [] disk
  | cons name above ih =>
      have attempt (before : Disk) : ∀ changed, before.makeFolder (name :: above).reverse =
          .ok changed → Grown (name :: above).reverse before changed :=
        fun changed => make_folder_grown
      have higher : Grown (name :: above).reverse disk (disk.makeFolders above).1 :=
        (ih disk).widen (by simp)
      unfold makeFolders
      dsimp only
      split
      · exact higher
      · split
        · split
          case h_1 changed found =>
              rw [found] at higher
              exact higher.trans (settle_grown _ _ (attempt changed))
          case h_2 changed fault found =>
              rw [found] at higher
              exact higher
        · exact settle_grown _ _ (attempt disk)

structure Written (place : List String) (held : Option String) (before after : Disk) : Prop where
  work : after.work = before.work
  shown : ∃ access, after.sight place = some (.file held access) ∧
    (before.sight place = none ∨ ∃ old, before.sight place = some (.file old access))
  elsewhere : ∀ names, names ≠ place → after.sight names = before.sight names

theorem Written.trans {first second : Option String} (one : Written place first before between)
    (other : Written place second between after) : Written place second before after := by
  obtain ⟨access, shown, free⟩ := one.shown
  obtain ⟨own, later, -⟩ := other.shown
  have same : own = access := by
    obtain ⟨rights, again, none | ⟨old, found⟩⟩ := other.shown
    · cases shown.symm.trans none
    · cases shown.symm.trans found
      cases later.symm.trans again
      rfl
  exact ⟨other.work.trans one.work, ⟨access, same ▸ later, free⟩,
    fun names apart => (other.elsewhere names apart).trans (one.elsewhere names apart)⟩

theorem Written.evolves {held : Option String} (written : Written place held before after) :
    Evolves before after := by
  refine ⟨written.work, fun names => ?_⟩
  by_cases there : names = place
  · obtain ⟨access, shown, none | ⟨old, found⟩⟩ := written.shown
    · rw [there, shown, none]
      exact .written held access
    · rw [there, shown, found]
      exact .rewritten old held access
  · rw [written.elsewhere names there]
    exact .same _

section

variable {above : List String} {name : String} {rights access : Access} {held : Option String}
  (here : disk.sight above = some (.folder rights))
  (free : disk.sight (above ++ [name]) = none ∨
    ∃ old, disk.sight (above ++ [name]) = some (.file old access))

include here free

theorem sight_put_file (names : List String) :
    (disk.put (above ++ [name]) (.file held access)).sight names =
      if names = above ++ [name] then some (.file held access) else disk.sight names := by
  refine sight_put (fun _ => Entry.below_bare (by simp)) here (fun inner folder => ?_) names
  rcases free with none | ⟨old, found⟩
  · cases none.symm.trans folder
  · cases found.symm.trans folder

theorem put_written :
    Written (above ++ [name]) held disk (disk.put (above ++ [name]) (.file held access)) where
  work := rfl
  shown := ⟨access, by rw [sight_put_file here free, if_pos rfl], free⟩
  elsewhere names apart := by rw [sight_put_file here free, if_neg apart]

end

theorem occupant_above {entry : Entry} (filled : place ≠ [])
    (found : disk.occupant? place = some entry) :
    ∃ above name rights, place = above ++ [name] ∧ disk.sight above = some (.folder rights) := by
  obtain ⟨above, name, rfl⟩ : ∃ above name, place = above ++ [name] :=
    ⟨_, _, (List.dropLast_append_getLast filled).symm⟩
  obtain ⟨items, rights, here, -⟩ := Entry.below_above found
  exact ⟨above, name, rights, rfl, by rw [sight, occupant?, here]; rfl⟩

theorem target_ok {path : String} {access : Access}
    (aimed : disk.target path = .ok (place, access)) :
    disk.locate path = .ok place ∧
      (∃ above name rights, place = above ++ [name] ∧ disk.sight above = some (.folder rights)) ∧
      (disk.sight place = none ∨ ∃ old, disk.sight place = some (.file old access)) := by
  obtain ⟨spot, located, aimed⟩ := bind_ok aimed
  have filled (unfolded : ∀ rights, disk.sight spot ≠ some (.folder rights)) : spot ≠ [] := by
    rintro rfl
    exact unfolded _ (sight_top disk)
  split at aimed
  case h_1 text own found =>
      split at aimed
      case isFalse => cases aimed
      case isTrue =>
          cases aimed
          have seen : disk.sight place = some (.file text access) := by rw [sight, found]; rfl
          exact ⟨located, occupant_above (filled fun rights => by simp [seen]) found,
            .inr ⟨text, seen⟩⟩
  case h_2 => cases aimed
  case h_3 => cases aimed
  case h_4 missing =>
      split at aimed
      case isFalse => cases aimed
      case isTrue opens =>
          cases aimed
          have seen : disk.sight place = none := by rw [sight, missing]; rfl
          have nonempty := filled fun rights => by simp [seen]
          refine ⟨located, ⟨place.dropLast, place.getLast nonempty, ?_⟩, .inl seen⟩
          unfold isOpen at opens
          split at opens
          case h_1 items rights here =>
              exact ⟨rights, (List.dropLast_append_getLast nonempty).symm, by rw [sight, here]; rfl⟩
          case h_2 => cases opens

/-- A write that has no fault leaves the whole text, and one that breaks off a part of it, in the
file the path stands for. With any other fault nothing changes. -/
theorem write_text_shows {path text : String} {fault : Option FileFault}
    (written : disk.writeText path text = (after, fault)) :
    after = disk ∧ fault ≠ none ∨
      ∃ place held, disk.locate path = .ok place ∧ Written place held disk after ∧
        (fault = none ∧ held = some text ∨
          fault ≠ none ∧ ∃ bytes, bytes < text.utf8ByteSize ∧ held = beginning text bytes) := by
  unfold writeText at written
  split at written
  case h_1 =>
      cases written
      exact .inl ⟨rfl, by simp⟩
  case h_2 place access aimed =>
      obtain ⟨located, ⟨above, name, rights, rfl, here⟩, free⟩ := target_ok aimed
      have emptied : Written (above ++ [name]) (some "") disk _ := put_written here free
      have upper : (disk.put (above ++ [name]) (.file (some "") access)).sight above =
          some (.folder rights) := by
        rw [emptied.elsewhere above (by simp), here]
      have again {held : Option String} : Written (above ++ [name]) held disk
          ((disk.put (above ++ [name]) (.file (some "") access)).put (above ++ [name])
            (.file held access)) := by
        refine emptied.trans (put_written upper (.inr ⟨some "", ?_⟩))
        rw [sight_put_file here free, if_pos rfl]
      dsimp only at written
      split at written
      case h_1 room short =>
          cases written
          obtain ⟨-, less⟩ := Option.filter_eq_some_iff.mp short
          exact .inr ⟨_, _, located, again, .inr ⟨by simp, room, by simpa using less, rfl⟩⟩
      case h_2 =>
          cases written
          exact .inr ⟨_, _, located, again, .inl ⟨rfl, rfl⟩⟩

end Disk

end JavaOutline.Files
