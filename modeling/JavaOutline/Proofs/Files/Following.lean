import JavaOutline.Files.Disk
import JavaOutline.Proofs.Files.Paths

/-!
Following paths. What one piece of a path does depends on what its place and the entry under its
name are at sight. So a path keeps its place while a disk only grows or the texts of its files
change, and a path below another is followed from the place of the upper one.
-/
namespace JavaOutline.Files

/-- What an entry is at sight, whatever it holds below. -/
inductive Sight where
  | file (text : Option String) (access : Access)
  | folder (access : Access)
  | link (target : String)
deriving DecidableEq

def Entry.sight : Entry → Sight
  | .file text access => .file text access
  | .folder _ access => .folder access
  | .link target => .link target

def Disk.sight (disk : Disk) (place : List String) : Option Sight :=
  (disk.occupant? place).map Entry.sight

namespace Entry

theorem below_cons (items : Folder) (access : Access) (name : String) (rest : List String) :
    below? (.folder items access) (name :: rest) =
      (Folder.item? items name).bind fun entry => entry.below? rest := by
  rw [below?]
  cases Folder.item? items name <;> rfl

theorem below_bare {entry : Entry} (bare : ∀ items access, entry ≠ .folder items access)
    {names : List String} (further : names ≠ []) : entry.below? names = none := by
  obtain ⟨name, rest, rfl⟩ := List.exists_cons_of_ne_nil further
  cases entry with
  | file text access => rfl
  | link target => rfl
  | folder items access => exact absurd rfl (bare items access)

theorem below_append (entry : Entry) (first second : List String) :
    entry.below? (first ++ second) =
      (entry.below? first).bind fun inner => inner.below? second := by
  induction first generalizing entry with
  | nil => simp [below?]
  | cons name rest ih =>
      cases entry with
      | file text access => rfl
      | link target => rfl
      | folder items access =>
          rw [List.cons_append, below_cons, below_cons, Option.bind_assoc]
          congr 1
          funext inner
          exact ih inner

theorem below_above {entry inner : Entry} {place : List String} {name : String}
    (found : entry.below? (place ++ [name]) = some inner) :
    ∃ items access, entry.below? place = some (.folder items access) ∧
      Folder.item? items name = some inner := by
  rw [below_append] at found
  obtain ⟨above, there, below⟩ := Option.bind_eq_some_iff.mp found
  cases above with
  | file text access => cases below
  | link target => cases below
  | folder items access =>
      rw [below_cons] at below
      simp only [below?, Option.bind_fun_some] at below
      exact ⟨items, access, there, below⟩

end Entry

namespace Disk

variable {disk : Disk} {place : List String}

theorem occupant_inside {items : Folder} {access : Access}
    (here : disk.occupant? place = some (.folder items access)) (name : String) :
    disk.occupant? (place ++ [name]) = Folder.item? items name := by
  rw [occupant?, Entry.below_append, ← occupant?, here, Option.bind_some, Entry.below_cons]
  exact Option.bind_fun_some _

theorem sight_folder {access : Access} (seen : disk.sight place = some (.folder access)) :
    ∃ items, disk.occupant? place = some (.folder items access) := by
  obtain ⟨entry, here, same⟩ := Option.map_eq_some_iff.mp seen
  cases entry with
  | file text access => cases same
  | link target => cases same
  | folder items own =>
      cases same
      exact ⟨items, here⟩

/-- Where a name leads that stands for an entry, or for nothing. -/
def named (place : List String) (name : String) : Option Sight → Move
  | some (.link target) => .through target
  | some _ => .on (place ++ [name])
  | none => .free

def taken (place : List String) (piece : String) (access : Access) (seen : Option Sight) :
    Except FileFault Move :=
  if piece == "" then .ok (.on place)
  else if !access.enter then .error .denied
  else if piece == "." then .ok (.on place)
  else if piece == ".." then .ok (.on place.dropLast)
  else if longestName < piece.utf8ByteSize then .error .nameTooLong
  else .ok (named place piece seen)

theorem step_sight (disk : Disk) (place : List String) (piece : String) :
    step disk.top place piece =
      match disk.sight place with
      | some (.folder access) => taken place piece access (disk.sight (place ++ [piece]))
      | _ => .error .notDirectory := by
  unfold step
  rw [← occupant?]
  cases here : disk.occupant? place with
  | none => simp [sight, here]
  | some entry =>
      cases entry with
      | file text access => simp [sight, here, Entry.sight]
      | link target => simp [sight, here, Entry.sight]
      | folder items access =>
          simp only [sight, here, Option.map_some, Entry.sight, occupant_inside here, taken]
          cases found : Folder.item? items piece with
          | none => rfl
          | some inner => cases inner <;> rfl

theorem taken_cases {piece : String} {access : Access} {seen : Option Sight} {move : Move}
    (moved : taken place piece access seen = .ok move) :
    (∀ other, taken place piece access other = .ok move) ∧
        (isSilent piece = true ∧ move = .on place ∨ piece = ".." ∧ move = .on place.dropLast) ∨
      (∀ other, taken place piece access other = .ok (named place piece other)) ∧
        isSilent piece = false ∧ piece ≠ ".." ∧ move = named place piece seen := by
  unfold taken at moved ⊢
  by_cases empty : piece = ""
  · simp_all [isSilent]
  by_cases closed : access.enter = false
  · simp_all
  by_cases dot : piece = "."
  · simp_all [isSilent]
  by_cases dots : piece = ".."
  · simp_all
  by_cases long : longestName < piece.utf8ByteSize
  · simp_all
  · simp_all [isSilent]

theorem step_cases {piece : String} {move : Move} (moved : step disk.top place piece = .ok move) :
    (∃ access, disk.sight place = some (.folder access)) ∧
      (isSilent piece = true ∧ move = .on place ∨ piece = ".." ∧ move = .on place.dropLast ∨
        isSilent piece = false ∧ piece ≠ ".." ∧
          move = named place piece (disk.sight (place ++ [piece]))) := by
  rw [step_sight] at moved
  split at moved
  case h_2 => cases moved
  case h_1 access here =>
      refine ⟨⟨access, here⟩, ?_⟩
      rcases taken_cases moved with ⟨-, silent | up⟩ | ⟨-, telling⟩
      · exact .inl silent
      · exact .inr (.inl up)
      · exact .inr (.inr telling)

theorem step_empty {piece : String} {move : Move} (moved : step disk.top place piece = .ok move) :
    step disk.top place "" = .ok (.on place) := by
  obtain ⟨⟨access, here⟩, -⟩ := step_cases moved
  rw [step_sight, here]
  rfl

theorem step_free {piece : String} (moved : step disk.top place piece = .ok .free) :
    isSilent piece = false ∧ disk.sight (place ++ [piece]) = none := by
  obtain ⟨-, ⟨-, same⟩ | ⟨-, same⟩ | ⟨telling, -, same⟩⟩ := step_cases moved
  · cases same
  · cases same
  · cases found : disk.sight (place ++ [piece]) with
    | none => exact ⟨telling, rfl⟩
    | some seen =>
        rw [found] at same
        cases seen <;> cases same

theorem step_down {name : String} {move : Move} (plain : Plain name)
    (loose : ∀ target, disk.sight (place ++ [name]) ≠ some (.link target))
    (moved : step disk.top place name = .ok move) :
    move = .on (place ++ [name]) ∨ move = .free := by
  obtain ⟨-, ⟨silent, -⟩ | ⟨dots, -⟩ | ⟨-, -, same⟩⟩ := step_cases moved
  · cases plain.telling.symm.trans silent
  · exact absurd dots plain.descends
  · rw [same]
    cases found : disk.sight (place ++ [name]) with
    | none => exact .inr rfl
    | some seen =>
        cases seen with
        | file text access => exact .inl rfl
        | folder access => exact .inl rfl
        | link target => exact absurd found (loose target)

end Disk

section Rows

variable {top : Entry} {links : Nat} {place goal mid : List String}

theorem follow_nil (top : Entry) (links : Nat) (place : List String) :
    follow top links place [] = .ok place := by
  cases links <;> rfl

theorem follow_cons (top : Entry) (links : Nat) (place : List String) (piece : String)
    (rest : List String) :
    follow top links place (piece :: rest) =
      match step top place piece with
      | .error fault => .error fault
      | .ok (.on next) => follow top links next rest
      | .ok (.through target) =>
        match links with
        | 0 => .error .tooManyLinks
        | fewer + 1 =>
          follow top fewer (origin place (pieces target ++ rest)) (pieces target ++ rest)
      | .ok .free => if rest.isEmpty then .ok (place ++ [piece]) else .error .notFound := by
  cases links <;> rfl

theorem origin_front (place : List String) {first : List String} (filled : first ≠ [])
    (second : List String) : origin place (first ++ second) = origin place first := by
  obtain ⟨piece, rest, rfl⟩ := List.exists_cons_of_ne_nil filled
  rfl

/-- A row is followed through each place on its way. -/
theorem follow_split {first second : List String} (further : second ≠ [])
    (followed : follow top links place (first ++ second) = .ok goal) :
    ∃ mid fewer, follow top links place first = .ok mid ∧
      follow top fewer mid second = .ok goal := by
  -- Behind a link the row is another one, so the links that are left carry the induction.
  induction links using Nat.strong_induction_on generalizing place first with
  | _ links fewer =>
      induction first generalizing place with
      | nil => exact ⟨place, links, follow_nil top links place, followed⟩
      | cons piece rest ih =>
          rw [List.cons_append, follow_cons] at followed
          rw [follow_cons]
          split at followed
          case h_1 => cases followed
          case h_2 next moved => exact ih followed
          case h_3 target moved =>
              cases links with
              | zero => cases followed
              | succ left =>
                  dsimp only at followed ⊢
                  have filled : pieces target ++ rest ≠ [] := by simp [pieces_filled]
                  rw [← List.append_assoc, origin_front place filled] at followed
                  exact fewer left (Nat.lt_succ_self left) followed
          case h_4 moved => simp [further] at followed

def Move.stop? (place : List String) (piece : String) : Move → Option (List String)
  | .on next => some next
  | .through _ => none
  | .free => some (place ++ [piece])

theorem follow_snoc {disk : Disk} {first : List String} {piece : String} {move : Move}
    (followed : follow disk.top links place first = .ok mid)
    (moved : step disk.top mid piece = .ok move) (stops : move.stop? mid piece = some goal) :
    follow disk.top links place (first ++ [piece]) = .ok goal := by
  induction links using Nat.strong_induction_on generalizing place first with
  | _ links fewer =>
      induction first generalizing place with
      | nil =>
          rw [follow_nil] at followed
          cases followed
          rw [List.nil_append, follow_cons, moved]
          cases move with
          | on next =>
              cases stops
              exact follow_nil _ _ _
          | through target => cases stops
          | free =>
              cases stops
              rfl
      | cons next rest ih =>
          rw [follow_cons] at followed
          rw [List.cons_append, follow_cons]
          split at followed
          case h_1 => cases followed
          case h_2 onward _ => exact ih followed
          case h_3 target _ =>
              cases links with
              | zero => cases followed
              | succ left =>
                  dsimp only at followed ⊢
                  have filled : pieces target ++ rest ≠ [] := by simp [pieces_filled]
                  rw [← List.append_assoc, origin_front place filled]
                  exact fewer left (Nat.lt_succ_self left) followed
          case h_4 free =>
              -- A free name has nothing below it, so nothing moves on from there.
              split at followed
              case isFalse => cases followed
              case isTrue =>
                  cases followed
                  obtain ⟨⟨access, here⟩, -⟩ := Disk.step_cases moved
                  cases here.symm.trans (Disk.step_free free).2

/-- Names lead straight down where no link is in their way. -/
theorem follow_down {disk : Disk} {names : List String} (plain : ∀ name ∈ names, Plain name)
    (loose : ∀ front, front <+: names → front ≠ [] →
      ∀ target, disk.sight (place ++ front) ≠ some (.link target))
    (followed : follow disk.top links place names = .ok goal) : goal = place ++ names := by
  induction names generalizing place with
  | nil =>
      rw [follow_nil] at followed
      cases followed
      exact (List.append_nil _).symm
  | cons name rest ih =>
      obtain ⟨own, others⟩ := List.forall_mem_cons.mp plain
      rw [follow_cons] at followed
      split at followed
      case h_1 => cases followed
      case h_3 target moved =>
          rcases Disk.step_down own (loose [name] (by simp) (by simp)) moved with same | same <;>
            cases same
      case h_2 next moved =>
          rcases Disk.step_down own (loose [name] (by simp) (by simp)) moved with same | same
          · cases same
            rw [ih others (fun front starts filled target => ?_) followed, List.append_assoc,
              List.singleton_append]
            rw [List.append_assoc, List.singleton_append]
            exact loose (name :: front) (List.cons_prefix_cons.mpr ⟨rfl, starts⟩) (by simp) target
          · cases same
      case h_4 =>
          split at followed
          case isFalse => cases followed
          case isTrue last =>
              cases followed
              rw [List.isEmpty_iff.mp last]

end Rows

namespace Disk

variable {disk : Disk}

theorem locate_ok_iff (path : String) (place : List String) :
    disk.locate path = .ok place ↔ path ≠ "" ∧ path.utf8ByteSize ≤ longestPath ∧
      follow disk.top mostLinks (origin disk.work (pieces path)) (pieces path) = .ok place := by
  unfold locate resolve fits
  rw [intercalate_pieces]
  by_cases blank : path = ""
  · simp [blank]
  · by_cases short : path.utf8ByteSize ≤ longestPath <;> simp [blank, short]

theorem find_ok_iff (path : String) (entry : Entry) :
    disk.find path = .ok entry ↔
      ∃ place, disk.locate path = .ok place ∧ disk.occupant? place = some entry := by
  unfold find
  cases disk.locate path with
  | error fault => simp [bind, Except.bind]
  | ok place => cases found : disk.occupant? place <;> simp [bind, Except.bind, found]

theorem list_ok_iff (path : String) (items : Folder) :
    disk.list path = .ok items ↔
      ∃ access, disk.find path = .ok (.folder items access) ∧ access.read = true := by
  unfold list
  cases disk.find path with
  | error fault => simp [bind, Except.bind]
  | ok entry =>
      cases entry with
      | file text access => simp [bind, Except.bind]
      | link target => simp [bind, Except.bind]
      | folder own access => cases readable : access.read <;> simp [bind, Except.bind, readable]

/-- A path below another is followed from where the upper one leads. -/
theorem locate_below {base path : String} {goal : List String} (filled : base ≠ "")
    (relative : path.toList.head? ≠ some '/') (located : disk.locate (join base path) = .ok goal) :
    ∃ place links, disk.locate base = .ok place ∧
      follow disk.top links place (pieces path) = .ok goal := by
  obtain ⟨front, shape, joined⟩ := join_pieces base
  obtain ⟨-, short, followed⟩ := (locate_ok_iff _ _).mp located
  have room : base.utf8ByteSize ≤ longestPath := by
    have longer := join_size base path relative
    omega
  have fronted : front ≠ [] := by
    rintro rfl
    rcases shape with same | same
    · exact pieces_filled base same
    · exact filled ((intercalate_pieces base).symm.trans (by rw [same]; rfl))
  rw [joined path relative, origin_front disk.work fronted] at followed
  obtain ⟨mid, links, upper, onward⟩ := follow_split (pieces_filled path) followed
  refine ⟨mid, links, (locate_ok_iff _ _).mpr ⟨filled, room, ?_⟩, onward⟩
  rcases shape with same | same
  · rwa [same]
  · -- An empty piece at the end asks for a folder, and the path goes on from one.
    obtain ⟨piece, rest, row⟩ := List.exists_cons_of_ne_nil (pieces_filled path)
    rw [row, follow_cons] at onward
    rw [same, origin_front disk.work fronted]
    cases moved : step disk.top mid piece with
    | error fault =>
        rw [moved] at onward
        cases onward
    | ok move => exact follow_snoc upper (step_empty moved) rfl

end Disk

end JavaOutline.Files
