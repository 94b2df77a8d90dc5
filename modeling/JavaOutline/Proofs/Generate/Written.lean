import JavaOutline.Command.Outcome
import JavaOutline.Proofs.Files.Changes
import JavaOutline.Proofs.Generate.Names

/-!
Where generated files go. Writing a class changes one file, the one that the path below the output
folder stands for, and adds at most folders on the way to it. The names of the class and its package
lead straight down, so the file lies outside the output folder only behind a link. A write that
breaks off leaves a part of the text in that file.
-/
namespace JavaOutline.Generate

open JavaOutline.Files
open JavaOutline.Command
open Disk (Grown Kept)

/-- A file holds a text where a file or nothing was, and everything elsewhere is kept. -/
structure Put (row place : List String) (held : Option String) (before after : Disk) : Prop where
  shown : ∃ access, after.sight place = some (.file held access)
  free : before.sight place = none ∨ ∃ old access, before.sight place = some (.file old access)
  elsewhere : ∀ names, names ≠ place → Kept row before after names

/-- The path of a file below a base leads to a place. The names of the file lead there from the
place of the base, unless a link stands on their way. -/
structure Lands (disk : Disk) (base : String) (file : ClassFile) (place : List String) : Prop where
  leads : disk.locate (join base file.relativePath) = .ok place
  above : base ≠ "" → ∃ folder, disk.locate base = .ok folder
  below : ∀ folder, disk.locate base = .ok folder →
    (∀ front, front <+: file.pathNames → front ≠ [] →
      ∀ target, disk.sight (folder ++ front) ≠ some (.link target)) →
    place = folder ++ file.pathNames

namespace ClassFile

/-- The folders that writing a file below a base may make are named by starts of this row. -/
def foldersAbove (file : ClassFile) (base : String) : List String :=
  parentNames (join base file.relativePath)

variable {file : ClassFile} (packaged : isPackageName file.package = true)
  (named : isIdentifier file.className = true)

include packaged named

theorem lands {disk : Disk} {base : String} {place : List String}
    (located : disk.locate (join base file.relativePath) = .ok place) :
    Lands disk base file place := by
  have relative := relative_head packaged named
  refine ⟨located, fun filled => ?_, fun folder upper loose => ?_⟩
  · obtain ⟨folder, -, upper, -⟩ := Disk.locate_below filled relative located
    exact ⟨folder, upper⟩
  · have filled := ((Disk.locate_ok_iff base folder).mp upper).1
    obtain ⟨other, links, also, onward⟩ := Disk.locate_below filled relative located
    cases upper.symm.trans also
    rw [relative_pieces packaged named] at onward
    exact follow_down (path_names_plain packaged named) loose onward

/-- A write is stopped with folders made at most, or it comes to the place of the file, where it
leaves the whole text or breaks off. -/
theorem write_to_shows {disk after : Disk} {base : String} {result : Except Error String}
    (written : file.writeTo disk base = (after, result)) :
    (∃ error, result = .error error) ∧ Grown (file.foldersAbove base) disk after ∨
      ∃ place held, Lands after base file place ∧
        Put (file.foldersAbove base) place held disk after ∧
        ((∃ path, result = .ok path) ∧ held = some file.render ∨
          (∃ error, result = .error error) ∧ ∃ bytes, bytes < file.render.utf8ByteSize ∧
            held = Disk.beginning file.render bytes) := by
  have grown : Grown (file.foldersAbove base) disk
      (disk.makeFolders (parentNames (join base file.relativePath)).reverse).1 := by
    simpa [foldersAbove] using
      Disk.make_folders_grown disk (parentNames (join base file.relativePath)).reverse
  unfold writeTo at written
  dsimp only at written
  split at written
  case h_1 changed fault made =>
      cases written
      rw [made] at grown
      exact .inl ⟨⟨_, rfl⟩, grown⟩
  case h_2 changed made =>
      rw [made] at grown
      cases wrote : changed.writeText (join base file.relativePath) file.render with
      | mk later fault =>
          have same : after = later ∧ ((fault = none → ∃ path, result = .ok path) ∧
              (fault ≠ none → ∃ error, result = .error error)) := by
            rw [wrote] at written
            cases fault <;> cases written <;> simp
          obtain ⟨rfl, success, failure⟩ := same
          rcases Disk.write_text_shows wrote with
            ⟨rfl, failed⟩ | ⟨place, held, located, changes, ending⟩
          · exact .inl ⟨failure failed, grown⟩
          · obtain ⟨access, shown, free⟩ := changes.shown
            refine .inr ⟨place, held, lands packaged named (changes.evolves.locate located),
              ⟨⟨access, shown⟩, ?_, fun names apart => ?_⟩, ?_⟩
            · -- A folder made on the way is no place for a file, so what is there was there before.
              rcases grown.kept place with still | ⟨-, folder, -⟩
              · rw [← still]
                exact free.imp_right fun ⟨old, found⟩ => ⟨old, access, found⟩
              · rcases free with none | ⟨old, found⟩
                · cases folder.symm.trans none
                · cases folder.symm.trans found
            · exact (grown.kept names).later changes.evolves (changes.elsewhere names apart)
            · rcases ending with ⟨whole, same⟩ | ⟨failed, part⟩
              · exact .inl ⟨success whole, same⟩
              · exact .inr ⟨failure failed, part⟩

end ClassFile

theorem class_file_ok {request : ScaffoldRequest} {file : ClassFile}
    (accepted : request.classFile = .ok file) :
    file.package = request.package ∧ file.className = request.className ∧
      isPackageName file.package = true ∧ isIdentifier file.className = true := by
  unfold ScaffoldRequest.classFile at accepted
  cases created : ClassFile.create request.package request.className with
  | error error => simp [created, Except.map] at accepted
  | ok bare =>
      obtain ⟨packaged, named, rfl⟩ := ClassFile.create_ok created
      simp only [created, Except.map, Except.ok.injEq] at accepted
      subst accepted
      exact ⟨rfl, rfl, packaged, named⟩

/-- Generating a class that is refused changes nothing. One that is accepted is written to the file
that its path below the folder stands for; the names in that path lead straight down, and no other
names share it. Nothing else changes but that folders above the file may be new. If the file cannot
be written nothing changes in it either, unless the write breaks off and leaves a part there. -/
theorem scaffold_confined (request : ScaffoldRequest) (disk : Disk) :
    (∀ error, ClassFile.create request.package request.className = .error error →
      (request.outcome disk).exitCode = 2 ∧ (request.outcome disk).disk = disk) ∧
    (∀ file base, request.classFile = .ok file → request.outputFolder = some base →
      file.pathNames = packageFolders request.package ++ [request.className ++ ".java"] ∧
      ".".intercalate (packageFolders request.package) = request.package ∧
      (∀ name ∈ file.pathNames, Plain name) ∧
      ((request.outcome disk).exitCode = 0 ∧
          (∃ place, Lands (request.outcome disk).disk base file place ∧
            Put (file.foldersAbove base) place (some file.render) disk
              (request.outcome disk).disk) ∨
        (request.outcome disk).exitCode = 2 ∧
          (Grown (file.foldersAbove base) disk (request.outcome disk).disk ∨
            ∃ place bytes, bytes < file.render.utf8ByteSize ∧
              Lands (request.outcome disk).disk base file place ∧
              Put (file.foldersAbove base) place (Disk.beginning file.render bytes) disk
                (request.outcome disk).disk))) ∧
    (∀ (other : ScaffoldRequest) (file another : ClassFile), request.classFile = .ok file →
      other.classFile = .ok another → file.relativePath = another.relativePath →
      request.package = other.package ∧ request.className = other.className) := by
  constructor
  · intro error refused
    have classless : request.classFile = .error error := by
      rw [ScaffoldRequest.classFile, refused]
      rfl
    unfold ScaffoldRequest.outcome
    rw [classless]
    exact ⟨rfl, rfl⟩
  constructor
  · intro file base accepted below
    obtain ⟨samePackage, sameName, packaged, named⟩ := class_file_ok accepted
    rw [← samePackage, ← sameName]
    refine ⟨rfl, intercalate_folders packaged, ClassFile.path_names_plain packaged named, ?_⟩
    unfold ScaffoldRequest.outcome
    rw [accepted, below]
    dsimp only
    split
    case h_1 after path written =>
        rcases ClassFile.write_to_shows packaged named written with
          ⟨⟨error, failed⟩, -⟩ | ⟨place, held, landed, put, ⟨-, rfl⟩ | ⟨⟨error, failed⟩, -⟩⟩
        · cases failed
        · exact .inl ⟨rfl, place, landed, put⟩
        · cases failed
    case h_2 after error failed =>
        rcases ClassFile.write_to_shows packaged named failed with
          ⟨-, grown⟩ | ⟨place, held, landed, put, ⟨⟨path, done⟩, -⟩ | ⟨-, bytes, part, rfl⟩⟩
        · exact .inr ⟨rfl, .inl grown⟩
        · cases done
        · exact .inr ⟨rfl, .inr ⟨place, bytes, part, landed, put⟩⟩
  · intro other file another accepted also same
    obtain ⟨onePackage, oneName, packaged, named⟩ := class_file_ok accepted
    obtain ⟨otherPackage, otherName, likewise, too⟩ := class_file_ok also
    rw [← onePackage, ← oneName, ← otherPackage, ← otherName]
    exact ClassFile.names_of_path packaged named likewise too same

def occupiedDisk : Disk where
  root := [("home", .folder [("gen", .folder [
    ("demo", .folder [("Main.java", .file (some "stale"))]),
    ("notes.txt", .file none)])])]
  work := ["home"]

def occupantRequest : ScaffoldRequest :=
  { package := "demo", className := "Main", outputFolder := some "gen/src/./.." }

def occupant : ClassFile :=
  { package := "demo", className := "Main", methods := [.main [.code ""]] }

theorem occupied_scaffold_confined :
    (({ occupantRequest with package := "a.if" } : ScaffoldRequest).outcome
      occupiedDisk).exitCode = 2 ∧
    occupantRequest.classFile = .ok occupant ∧
    (occupantRequest.outcome occupiedDisk).exitCode = 0 ∧
    Put (occupant.foldersAbove "gen/src/./..") ["home", "gen", "demo", "Main.java"]
      (some occupant.render) occupiedDisk (occupantRequest.outcome occupiedDisk).disk := by
  have accepted : occupantRequest.classFile = .ok occupant := rfl
  have success : (occupantRequest.outcome occupiedDisk).exitCode = 0 := by decide +kernel
  have spot : (occupantRequest.outcome occupiedDisk).disk.locate
      (join "gen/src/./.." occupant.relativePath) = .ok ["home", "gen", "demo", "Main.java"] :=
    ok_of_option (by decide +kernel)
  obtain ⟨_, _, _, outcome⟩ :=
    (scaffold_confined occupantRequest occupiedDisk).2.1 occupant "gen/src/./.." accepted rfl
  refine ⟨((scaffold_confined _ occupiedDisk).1 (.invalidName .packageName "a.if") rfl).1,
    accepted, success, ?_⟩
  rcases outcome with ⟨_, place, landed, put⟩ | ⟨failed, _⟩
  · cases spot.symm.trans landed.leads
    exact put
  · rw [success] at failed
    cases failed

/-- A disk with a link from a folder to the working folder, as every process has one, and in the
working folder a class with no room for another byte. -/
def linkedDisk (room : Option Nat) : Disk where
  root := [("proc", .folder [("self", .folder [("cwd", .link "/work")])]),
    ("work", .folder [("Old.java", .file (some "stale"))])]
  work := ["work"]
  room := room

/-- A class lands outside its output folder behind a link, and a failed write empties a file. -/
theorem scaffold_escapes :
    ((({ package := "cwd", className := "Main", outputFolder := some "/proc/self" } :
        ScaffoldRequest).outcome (linkedDisk none)).exitCode = 0 ∧
      (linkedDisk none).locate "/proc/self" = .ok ["proc", "self"] ∧
      (linkedDisk none).sight ["work", "Main.java"] = none ∧
      (({ package := "cwd", className := "Main", outputFolder := some "/proc/self" } :
        ScaffoldRequest).outcome (linkedDisk none)).disk.sight ["work", "Main.java"] ≠ none) ∧
    ((({ package := "", className := "Old", outputFolder := some "." } :
        ScaffoldRequest).outcome (linkedDisk (some 0))).exitCode = 2 ∧
      (linkedDisk (some 0)).sight ["work", "Old.java"] = some (.file (some "stale") {}) ∧
      (({ package := "", className := "Old", outputFolder := some "." } :
        ScaffoldRequest).outcome (linkedDisk (some 0))).disk.sight ["work", "Old.java"] =
          some (.file (some "") {})) := by
  have place : (linkedDisk none).locate "/proc/self" = .ok ["proc", "self"] :=
    ok_of_option (by decide +kernel)
  exact ⟨⟨by decide +kernel, place, by decide +kernel, by decide +kernel⟩, by decide +kernel,
    by decide +kernel, by decide +kernel⟩

end JavaOutline.Generate
