import JavaOutline.Files.Disk
import JavaOutline.Settings.Basic

/-!
Which files are inspected, as `collect_files` tells. A file that is named is inspected whatever it
is called; of a folder, the Java files below it that settings do not leave out. Hidden folders and
folders for build output are passed over, unless they are named themselves. The walk below a folder
is that of `walkdir`: links are followed, the names of each folder come in order, and the first
entry that cannot be read ends it.
-/
namespace JavaOutline.Inspection

open JavaOutline.Files

def isPassedOver (name : String) : Bool :=
  name.startsWith "." || ["target", "build", "out"].contains name

/-- A folder that a walk is in: the path by which it came there, and its place. -/
structure Stage where
  path : String
  place : List String

/-- Opens the folder behind a link, and looks for it among the folders that the walk is in. -/
def enterLink (above : List Stage) (path : String) (place : List String) (access : Access) :
    Except Obstacle Unit :=
  if !access.read then .error (.unopened .denied)
  else
    match above.find? fun stage => stage.place == place with
    | some stage => .error (.loop path stage.path)
    | none => .ok ()

def followed (disk : Disk) (above : List Stage) (path : String) : Entry → Except Obstacle Entry
  | .link _ => do
    let place ← (disk.locate path).mapError (.unreadable path)
    let entry ← (disk.find path).mapError (.unreadable path)
    match entry with
    | .folder _ access => enterLink above path place access
    | _ => pure ()
    return entry
  | entry => .ok entry

def itemPaths (disk : Disk) (keeps : String → Bool) (above : List Stage)
    (inside : String → Except Obstacle (List String)) (name path : String) (entry : Entry) :
    Except Obstacle (List String) := do
  match ← followed disk above path entry with
  | .file .. => return if extension? name = some "java" && keeps path then [path] else []
  | .folder .. => if isPassedOver name then return [] else inside path
  | .link _ => return []

def byName (items : Folder) : Folder :=
  items.mergeSort fun a b => a.1 ≤ b.1

/-- The inspected paths below a folder, as many levels down as a path can tell. -/
def walk (disk : Disk) (keeps : String → Bool) :
    Nat → List Stage → String → Except Obstacle (List String)
  | 0, _, path => .error (.unreadable path .nameTooLong)
  | levels + 1, above, path => do
    let items ← (disk.list path).mapError (.unreadable path)
    let place ← (disk.locate path).mapError (.unreadable path)
    let stages := ⟨path, place⟩ :: above
    let found ← (byName items).mapM fun item =>
      itemPaths disk keeps stages (walk disk keeps levels stages) item.1 (join path item.1) item.2
    return found.flatten

def pathsBelow (disk : Disk) (settings : Settings) (path : String) : Except Error (List String) :=
  match disk.find path with
  | .ok (.file ..) => .ok [path]
  | .ok _ =>
    (walk disk (fun below => !settings.isExcluded below) (longestPath + 1) [] path).mapError
      Error.inaccessible
  | .error _ => .error (.inaccessible (.missing path))

def paths (disk : Disk) (settings : Settings) (roots : List String) : Except Error (List String) :=
  (roots.mapM (pathsBelow disk settings)).map List.flatten

end JavaOutline.Inspection
