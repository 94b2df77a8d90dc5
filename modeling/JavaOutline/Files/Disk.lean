import JavaOutline.Files.Folder
import JavaOutline.Text.Bytes

/-!
A disk as a process sees it, with its working folder. A path is followed piece by piece: an absolute
one from the top, any other from the working folder, through links, and up where it says so. On top
of this stand the calls that a run makes: `is_file`, `exists`, `read_to_string`, `read_dir`,
`create_dir_all`, and `write`, which empties the file before it writes and may break off. The bounds
on names, paths and links are those of Linux.
-/
namespace JavaOutline.Files

structure Disk where
  root : Folder
  access : Access := {}
  /-- The names from the top down to the working folder. -/
  work : List String := []
  /-- How many bytes a file can still take; nothing, if there is no end to them. -/
  room : Option Nat := none

def longestName : Nat := 255

def longestPath : Nat := 4095

def mostLinks : Nat := 40

inductive Move where
  | on (place : List String)
  | through (target : String)
  | free

/-- Takes one piece of a path. A place is given by the names that lead to it from the top; there is
nothing above the top. -/
def step (top : Entry) (place : List String) (piece : String) : Except FileFault Move :=
  match top.below? place with
  | some (.folder items access) =>
    if piece == "" then .ok (.on place)
    else if !access.enter then .error .denied
    else if piece == "." then .ok (.on place)
    else if piece == ".." then .ok (.on place.dropLast)
    else if longestName < piece.utf8ByteSize then .error .nameTooLong
    else
      match Folder.item? items piece with
      | some (.link target) => .ok (.through target)
      | some _ => .ok (.on (place ++ [piece]))
      | none => .ok .free
  | _ => .error .notDirectory

def origin (place row : List String) : List String :=
  if row.head? = some "" then [] else place

/-- Follows pieces up to the first link; `onward` takes the place of the link, and the pieces of its
target in front of those that are left. The last name may be free. -/
def followWith (top : Entry) (onward : List String → List String → Except FileFault (List String)) :
    List String → List String → Except FileFault (List String)
  | place, [] => .ok place
  | place, piece :: rest =>
    match step top place piece with
    | .error fault => .error fault
    | .ok (.on next) => followWith top onward next rest
    | .ok (.through target) => onward place (pieces target ++ rest)
    | .ok .free => if rest.isEmpty then .ok (place ++ [piece]) else .error .notFound

def follow (top : Entry) : Nat → List String → List String → Except FileFault (List String)
  | 0 => followWith top fun _ _ => .error .tooManyLinks
  | links + 1 => followWith top fun place row => follow top links (origin place row) row

namespace Disk

def top (disk : Disk) : Entry :=
  .folder disk.root disk.access

def occupant? (disk : Disk) (place : List String) : Option Entry :=
  disk.top.below? place

def put (disk : Disk) (place : List String) (entry : Entry) : Disk :=
  { disk with root := Folder.setEntry entry disk.root place }

def fits (row : List String) : Bool :=
  ("/".intercalate row).utf8ByteSize ≤ longestPath

def resolve (disk : Disk) (row : List String) : Except FileFault (List String) :=
  if fits row then follow disk.top mostLinks (origin disk.work row) row else .error .nameTooLong

def locate (disk : Disk) (path : String) : Except FileFault (List String) :=
  if path.isEmpty then .error .notFound else disk.resolve (pieces path)

def find (disk : Disk) (path : String) : Except FileFault Entry := do
  match disk.occupant? (← disk.locate path) with
  | some entry => .ok entry
  | none => .error .notFound

def isFile (disk : Disk) (path : String) : Bool :=
  match disk.find path with
  | .ok (.file ..) => true
  | _ => false

def holds (disk : Disk) (path : String) : Bool :=
  match disk.find path with
  | .ok _ => true
  | .error _ => false

def readText (disk : Disk) (path : String) : Except FileFault String := do
  match ← disk.find path with
  | .file text access =>
    if !access.read then .error .denied
    else
      match text with
      | some text => .ok text
      | none => .error .notText
  | .folder _ access => if access.read then .error .isDirectory else .error .denied
  | .link _ => .error .tooManyLinks

def list (disk : Disk) (path : String) : Except FileFault Folder := do
  match ← disk.find path with
  | .folder items access => if access.read then .ok items else .error .denied
  | _ => .error .notDirectory

def isOpen (disk : Disk) (place : List String) : Bool :=
  match disk.occupant? place with
  | some (.folder _ access) => access.write
  | _ => false

/-- Makes an empty folder at the end of a row. Its last name is not followed. -/
def makeFolder (disk : Disk) (row : List String) : Except FileFault Disk :=
  match row.getLast? with
  | none => .error .notFound
  | some name =>
    if !fits row then .error .nameTooLong
    else do
      let place ← disk.resolve row.dropLast
      if (disk.occupant? place).isNone then .error .notFound
      else
        match ← step disk.top place name with
        | .free =>
          if disk.isOpen place then .ok (disk.put (place ++ [name]) (.folder []))
          else .error .denied
        | _ => .error .alreadyExists

def isFolder (disk : Disk) (row : List String) : Bool :=
  match disk.resolve row with
  | .ok place =>
    match disk.occupant? place with
    | some (.folder ..) => true
    | _ => false
  | .error _ => false

/-- What is left after an attempt to make a folder: a folder that is there already is no fault. -/
def settle (disk : Disk) (row : List String) : Except FileFault Disk → Disk × Option FileFault
  | .ok made => (made, none)
  | .error fault => if disk.isFolder row then (disk, none) else (disk, some fault)

/-- Makes a folder and the folders above it, as far as they are not there. The row is given in
reverse; what was made before a fault stays. -/
def makeFolders (disk : Disk) : List String → Disk × Option FileFault
  | [] => (disk, none)
  | name :: above =>
    if isSilent name && !above.isEmpty then makeFolders disk above
    else
      let row := (name :: above).reverse
      match disk.makeFolder row with
      | .error .notFound =>
        match makeFolders disk above with
        | (changed, none) => changed.settle row (changed.makeFolder row)
        | (changed, some fault) => (changed, some fault)
      | result => disk.settle row result

/-- The place of the file that is to be written for a path, and what may be done with it. -/
def target (disk : Disk) (path : String) : Except FileFault (List String × Access) := do
  let place ← disk.locate path
  match disk.occupant? place with
  | some (.file _ access) => if access.write then .ok (place, access) else .error .denied
  | some (.folder ..) => .error .isDirectory
  | some (.link _) => .error .tooManyLinks
  | none => if disk.isOpen place.dropLast then .ok (place, {}) else .error .denied

def beginning (text : String) (bytes : Nat) : Option String :=
  (Text.slice? text.toList 0 bytes).map String.ofList

/-- Writes a text into the file of a path. The file is emptied first, and is left with a part of the
text where there is no room for all of it. -/
def writeText (disk : Disk) (path text : String) : Disk × Option FileFault :=
  match disk.target path with
  | .error fault => (disk, some fault)
  | .ok (place, access) =>
    let emptied := disk.put place (.file (some "") access)
    match emptied.room.filter (· < text.utf8ByteSize) with
    | some room => (emptied.put place (.file (beginning text room) access), some .noSpace)
    | none => (emptied.put place (.file (some text) access), none)

end Disk

end JavaOutline.Files
