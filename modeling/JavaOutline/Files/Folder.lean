import JavaOutline.Error
import JavaOutline.Files.Path

/-!
Entries of folders as values. A file holds a text, or bytes that are no text; a folder holds entries
under names; a link holds a path. Files and folders tell what the process may do with them. Hard
links, devices, pipes and sockets stay outside, and so do other processes.
-/
namespace JavaOutline.Files

/-- What the process may do with an entry: read or list it, change it, look names up in it. -/
structure Access where
  read : Bool := true
  write : Bool := true
  enter : Bool := true
deriving DecidableEq, Repr, Inhabited

inductive Entry where
  /-- A file with its text; nothing, if its bytes are no text. -/
  | file (text : Option String) (access : Access := {})
  | folder (items : List (String × Entry)) (access : Access := {})
  | link (target : String)

abbrev Folder := List (String × Entry)

namespace Folder

def item? (folder : Folder) (name : String) : Option Entry :=
  (folder.find? fun item => item.1 == name).map Prod.snd

def setItem (folder : Folder) (name : String) (entry : Entry) : Folder :=
  if folder.any fun item => item.1 == name then
    folder.map fun item => if item.1 == name then (name, entry) else item
  else folder ++ [(name, entry)]

/-- Sets the entry at the end of a row of names, if the folders above it are there. -/
def setEntry (entry : Entry) : Folder → List String → Folder
  | folder, [] => folder
  | folder, [name] => setItem folder name entry
  | folder, name :: rest =>
    match item? folder name with
    | some (.folder items access) =>
      setItem folder name (.folder (setEntry entry items rest) access)
    | _ => folder

end Folder

def Entry.below? : Entry → List String → Option Entry
  | entry, [] => some entry
  | .folder items _, name :: rest =>
    match Folder.item? items name with
    | some entry => below? entry rest
    | none => none
  | _, _ :: _ => none

end JavaOutline.Files
