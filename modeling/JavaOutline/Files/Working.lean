import JavaOutline.Files.Disk

/-!
A folder by itself, as the working folder of a process on a disk that holds little else. Such a disk
has the one link every process has to its working folder, `/proc/self/cwd`.
-/
namespace JavaOutline.Files

/-- The disk on which a process works in a folder, with some entries at the top beside it. -/
def Folder.diskBeside (folder others : Folder) : Disk where
  root := others ++
    [("proc", .folder [("self", .folder [("cwd", .link "/work")])]), ("work", .folder folder)]
  work := ["work"]

def Folder.disk (folder : Folder) : Disk :=
  folder.diskBeside []

def Disk.workItems (disk : Disk) : Folder :=
  match disk.occupant? disk.work with
  | some (.folder items _) => items
  | _ => []

instance : Coe Folder Disk :=
  ⟨Folder.disk⟩

instance : CoeOut Disk Folder :=
  ⟨Disk.workItems⟩

namespace Folder

def readText (folder : Folder) (path : String) : Except FileFault String :=
  folder.disk.readText path

def makeFolders (folder : Folder) (row : List String) : Folder × Option FileFault :=
  let (disk, fault) := folder.disk.makeFolders row
  (disk, fault)

def writeText (folder : Folder) (path text : String) : Folder × Option FileFault :=
  let (disk, fault) := folder.disk.writeText path text
  (disk, fault)

end Folder

end JavaOutline.Files
