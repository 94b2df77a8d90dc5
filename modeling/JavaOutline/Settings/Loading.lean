import JavaOutline.Files.Working
import JavaOutline.Settings.Decoding

/-!
Where settings come from, as `Config::load` and `discover` tell: a file that is named, else the
first that is found, else the defaults. Files are looked for in the working folder under two names,
then among the files of the user. Which folder holds the settings of the user is for others to say.
-/
namespace JavaOutline.Settings

open JavaOutline.Files

def fileNames : List String :=
  ["flatjava.yaml", ".flatjava.yaml"]

def userPath : String :=
  "flatjava/flatjava.yaml"

structure Host where
  disk : Disk
  userFolder : Option String := none
  /-- How that path is written in messages. -/
  userName : String := userFolder.getD ""

structure Surroundings where
  work : Folder
  user : Folder := []
  userName : String := ""

def Surroundings.host (surroundings : Surroundings) : Host where
  disk := surroundings.work.diskBeside [("user", .folder surroundings.user)]
  userFolder := some "/user"
  userName := surroundings.userName

instance : Coe Surroundings Host :=
  ⟨Surroundings.host⟩

structure Source where
  path : String
  shown : String

/-- Reads the settings of a file. Faults name the file as it is written. -/
def Source.read (source : Source) (disk : Disk) : Except Error Settings :=
  (match disk.readText source.path with
    | .ok text => parse text
    | .error fault => .error (.unreadable fault)).mapError (Error.settings source.shown)

/-- The first file with settings in a folder, else the one of the user. -/
def discover? (host : Host) (folder : String) : Option Source :=
  match (fileNames.map (join folder)).filter host.disk.isFile with
  | path :: _ => some ⟨path, path⟩
  | [] =>
    host.userFolder.bind fun own =>
      let path := join own userPath
      if host.disk.isFile path then some ⟨path, join host.userName userPath⟩ else none

def load (host : Host) (named : Option String) : Except Error Settings :=
  match named with
  | some path => (Source.mk path path).read host.disk
  | none =>
    match discover? host "" with
    | some source => source.read host.disk
    | none => .ok {}

end JavaOutline.Settings
