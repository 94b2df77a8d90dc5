import JavaOutline.Command.Outcome

/-!
The command line. What a request can ask for is read into a value, the request is carried out on
that value, and what it changed is written back. The bounds of the disk are not read, and rights
only as far as reading fails.
-/
namespace JavaOutline.Main

open JavaOutline.Command
open JavaOutline.Files

def usageText : String :=
  "Usage: flatjava [-v] inspect [-m METHOD] [-f pretty|json] [-c CONFIG] PATH...\n" ++
  "       flatjava [-v] scaffold -C CLASS [-p PACKAGE] [-s STATEMENT]... [-o FOLDER]\n"

def fileText (path : String) : IO (Option String) := do
  return String.fromUTF8? (← IO.FS.readBinFile path)

/-- The part of a disk that was read, with the folders of which everything was. -/
structure Reading where
  root : Folder := []
  whole : List (List String) := []

def Reading.set (reading : Reading) (place : List String) (entry : Entry) : Reading :=
  { reading with root := Folder.setEntry entry reading.root place }

def linkTarget (path : String) : IO String := do
  try
    return (← IO.FS.realPath path).toString
  catch _ => return "\x00"

mutual

/-- Reads what pieces of a path lead to from a place, and everything below it if that is asked
for. -/
partial def Reading.along (whole : Bool) (reading : Reading) (place : List String) :
    List String → IO Reading
  | [] => if whole then reading.below place else return reading
  | piece :: rest => do
    if isSilent piece then reading.along whole place rest
    else if piece == ".." then reading.along whole place.dropLast rest
    else
      let next := place ++ [piece]
      let path := "/" ++ "/".intercalate next
      match ← ((← IO.currentDir) / path).symlinkMetadata.toBaseIO with
      | .error _ => return reading
      | .ok found =>
        match found.type with
        | .symlink =>
          let target ← linkTarget path
          (reading.set next (.link target)).along whole [] (pieces target ++ rest)
        | .dir =>
          let known := ((Entry.folder reading.root).below? next).isSome
          (if known then reading else reading.set next (.folder [])).along whole next rest
        | .file =>
          let entry ←
            try pure (.file (← fileText path)) catch _ => pure (.file none { read := false })
          return reading.set next entry
        | .other => return reading

partial def Reading.below (reading : Reading) (place : List String) : IO Reading := do
  if reading.whole.contains place then return reading
  let path := "/" ++ "/".intercalate place
  match ← ((← IO.currentDir) / path).readDir.toBaseIO with
  | .error _ => return reading.set place (.folder [] { read := false, enter := false })
  | .ok entries =>
    entries.foldlM (fun reading item => reading.along true place [item.fileName])
      { reading with whole := place :: reading.whole }

end

def userFolder? : IO (Option String) := do
  match ← IO.getEnv "XDG_CONFIG_HOME", ← IO.getEnv "HOME" with
  | some path, _ => return some path
  | none, some home => return some (join home ".config")
  | none, none => return none

/-- The paths that a request looks at, each with whether it looks at everything below. -/
def lookedAt (user : Option String) : Request → List (Bool × String)
  | .inspect request =>
    request.paths.map (true, ·) ++ request.settingsPath.toList.map (false, ·) ++
      Settings.fileNames.map (false, ·) ++
        user.toList.map fun own => (false, join own Settings.userPath)
  | .scaffold request =>
    match request.outputFolder, request.classFile with
    | some base, .ok file => [(false, join base file.relativePath)]
    | _, _ => []

def readHost (request : Request) : IO Settings.Host := do
  let here := (← IO.currentDir).toString
  let user ← userFolder?
  let work := (pieces here).filter (· != "")
  let start ← ({} : Reading).along false [] work
  let reading ← (lookedAt user request).foldlM (fun reading (whole, path) =>
    reading.along whole (origin work (pieces path)) (pieces path)) start
  return { disk := { root := reading.root, work }, userFolder := user }

partial def writeFolder (path : String) (before after : Folder) : IO Unit := do
  for (name, entry) in after do
    let below := path ++ "/" ++ name
    match entry, Folder.item? before name with
    | .folder items _, some (.folder old _) => writeFolder below old items
    | .folder items _, _ =>
      IO.FS.createDirAll below
      writeFolder below [] items
    | .file (some text) _, some (.file (some old) _) =>
      if text != old then IO.FS.writeFile below text
    | .file (some text) _, _ => IO.FS.writeFile below text
    | _, _ => pure ()

def refuse (refusal : Refusal) : IO UInt32 := do
  match refusal with
  | .help => IO.print usageText
  | .version => IO.print versionText
  | _ => IO.eprint usageText
  return UInt32.ofNat refusal.exitCode

def carryOut (request : Request) : IO UInt32 := do
  let host ← readHost request
  let colour := (← (← IO.getStdout).isTty) && (← IO.getEnv "NO_COLOR").isNone
  let outcome := request.outcome host colour
  writeFolder "" host.disk.root outcome.disk.root
  IO.print outcome.output
  IO.eprint outcome.errors
  return UInt32.ofNat outcome.exitCode

end JavaOutline.Main

def main (arguments : List String) : IO UInt32 :=
  match JavaOutline.Command.Request.ofArguments arguments with
  | .ok request => JavaOutline.Main.carryOut request
  | .error refusal => JavaOutline.Main.refuse refusal
