import JavaOutline.Command.Request
import JavaOutline.Generate.ClassFile
import JavaOutline.Inspection.Paths
import JavaOutline.Report.Encoding
import JavaOutline.Report.Pretty
import JavaOutline.Settings.Loading

/-!
What requests come to: texts for the two outputs, an exit code, and the disk afterwards. The two
outcomes are `run_inspect` and `run_scaffold`; log messages stay outside.
-/
namespace JavaOutline.Command

open JavaOutline.Files
open JavaOutline.Generate
open JavaOutline.Report

structure Outcome where
  /-- 0 for success, 1 if a source failed, 2 if the request could not be carried out. -/
  exitCode : Nat := 0
  output : String := ""
  errors : String := ""
  disk : Disk

namespace Outcome

def failure (disk : Disk) (error : Error) : Outcome where
  exitCode := 2
  errors := "Error: " ++ error.message ++ "\n"
  disk := disk

end Outcome

def fileReports (disk : Disk) (settings : Settings) (method : Option String)
    (paths : List String) : List FileReport :=
  paths.map fun path =>
    FileReport.ofResult path ⟨method, settings.includeNonPublic⟩
      (SourceFile.openFile disk path settings.maxDepth)

def Format.render (format : Format) (colour : Bool) (reports : List FileReport) : String :=
  match format with
  | .json => jsonText reports ++ "\n"
  | .pretty => prettyText colour reports

namespace InspectRequest

def reports (request : InspectRequest) (host : Settings.Host) : Except Error (List FileReport) := do
  let settings ← Settings.load host request.settingsPath
  let paths ← Inspection.paths host.disk settings request.paths
  return fileReports host.disk settings request.method paths

/-- What an inspection comes to. With no files at all there is a warning and no report. -/
def outcome (request : InspectRequest) (host : Settings.Host) (colour : Bool) : Outcome :=
  match request.reports host with
  | .error error => .failure host.disk error
  | .ok [] => { errors := "Warning: no Java files to inspect\n", disk := host.disk }
  | .ok reports => {
      exitCode := if failedCount reports = 0 then 0 else 1
      output := request.format.render colour reports
      disk := host.disk }

end InspectRequest

namespace ScaffoldRequest

/-- The body of the main method: one statement as it is, several as lines of code. -/
def body (request : ScaffoldRequest) : CodeLine :=
  match request.statements with
  | [statement] => .ofStatement statement
  | statements => .code ("\n".intercalate (statements.map fun statement => bareStatement statement ++ ";"))

def classFile (request : ScaffoldRequest) : Except Error ClassFile :=
  (ClassFile.create request.package request.className).map fun file =>
    file.withMethods [.main [request.body]]

def outcome (request : ScaffoldRequest) (disk : Disk) : Outcome :=
  match request.classFile, request.outputFolder with
  | .error error, _ => .failure disk error
  | .ok file, none => { output := file.render, disk }
  | .ok file, some folder =>
    match file.writeTo disk folder with
    | (written, .ok path) => { output := "Created " ++ path ++ "\n", disk := written }
    | (written, .error error) => .failure written error

end ScaffoldRequest

def Request.outcome (request : Request) (host : Settings.Host) (colour : Bool) : Outcome :=
  match request with
  | .inspect request => request.outcome host colour
  | .scaffold request => request.outcome host.disk

def versionText : String :=
  toolName ++ " " ++ toolVersion ++ "\n"

end JavaOutline.Command
