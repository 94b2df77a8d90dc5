import JavaOutline.Json.Parser
import JavaOutline.Json.Printer
import JavaOutline.Report.Basic

/-!
Reports as JSON. Fields come in a fixed order and an absent option has no field; reading back, a
field that may be absent may also be null. This is `to_json` with the fields of `JsonReport`.
-/
namespace JavaOutline.Report

open JavaOutline.Json

def optionalField (name : String) (text : Option String) : List (String × Value) :=
  (text.map fun t => (name, Value.string t)).toList

def ExpressionEntry.toJson (e : ExpressionEntry) : Value :=
  .object [("kind", .string e.kind), ("line", .number e.line), ("end_line", .number e.endLine),
    ("text", .string e.text)]

def DeclarationEntry.toJson (d : DeclarationEntry) : Value :=
  .object ([("name", .string d.name), ("type", .string d.type), ("line", .number d.line)] ++
    optionalField "initializer" d.initializer)

def CallEntry.toJson (c : CallEntry) : Value :=
  .object (optionalField "scope" c.scope ++
    [("name", .string c.name), ("arguments", .number c.arguments), ("line", .number c.line)])

def MethodReport.toJson (m : MethodReport) : Value :=
  .object [("name", .string m.name), ("signature", .string m.signature), ("line", .number m.line),
    ("end_line", .number m.endLine),
    ("expressions", .array (m.expressions.map ExpressionEntry.toJson)),
    ("declarations", .array (m.declarations.map DeclarationEntry.toJson)),
    ("calls", .array (m.calls.map CallEntry.toJson))]

def FileReport.toJson (r : FileReport) : Value :=
  .object ([("path", .string r.path)] ++ optionalField "package" r.package ++
    optionalField "public_class" r.publicClass ++
    [("methods", .array (r.methods.map MethodReport.toJson))] ++ optionalField "error" r.error)

structure Summary where
  version : String
  filesScanned : Nat
  filesFailed : Nat
  files : List FileReport
deriving DecidableEq, Repr, Inhabited

def Summary.ofReports (reports : List FileReport) : Summary where
  version := toolVersion
  filesScanned := reports.length
  filesFailed := failedCount reports
  files := reports

def Summary.toJson (s : Summary) : Value :=
  .object [("version", .string s.version), ("files_scanned", .number s.filesScanned),
    ("files_failed", .number s.filesFailed), ("files", .array (s.files.map FileReport.toJson))]

def jsonText (reports : List FileReport) : String :=
  (Summary.ofReports reports).toJson.render

/-- A text that has to be there. -/
def needText (field : Option Value) : Option String :=
  field.bind Value.string?

def needCount (field : Option Value) : Option Nat :=
  field.bind Value.count?

def needList {α : Type} (item : Value → Option α) (field : Option Value) : Option (List α) :=
  field.bind (Value.list? item)

def optionalText : Option Value → Option (Option String)
  | none | some .null => some none
  | some value => value.string?.map some

/-- A list that may be absent, which counts as empty. -/
def optionalList {α : Type} (item : Value → Option α) : Option Value → Option (List α)
  | none => some []
  | some value => value.list? item

def ExpressionEntry.ofJson? (value : Value) : Option ExpressionEntry := do
  match ← value.fields? ["kind", "line", "end_line", "text"] with
  | [kind, line, endLine, text] =>
    some ⟨← needText kind, ← needCount line, ← needCount endLine, ← needText text⟩
  | _ => none

def DeclarationEntry.ofJson? (value : Value) : Option DeclarationEntry := do
  match ← value.fields? ["name", "type", "line", "initializer"] with
  | [name, type, line, initializer] =>
    some ⟨← needText name, ← needText type, ← needCount line, ← optionalText initializer⟩
  | _ => none

def CallEntry.ofJson? (value : Value) : Option CallEntry := do
  match ← value.fields? ["scope", "name", "arguments", "line"] with
  | [scope, name, arguments, line] =>
    some ⟨← optionalText scope, ← needText name, ← needCount arguments, ← needCount line⟩
  | _ => none

def MethodReport.ofJson? (value : Value) : Option MethodReport := do
  match ← value.fields?
    ["name", "signature", "line", "end_line", "expressions", "declarations", "calls"] with
  | [name, signature, line, endLine, expressions, declarations, calls] =>
    some {
      name := ← needText name
      signature := ← needText signature
      line := ← needCount line
      endLine := ← needCount endLine
      expressions := ← needList ExpressionEntry.ofJson? expressions
      declarations := ← needList DeclarationEntry.ofJson? declarations
      calls := ← needList CallEntry.ofJson? calls }
  | _ => none

def FileReport.ofJson? (value : Value) : Option FileReport := do
  match ← value.fields? ["path", "package", "public_class", "methods", "error"] with
  | [path, package, publicClass, methods, error] =>
    some {
      path := ← needText path
      package := ← optionalText package
      publicClass := ← optionalText publicClass
      methods := ← optionalList MethodReport.ofJson? methods
      error := ← optionalText error }
  | _ => none

def Summary.ofJson? (value : Value) : Option Summary := do
  match ← value.fields? ["version", "files_scanned", "files_failed", "files"] with
  | [version, scanned, failures, files] =>
    some ⟨← needText version, ← needCount scanned, ← needCount failures,
      ← needList FileReport.ofJson? files⟩
  | _ => none

def Summary.parse? (text : String) : Option Summary :=
  Json.parse? text >>= Summary.ofJson?

end JavaOutline.Report
