import JavaOutline.SourceFile

/-!
Reports on sources: for each selected method of a source the expressions of its flattened body, the
variables these declare, and the calls it makes. A source that cannot be reported on leaves a report
with an error. They are made as by `FileReport::from_source` and `method_report`.
-/
namespace JavaOutline.Report

def toolName : String := "flatjava"

def toolVersion : String := "0.1.0"

structure ExpressionEntry where
  kind : String
  line : Nat
  endLine : Nat
  text : String
deriving DecidableEq, Repr, Inhabited

structure DeclarationEntry where
  name : String
  type : String
  line : Nat
  initializer : Option String
deriving DecidableEq, Repr, Inhabited

structure CallEntry where
  scope : Option String
  name : String
  arguments : Nat
  line : Nat
deriving DecidableEq, Repr, Inhabited

structure MethodReport where
  name : String
  signature : String
  line : Nat
  endLine : Nat
  expressions : List ExpressionEntry
  declarations : List DeclarationEntry
  calls : List CallEntry
deriving DecidableEq, Repr, Inhabited

structure FileReport where
  path : String
  package : Option String := none
  publicClass : Option String := none
  methods : List MethodReport := []
  error : Option String := none
deriving DecidableEq, Repr, Inhabited

def ExpressionEntry.texts (e : ExpressionEntry) : List String :=
  [e.kind, e.text]

def DeclarationEntry.texts (d : DeclarationEntry) : List String :=
  [d.name, d.type] ++ d.initializer.toList

def CallEntry.texts (c : CallEntry) : List String :=
  c.scope.toList ++ [c.name]

def MethodReport.texts (m : MethodReport) : List String :=
  [m.name, m.signature] ++ m.expressions.flatMap ExpressionEntry.texts ++
    m.declarations.flatMap DeclarationEntry.texts ++ m.calls.flatMap CallEntry.texts

def FileReport.texts (r : FileReport) : List String :=
  [r.path] ++ r.package.toList ++ r.publicClass.toList ++ r.methods.flatMap MethodReport.texts ++
    r.error.toList

/-- Which methods are reported: those of one name or all, and those of every type at the top or of
the public class only. -/
structure Selection where
  method : Option String := none
  everyType : Bool := false
deriving DecidableEq, Repr, Inhabited

def candidates (source : SourceFile) (everyType : Bool) : List MethodDeclaration :=
  if everyType then source.unit.types.flatMap fun type => type.body.methods
  else source.publicMethods?.getD []

def selectedMethods (source : SourceFile) (selection : Selection) : List MethodDeclaration :=
  (candidates source selection.everyType).filter fun method =>
    selection.method.all fun name => method.name == name

def spanText (source : SourceFile) (span : Span) : String :=
  Text.oneLine (source.text span)

def expressionEntry (source : SourceFile) (e : Expression) : ExpressionEntry where
  kind := e.kind.text
  line := e.span.start.line
  endLine := e.span.stop.line
  text := spanText source e.span

def declarationEntry (source : SourceFile) (v : Declarator) : DeclarationEntry where
  name := v.name
  type := v.type
  line := v.span.start.line
  initializer := v.initializer.map fun e => spanText source e.span

def callEntry (source : SourceFile) (c : MethodCall) : CallEntry where
  scope := c.scope.map fun e => spanText source e.span
  name := c.name
  arguments := c.arguments.length
  line := c.span.start.line

/-- The report on a method, unless one of its walks fails. -/
def methodReport (source : SourceFile) (method : MethodDeclaration) :
    Except Error MethodReport := do
  let expressions ← source.methodExpressions method
  let declarations ← source.variableDeclarations method
  let calls ← source.methodCalls method
  return {
    name := method.name
    signature := method.signature
    line := method.span.start.line
    endLine := method.span.stop.line
    expressions := expressions.map (expressionEntry source)
    declarations := declarations.map (declarationEntry source)
    calls := calls.map (callEntry source) }

namespace FileReport

/-- The report on a source; the first method that fails fails the report. -/
def ofSource (source : SourceFile) (selection : Selection) : Except Error FileReport := do
  let methods ← (selectedMethods source selection).mapM (methodReport source)
  return {
    path := source.path
    package := source.packageName.toOption
    publicClass := source.publicClassName?
    methods }

def failed (path : String) (error : Error) : FileReport where
  path := path
  error := some error.message

def isFailed (report : FileReport) : Bool :=
  report.error.isSome

def ofResult (path : String) (selection : Selection) (opened : Except Error SourceFile) :
    FileReport :=
  match opened >>= fun source => ofSource source selection with
  | .ok report => report
  | .error error => failed path error

end FileReport

def failedCount (reports : List FileReport) : Nat :=
  (reports.filter FileReport.isFailed).length

end JavaOutline.Report
