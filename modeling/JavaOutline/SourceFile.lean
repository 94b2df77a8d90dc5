import JavaOutline.Files.Disk
import JavaOutline.Lower.Unit
import JavaOutline.Walk.Flow

/-!
Opened sources and the questions that can be asked of them. The depth limit of an opened source
bounds every walk over one of its methods; lists over the whole source have the default limit. This
is `JavaSource`.
-/
namespace JavaOutline

/-- The outline of a source, where it came from, and the limit for walks over its methods. -/
structure SourceFile where
  path : String
  unit : CompilationUnit
  limit : Nat

namespace SourceFile

def ofText (path text : String) (limit : Nat := defaultDepth) : Except Error SourceFile :=
  (CompilationUnit.read path text.toList limit).map fun unit => ⟨path, unit, limit⟩

def openFile (disk : Files.Disk) (path : String) (limit : Nat := defaultDepth) :
    Except Error SourceFile :=
  match disk.readText path with
  | .ok text => ofText path text limit
  | .error fault => .error (.parse path (.unreadable fault))

variable (source : SourceFile)

def packageName : Except Error String :=
  match source.unit.package with
  | some declaration => .ok declaration.name
  | none => .error (.missingPackage source.path)

def publicClassName? : Option String :=
  source.unit.publicClass?.map TypeDeclaration.name

/-- The methods of the public class, whatever their own modifiers. -/
def publicMethods? : Option (List MethodDeclaration) :=
  source.unit.publicClass?.map fun type => type.body.methods

def publicMethod? (name : String) : Option MethodDeclaration :=
  source.publicMethods?.bind fun methods => methods.find? fun method => method.name == name

def methodExpressions (method : MethodDeclaration) : Except Error (List Expression) :=
  method.flatten source.limit

def variableDeclarations (method : MethodDeclaration) : Except Error (List Declarator) :=
  (source.methodExpressions method).map declarators

def methodCalls (method : MethodDeclaration) : Except Error (List MethodCall) :=
  Walk.calls source.limit method.tree

def assignments (method : MethodDeclaration) : Except Error (List Assignment) :=
  Walk.assignments source.limit method.tree

/-- Every statement of the source, an outer one before those in it. -/
def allStatements : Except Error (List Statement) :=
  Walk.statements defaultDepth source.unit.tree

def allExpressions : Except Error (List Expression) :=
  Walk.expressions defaultDepth source.unit.tree

def text (span : Span) : String :=
  source.unit.snippet span

end SourceFile

end JavaOutline
