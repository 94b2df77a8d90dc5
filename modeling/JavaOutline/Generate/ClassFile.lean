import JavaOutline.Files.Disk
import JavaOutline.Generate.Method

/-!
Generated files: one public class in a package, with its methods in order. A class is checked as by
`ClassBuilder::new`; the rest is `JavaFile`.
-/
namespace JavaOutline.Generate

open JavaOutline.Files

structure ClassFile where
  package : String
  className : String
  methods : List MethodSpec := []
deriving DecidableEq, Repr, Inhabited

namespace ClassFile

/-- A class without methods, if its names may stand there; the package is looked at first. -/
def create (package className : String) : Except Error ClassFile := do
  checkName .packageName package
  checkName .className className
  return { package, className }

def withMethods (file : ClassFile) (methods : List MethodSpec) : ClassFile :=
  { file with methods := file.methods ++ methods }

def pathNames (file : ClassFile) : List String :=
  ((Text.pieces '.' file.package.toList).map String.ofList).filter (· != "") ++
    [file.className ++ ".java"]

def relativePath (file : ClassFile) : String :=
  "/".intercalate file.pathNames

/-- The lines of the methods, an empty line between two methods. -/
def methodLines : List MethodSpec → List String
  | [] => []
  | [method] => method.lines
  | method :: rest => method.lines ++ [""] ++ methodLines rest

def lines (file : ClassFile) : List String :=
  (if file.package.isEmpty then [] else ["package " ++ file.package ++ ";", ""]) ++
    ["public class " ++ file.className ++ " \x7b"] ++ methodLines file.methods ++ ["\x7d"]

def render (file : ClassFile) : String :=
  String.join (file.lines.map (· ++ "\n"))

/-- Writes the file below a folder, and makes the folders on the way. What was made before a fault
stays. -/
def writeTo (file : ClassFile) (disk : Disk) (base : String) : Disk × Except Error String :=
  let path := join base file.relativePath
  match disk.makeFolders (parentNames path).reverse with
  | (changed, some fault) => (changed, .error (.file fault))
  | (changed, none) =>
    match changed.writeText path file.render with
    | (written, none) => (written, .ok path)
    | (written, some fault) => (written, .error (.file fault))

end ClassFile

end JavaOutline.Generate
