import JavaOutline.Generate.Name
import JavaOutline.Outline.Modifier
import JavaOutline.Text.Blank

/-!
Methods of generated files, from the names they are made of to the lines they become. They are built
as by `MethodSpecBuilder` and written as by `render_method`.
-/
namespace JavaOutline.Generate

/-- A part of a body: a statement, to which a semicolon is added, or lines of code as they are. -/
inductive CodeLine where
  | statement (text : String)
  | code (text : String)
deriving DecidableEq, Repr, Inhabited

structure ParameterSpec where
  type : String
  name : String
deriving DecidableEq, Repr, Inhabited

structure MethodSpec where
  name : String
  modifiers : List Modifier := []
  returnType : String := "void"
  parameters : List ParameterSpec := []
  body : List CodeLine := []
deriving DecidableEq, Repr, Inhabited

/-- A statement without the blanks around it and without the semicolons at its end. -/
def bareStatement (text : String) : String :=
  String.ofList (Text.trimmedEnd (· == ';') (Text.trimmed text.toList))

def CodeLine.ofStatement (text : String) : CodeLine :=
  .statement (bareStatement text)

namespace MethodSpec

def withModifier (spec : MethodSpec) (modifier : Modifier) : MethodSpec :=
  if spec.modifiers.contains modifier then spec
  else { spec with modifiers := spec.modifiers ++ [modifier] }

def withModifiers (spec : MethodSpec) (modifiers : List Modifier) : MethodSpec :=
  modifiers.foldl withModifier spec

/-- Refuses a method with a name or a type that may not stand there; the first one is reported. -/
def checked (spec : MethodSpec) : Except Error MethodSpec := do
  checkName .methodName spec.name
  checkName .typeName spec.returnType
  spec.parameters.forM fun parameter => do
    checkName .typeName parameter.type
    checkName .parameterName parameter.name
  return spec

def main (body : List CodeLine) : MethodSpec where
  name := "main"
  modifiers := [.publicAccess, .static]
  parameters := [⟨"String[]", "args"⟩]
  body := body

def signature (spec : MethodSpec) : String :=
  spec.name ++ "(" ++ ", ".intercalate (spec.parameters.map ParameterSpec.type) ++ ")"

end MethodSpec

def indent (level : Nat) : String :=
  String.ofList (List.replicate (2 * level) ' ')

/-- The lines of a part of a body. Blanks at the end of code are dropped, and a line of blanks
becomes an empty one. -/
def CodeLine.lines : CodeLine → List String
  | .statement text => [indent 2 ++ text ++ ";"]
  | .code text =>
    (Text.lines (Text.trimmedEnd Text.isBlank text.toList)).map fun line =>
      if line.all Text.isBlank then "" else indent 2 ++ String.ofList line

def MethodSpec.heading (spec : MethodSpec) : String :=
  let modifiers := spec.modifiers.map fun modifier => modifier.keyword ++ " "
  let parameters := spec.parameters.map fun parameter => parameter.type ++ " " ++ parameter.name
  indent 1 ++ String.join modifiers ++ spec.returnType ++ " " ++ spec.name ++ "(" ++
    ", ".intercalate parameters ++ ") \x7b"

def MethodSpec.lines (spec : MethodSpec) : List String :=
  [spec.heading] ++ spec.body.flatMap CodeLine.lines ++ [indent 1 ++ "\x7d"]

end JavaOutline.Generate
