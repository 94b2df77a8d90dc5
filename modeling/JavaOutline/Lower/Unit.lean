import JavaOutline.Depth
import JavaOutline.Error
import JavaOutline.Grammar.Source
import JavaOutline.Lower.Statements

/-!
The outline of a whole source. The number of levels below the top is the depth limit; a tree that
needs more of them is refused. The top is `compilation_unit`, and reading is `parse_source`; the
stack on which a source is lowered stays outside.
-/
namespace JavaOutline.Lower

open JavaOutline.Tree

def answer (source : Source) : (request : Ask) → Plan request.Answer
  | .expression n => (expressionKind source n).map fun kind => ⟨kind, source.span n⟩
  | .statement n => (statementKind source n).map fun kind => ⟨kind, source.span n⟩
  | .type n kind => typeDeclaration source n kind

def levels (source : Source) : Nat → (request : Ask) → Result request.Answer
  | 0, _ => .error .tooDeep
  | left + 1, request => (answer source request).run (levels source left)

def dottedName? (n : Node) : Option Node :=
  n.parts.find? fun part => part.is .identifier || part.is .scopedIdentifier

def packageDeclaration? (source : Source) (n : Node) : Option PackageDeclaration :=
  if n.is .packageDeclaration then
    (dottedName? n).map fun name => ⟨source.text name, source.span n⟩
  else none

def importDeclaration? (source : Source) (n : Node) : Option ImportDeclaration :=
  if n.is .importDeclaration then
    (dottedName? n).map fun path => {
      path := source.text path
      isStatic := n.children.any fun child => child.kind == .token "static"
      isWildcard := (n.ofKind? .asterisk).isSome
      span := source.span n }
  else none

def topType (n : Node) : Plan (Option TypeDeclaration) :=
  match typeKind? n with
  | some kind => (Below.type n kind).map some
  | none => .done none

/-- The plan for the outline of a tree. The first package declaration counts. -/
def outline (source : Source) (root : Node) : Plan CompilationUnit := do
  let types ← root.parts.mapM topType
  return {
    chars := source.chars
    package := root.parts.findSome? (packageDeclaration? source)
    imports := root.parts.filterMap (importDeclaration? source)
    types := types.filterMap id
    span := source.span root }

def unit (chars : List Char) (limit : Nat) (root : Node) : Result CompilationUnit :=
  (outline ⟨chars⟩ root).run (levels ⟨chars⟩ limit)

end JavaOutline.Lower

namespace JavaOutline

/-- Reads the outline of a text under a depth limit; larger limits than the largest count as that.
The path appears in errors only. -/
def CompilationUnit.read (path : String) (chars : List Char) (limit : Nat) :
    Except Error CompilationUnit :=
  let bound := min limit largestDepth
  match Grammar.tree? chars with
  | none => .error (.parse path .ungrammatical)
  | some root =>
    match Lower.unit chars bound root with
    | .ok unit => .ok unit
    | .error .tooDeep => .error (.depthExceeded bound)
    | .error (.missing kind part place) => .error (.parse path (.missing kind part place))

end JavaOutline
