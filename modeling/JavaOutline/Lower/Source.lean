import JavaOutline.Lower.Plan
import JavaOutline.Outline.Members
import JavaOutline.Text.Blank

/-!
What lowering a concrete tree works with: the text behind the tree, and the parts of a node that
must be there. These are the helpers of `Lowerer`, such as `compact`, `missing` and `field`.
-/
namespace JavaOutline.Lower

open JavaOutline.Tree

structure Source where
  chars : List Char

namespace Source

def text (source : Source) (n : Node) : String :=
  String.ofList ((Text.slice? source.chars n.start n.stop).getD [])

def compact (source : Source) (n : Node) : String :=
  Text.oneLine (source.text n)

def span (source : Source) (n : Node) : Span :=
  Span.ofRange source.chars n.start n.stop

def missing (source : Source) (n : Node) (part : String) : Fault :=
  .missing n.kind.text part (source.span n).start

def require (source : Source) (n : Node) (part : String) : Option Node → Plan Node
  | some child => .done child
  | none => .fault (source.missing n part)

def field (source : Source) (n : Node) (f : Field) : Plan Node :=
  source.require n f.text (n.get? f)

def fieldText (source : Source) (n : Node) (f : Field) : Plan String :=
  (source.field n f).map source.text

/-- A type with the dimensions that stand behind the declared name. -/
def withDimensions (source : Source) (type : String) (n : Node) : String :=
  match n.get? .dimensions with
  | some dimensions =>
    type ++ String.ofList ((source.compact dimensions).toList.filter (· != ' '))
  | none => type

def modifiers (source : Source) (n : Node) : Modifiers :=
  let children := (n.ofKind? .modifiers).elim [] Node.children
  { keywords := children.filterMap fun child =>
      match child.kind with
      | .token text => Modifier.ofKeyword? text
      | .rule _ => none
    annotations := children.filterMap fun child =>
      if child.is .annotationMark || child.is .annotationCall then
        (child.get? .name).map source.text
      else none }

def parameter? (source : Source) (n : Node) : Option Parameter :=
  if n.is .formalParameter then
    some {
      name := ((n.get? .name).map source.text).getD ""
      type := source.withDimensions (((n.get? .type).map source.compact).getD "") n
      modifiers := source.modifiers n
      variadic := false
      span := source.span n }
  else if n.is .spreadParameter then
    let type := n.parts.find? fun part => !(part.is .modifiers || part.is .variableDeclarator)
    let name := (n.parts.find? (·.is .variableDeclarator)).bind (·.get? .name)
    some {
      name := (name.map source.text).getD ""
      type := (type.map source.compact).getD ""
      modifiers := source.modifiers n
      variadic := true
      span := source.span n }
  else none

def parameters (source : Source) (n : Node) : List Parameter :=
  n.parts.filterMap source.parameter?

end Source

end JavaOutline.Lower
