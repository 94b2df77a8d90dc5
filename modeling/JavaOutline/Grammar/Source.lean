import JavaOutline.Grammar.Reading
import JavaOutline.Grammar.Statements
import JavaOutline.Tree.Lexer

/-!
The grammar of Java sources put together, and the concrete tree of a text. Comments are put into the
tree afterwards, each into the smallest node around it. A text has a tree here where `parse_tree`
takes the tree of `tree-sitter-java` 0.23 for one without errors.
-/
namespace JavaOutline.Grammar

open JavaOutline.Tree

def java : Goal → Form
  | .program => programForm
  | .statement opens => statementForm opens
  | .block => blockForm
  | .constructorBody => constructorBodyForm
  | .name => nameForm
  | .noted => annotationForm
  | .elementValue => elementValueForm
  | .anyType spot => anyTypeForm spot
  | .plainType spot => plainTypeForm spot
  | .simpleType spot => simpleTypeForm spot
  | .typeArguments => typeArgumentsForm
  | .dimensions => dimensionsForm
  | .expression level place => expressionForm level place
  | .operand place => operandForm place
  | .castValue place => castValueForm place
  | .primary _ => primaryForm
  | .creation => creationForm
  | .arguments => argumentsForm
  | .arrayInitializer => arrayInitializerForm
  | .formalParameters => formalParametersForm
  | .switchExpression => switchExpressionForm
  | .switchLabel => switchLabelForm
  | .recordPattern => recordPatternForm
  | .emptyCall => emptyCallForm
  | .skippedChoice => skippedChoiceForm
  | .typeDeclaration => typeDeclarationForm
  | .classBody => classBodyForm
  | .member => memberForm
  | .moduleBody => moduleBodyForm

def commentNode (c : Comment) : Node :=
  .mk (.rule c.rule) none c.start c.stop []

mutual

def weaveInto (c : Comment) : Node → Node
  | .mk kind label start stop children => .mk kind label start stop (weaveIn c children)

/-- Puts a comment into a list of siblings: into the one whose bytes reach over both its ends, or
else between them. -/
def weaveIn (c : Comment) : List Node → List Node
  | [] => [commentNode c]
  | n :: rest =>
    if c.stop ≤ n.start then commentNode c :: n :: rest
    else if n.start < c.start && c.stop < n.stop then weaveInto c n :: rest
    else n :: weaveIn c rest

end

/-- The number of calls of goals inside each other that a token can cost at most. -/
def callsPerToken : Nat := 32

/-- The concrete tree of a text, or nothing where the text does not follow the grammar. The root
reaches from the first token or comment to the end of the text. -/
def tree? (chars : List Char) : Option Node := do
  let (tokens, comments) ← tokens? chars
  let fuel := callsPerToken * (tokens.length + 2)
  match ← readGoal java fuel .program tokens with
  | ([root], []) =>
    let children := comments.foldl (fun nodes c => weaveIn c nodes) root.children
    let stop := Text.byteSize chars
    some (.mk root.kind none ((children.head?.map Node.start).getD stop) stop children)
  | _ => none

end JavaOutline.Grammar
