import JavaOutline.Lower.Declarations

/-!
Outlines of switches and expressions. They follow `switch_block` and `expression_kind`.
-/
namespace JavaOutline.Lower

open JavaOutline.Tree

variable (source : Source)

/-- A label of a switch; one without values is the default. -/
def switchLabel (n : Node) : Plan SwitchLabel :=
  if n.parts.isEmpty then .done .default
  else (n.parts.mapM Below.expression).map .values

def switchPart (found : List SwitchLabel × List Statement) (n : Node) :
    Plan (List SwitchLabel × List Statement) :=
  if n.is .switchLabel then
    (switchLabel n).map fun label => (found.1 ++ [label], found.2)
  else
    (Below.statement n).map fun statement => (found.1, found.2 ++ [statement])

/-- An entry of a switch; nothing for nodes that are no entries. -/
def switchEntry (n : Node) : Plan (Option SwitchEntry) :=
  if n.is .switchRule || n.is .switchBlockStatementGroup then do
    let (labels, statements) ← n.parts.foldlM (switchPart) ([], [])
    return some ⟨labels, statements, n.is .switchRule, source.span n⟩
  else .done none

def switchBlock (n : Node) : Plan SwitchBlock := do
  let selector ← source.field n .condition >>= Below.expression
  let body ← source.field n .body
  let entries ← body.parts.mapM (switchEntry source)
  return ⟨selector, entries.filterMap id⟩

def fieldExpression (n : Node) (f : Field) : Plan Expression :=
  source.field n f >>= Below.expression

def methodCall (n : Node) : Plan MethodCall := do
  let scope ← optional Below.expression (n.get? .object)
  let name ← source.fieldText n .name
  let arguments ← arguments n
  return {
    scope
    typeArguments := ((n.get? .typeArguments).elim [] Node.parts).map source.compact
    name
    arguments
    span := source.span n }

def update (n : Node) : Plan ExpressionKind := do
  let operand ← source.require n "operand" n.parts.head?
  let operator := (n.children.find? fun child => !child.isNamed).elim "" source.text
  let value ← Below.expression operand
  return .unary operator value (n.children.head?.any Node.isNamed)

/-- The creation of an object. What stands before the word `new` is the object it belongs to. -/
def objectCreation (n : Node) : Plan ObjectCreation := do
  let before := n.children.takeWhile fun child => child.kind != .token "new"
  let owner := (before.filter fun child => child.isNamed && !child.isComment).getLast?
  let scope ← optional Below.expression owner
  let type ← (source.field n .type).map source.compact
  let arguments ← arguments n
  let body ← optional (classBody source) (n.ofKind? .classBody)
  return ⟨scope, type, arguments, body⟩

def arrayCreation (n : Node) : Plan ExpressionKind := do
  let type ← (source.field n .type).map source.compact
  let sizes := (n.parts.filter (·.is .dimensionsExpr)).filterMap fun d => d.parts.head?
  let dimensions ← sizes.mapM Below.expression
  let initializer ← optional Below.expression (n.get? .value)
  return .arrayCreation type dimensions initializer

def lambdaNames (n : Node) : List String :=
  if n.is .identifier then [source.text n]
  else if n.is .formalParameters then (source.parameters n).map (·.name)
  else n.parts.map source.text

def lambda (n : Node) : Plan ExpressionKind := do
  let parameters ← source.field n .parameters
  let body ← source.field n .body
  let lowered ←
    if body.is .block then (block source body).map LambdaBody.block
    else (Below.expression body).map LambdaBody.expression
  return .lambda (lambdaNames source parameters) lowered

def methodReference (n : Node) : Plan ExpressionKind := do
  let scope ← source.require n "scope" n.parts.head?
  let value ← Below.expression scope
  return .methodReference value (n.children.getLast?.elim "" source.text)

def isLiteral (r : Rule) : Bool :=
  [Rule.decimalIntegerLiteral, .hexIntegerLiteral, .octalIntegerLiteral, .binaryIntegerLiteral,
    .decimalFloatingPointLiteral, .hexFloatingPointLiteral, .characterLiteral, .stringLiteral,
    .trueLiteral, .falseLiteral, .nullLiteral].contains r

def otherExpression (n : Node) : Plan ExpressionKind :=
  (n.parts.mapM Below.expression).map (.other n.kind.text)

def expressionKind (n : Node) : Plan ExpressionKind :=
  let part := fieldExpression source n
  match n.kind with
  | .token _ => otherExpression n
  | .rule r =>
    if isLiteral r then .done (.literal (source.text n))
    else
      match r with
      | .identifier => .done (.name (source.text n))
      | .thisWord => .done .thisObject
      | .superWord => .done .superObject
      | .methodInvocation => (methodCall source n).map .call
      | .assignmentExpression => do
        let operator ← source.fieldText n .operator
        let target ← part .left
        let value ← part .right
        return .assign ⟨target, operator, value, source.span n⟩
      | .binaryExpression => do
        let operator ← source.fieldText n .operator
        let left ← part .left
        let right ← part .right
        return .binary left operator right
      | .unaryExpression => do
        let operator ← source.fieldText n .operator
        let operand ← part .operand
        return .unary operator operand false
      | .updateExpression => update source n
      | .parenthesizedExpression => do
        let inner ← source.require n "expression" n.parts.head?
        (Below.expression inner).map .enclosed
      | .fieldAccess => do
        let field ← source.fieldText n .field
        let scope ← part .object
        return .fieldAccess scope field
      | .arrayAccess => do
        let array ← part .array
        let index ← part .index
        return .arrayAccess array index
      | .objectCreationExpression => (objectCreation source n).map .creation
      | .arrayCreationExpression => arrayCreation source n
      | .arrayInitializer => (n.parts.mapM Below.expression).map .arrayInitializer
      | .castExpression => do
        let value ← part .value
        return .cast (" & ".intercalate ((n.all .type).map source.compact)) value
      | .ternaryExpression => do
        let condition ← part .condition
        let yes ← part .consequence
        let no ← part .alternative
        return .conditional condition yes no
      | .instanceofExpression => do
        let value ← part .left
        let type := (n.get? .right).or (n.get? .pattern)
        return .instanceOf value (type.elim "" source.compact)
          ((n.get? .name).map source.text)
      | .lambdaExpression => lambda source n
      | .methodReference => methodReference source n
      | .switchExpression => (switchBlock source n).map .switch
      | .classLiteral => .done (.classLiteral (n.parts.head?.elim "" source.compact))
      | _ => otherExpression n

end JavaOutline.Lower
