import JavaOutline.Lower.Expressions

/-!
Outlines of statements. They follow `statement_kind`.
-/
namespace JavaOutline.Lower

open JavaOutline.Tree

variable (source : Source)

def firstExpression (n : Node) : Plan Expression :=
  source.require n "expression" n.parts.head? >>= Below.expression

def fieldStatement (n : Node) (f : Field) : Plan Statement :=
  source.field n f >>= Below.statement

def loopStart (n : Node) : Plan Expression :=
  if n.is .localVariableDeclaration then declarationExpression source n
  else Below.expression n

def forLoop (n : Node) : Plan StatementKind := do
  let init ← (n.all .init).mapM (loopStart source)
  let condition ← optional Below.expression (n.get? .condition)
  let update ← (n.all .update).mapM Below.expression
  let body ← fieldStatement source n .body
  return .forLoop init condition update body

/-- A loop over elements. The variable takes the span of the whole loop. -/
def forEach (n : Node) : Plan StatementKind := do
  let type ← (source.field n .type).map source.compact
  let name ← source.fieldText n .name
  let iterable ← fieldExpression source n .value
  let body ← fieldStatement source n .body
  return .forEach ⟨name, type, source.modifiers n, false, source.span n⟩ iterable body

def resource (n : Node) : Plan Expression :=
  match n.get? .type with
  | some type => do
    let variable' ← declarator source (source.compact type) n
    let span := source.span n
    return ⟨.declaration ⟨source.modifiers n, [variable'], span⟩, span⟩
  | none => source.require n "resource" n.parts.head? >>= Below.expression

def handler (n : Node) : Plan Handler := do
  let parameter ← source.require n "parameter" (n.ofKind? .catchFormalParameter)
  let types := ((parameter.ofKind? .catchType).elim [] Node.parts).map source.compact
  let name ← source.fieldText parameter .name
  let body ← source.field n .body
  let lowered ← block source body
  return {
    parameter := {
      name
      type := " | ".intercalate types
      modifiers := source.modifiers parameter
      variadic := false
      span := source.span parameter }
    body := lowered
    span := source.span n }

def attemptPart (found : List Handler × Option Block) (n : Node) :
    Plan (List Handler × Option Block) :=
  if n.is .catchClause then (handler source n).map fun h => (found.1 ++ [h], found.2)
  else if n.is .finallyClause then
    (optional (block source) (n.ofKind? .block)).map fun b => (found.1, b.or found.2)
  else .done found

def attempt (n : Node) : Plan Attempt := do
  let resources ←
    (((n.get? .resources).elim [] Node.parts).filter (·.is .resource)).mapM
      (resource source)
  let body ← source.field n .body
  let lowered ← block source body
  let (handlers, finish) ← n.parts.foldlM (attemptPart source) ([], none)
  return ⟨resources, lowered, handlers, finish⟩

/-- A statement with a label. A lone semicolon is no part, so a label before one has no statement. -/
def labeled (n : Node) : Plan StatementKind := do
  let body ← source.require n "statement" n.parts.tail.getLast?
  (Below.statement body).map (.labeled (n.parts.head?.elim "" source.text))

def asserts (n : Node) : Plan StatementKind := do
  let check ← source.require n "condition" n.parts.head?
  let message ← optional Below.expression n.parts.tail.head?
  let condition ← Below.expression check
  return .asserts condition message

def synchronizedBlock (n : Node) : Plan StatementKind := do
  let lock ← source.require n "lock" (n.ofKind? .parenthesizedExpression)
  let body ← source.field n .body
  let value ← Below.expression lock
  let lowered ← block source body
  return .synchronized value lowered

def constructorCall (n : Node) : Plan ConstructorCall := do
  let target ← source.fieldText n .constructor
  let qualifier ← optional Below.expression (n.get? .object)
  let arguments ← arguments n
  return ⟨target, qualifier, arguments⟩

def jumpLabel (n : Node) : Option String :=
  (n.ofKind? .identifier).map source.text

def otherStatement (n : Node) : Plan StatementKind :=
  match typeKind? n with
  | some kind => (Below.type n kind).map .localClass
  | none => .done (.other n.kind.text)

def statementKind (n : Node) : Plan StatementKind :=
  match n.kind with
  | .token text => .done (if text == ";" then .empty else .other text)
  | .rule r =>
    match r with
    | .expressionStatement =>
      (optional Below.expression n.parts.head?).map fun value =>
        value.elim .empty .expression
    | .localVariableDeclaration => (declarationExpression source n).map .expression
    | .ifStatement => do
      let condition ← fieldExpression source n .condition
      let yes ← fieldStatement source n .consequence
      let no ← optional Below.statement (n.get? .alternative)
      return .branch condition yes no
    | .whileStatement => do
      let condition ← fieldExpression source n .condition
      let body ← fieldStatement source n .body
      return .whileLoop condition body
    | .doStatement => do
      let body ← fieldStatement source n .body
      let condition ← fieldExpression source n .condition
      return .doLoop body condition
    | .forStatement => forLoop source n
    | .enhancedForStatement => forEach source n
    | .block => (block source n).map .block
    | .returnStatement => (optional Below.expression n.parts.head?).map .returns
    | .switchExpression => (switchBlock source n).map .switch
    | .synchronizedStatement => synchronizedBlock source n
    | .tryStatement | .tryWithResourcesStatement => (attempt source n).map .attempt
    | .throwStatement => (firstExpression source n).map .throws
    | .yieldStatement => (firstExpression source n).map .yields
    | .breakStatement => .done (.breaks (jumpLabel source n))
    | .continueStatement => .done (.continues (jumpLabel source n))
    | .labeledStatement => labeled source n
    | .assertStatement => asserts source n
    | .explicitConstructorInvocation => (constructorCall source n).map .constructorCall
    | _ => otherStatement n

end JavaOutline.Lower
