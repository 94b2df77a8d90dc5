import JavaOutline.Lower.Source

/-!
Outlines of declarations: variables, methods, members and types. They follow `variable_declaration`,
`method`, `class_members` and `type_declaration`.
-/
namespace JavaOutline.Lower

open JavaOutline.Tree

def optional {α : Type} (lower : Node → Plan α) : Option Node → Plan (Option α)
  | some n => (lower n).map some
  | none => .done none

def typeKind? (n : Node) : Option TypeKind :=
  match n.kind with
  | .rule .classDeclaration => some .classType
  | .rule .interfaceDeclaration => some .interfaceType
  | .rule .enumDeclaration => some .enumType
  | .rule .recordDeclaration => some .recordType
  | .rule .annotationTypeDeclaration => some .annotationType
  | _ => none

variable (source : Source)

def block (n : Node) : Plan Block := do
  let statements ← n.parts.mapM Below.statement
  return ⟨statements, source.span n⟩

def arguments (n : Node) : Plan (List Expression) :=
  match n.get? .arguments with
  | some list => list.parts.mapM Below.expression
  | none => .done []

def declarator (base : String) (n : Node) : Plan Declarator := do
  let name ← source.fieldText n .name
  let initializer ← optional Below.expression (n.get? .value)
  return ⟨name, source.withDimensions base n, initializer, source.span n⟩

/-- Variables declared together. The span ends with the last of them. -/
def variableDeclaration (n : Node) : Plan VariableDeclaration := do
  let base ← (source.field n .type).map source.compact
  let declarators := n.all .declarator
  let declared ← declarators.mapM (declarator source base)
  let stop := (declarators.getLast?.map Node.stop).getD n.stop
  return ⟨source.modifiers n, declared, Span.ofRange source.chars n.start stop⟩

def declarationExpression (n : Node) : Plan Expression := do
  let declaration ← variableDeclaration source n
  return ⟨.declaration declaration, declaration.span⟩

def method (n : Node) : Plan MethodDeclaration := do
  let name ← source.fieldText n .name
  let returnType ←
    if n.is .methodDeclaration || n.is .annotationTypeElementDeclaration then
      (source.field n .type).map fun type =>
        some (source.withDimensions (source.compact type) n)
    else .done none
  let body ← optional (block source) (n.get? .body)
  return {
    name
    modifiers := source.modifiers n
    typeParameters := ((n.get? .typeParameters).elim [] Node.parts).map source.compact
    returnType
    parameters := (n.get? .parameters).elim [] source.parameters
    throws := ((n.ofKind? .throws).elim [] Node.parts).map source.compact
    body
    span := source.span n }

/-- A member other than a constant; nothing for nodes that are no members. -/
def plainMember (n : Node) : Plan (Option Member) :=
  match n.kind with
  | .rule .methodDeclaration | .rule .annotationTypeElementDeclaration =>
    (method source n).map fun m => some (.method m)
  | .rule .constructorDeclaration | .rule .compactConstructorDeclaration =>
    (method source n).map fun m => some (.constructor m)
  | .rule .fieldDeclaration | .rule .constantDeclaration =>
    (variableDeclaration source n).map fun f => some (.field f)
  | .rule .staticInitializer =>
    (optional (block source) (n.ofKind? .block)).map (·.map .initializer)
  | .rule .block => (block source n).map fun b => some (.initializer b)
  | _ =>
    match typeKind? n with
    | some kind => (Below.type n kind).map fun t => some (.type t)
    | none => .done none

mutual

/-- The members among the children of a body. Declarations behind the constants of an enumeration
count as its own. -/
def members : List Node → Plan (List Member)
  | [] => .done []
  | .mk kind label start stop children :: rest => do
    let own ←
      if kind == .rule .enumBodyDeclarations then members children
      else if kind == .rule .enumConstant then do
        let n := Node.mk kind label start stop children
        let name ← source.fieldText n .name
        let arguments ← arguments n
        let body ← constantBody children
        pure [.constant ⟨name, arguments, body, source.span n⟩]
      else (plainMember source (.mk kind label start stop children)).map Option.toList
    let others ← members rest
    return own ++ others

def constantBody : List Node → Plan (Option ClassBody)
  | [] => .done none
  | .mk _ label _ _ children :: rest =>
    if label == some .body then (members children).map fun ms => some (ClassBody.ofMembers ms)
    else constantBody rest

end

def classBody (n : Node) : Plan ClassBody :=
  (members source n.children).map ClassBody.ofMembers

def typeDeclaration (n : Node) (kind : TypeKind) : Plan TypeDeclaration := do
  let name ← source.fieldText n .name
  let body ← optional (classBody source) (n.get? .body)
  return ⟨name, kind, source.modifiers n, body.getD ClassBody.empty, source.span n⟩

end JavaOutline.Lower
