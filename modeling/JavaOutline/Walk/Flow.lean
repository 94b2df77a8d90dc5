import JavaOutline.Walk.Collect

/-!
The flow of a body: the statements that control can reach from its start through the bodies of
blocks, branches, loops, switches and handlers. Conditions and other headers do not belong to it.
Flattening a body lists the values of its expression and return statements. This is
`StatementFlattener`, with `declarators` for the variables.
-/
namespace JavaOutline

open Walk

mutual

/-- A statement above the statements that it may run. -/
def Statement.flow : Statement → Rose Statement
  | ⟨kind, span⟩ => .node ⟨kind, span⟩ kind.flow

def StatementKind.flow : StatementKind → List (Rose Statement)
  | .branch _ yes no => yes.flow :: statementFlow? no
  | .forEach _ _ body => [body.flow]
  | .forLoop _ _ _ body => [body.flow]
  | .block block => block.flow
  | .doLoop body _ => [body.flow]
  | .whileLoop _ body => [body.flow]
  | .switch block => block.flow
  | .synchronized _ body => body.flow
  | .attempt attempt => attempt.flow
  | _ => []

def Block.flow : Block → List (Rose Statement)
  | ⟨statements, _⟩ => statementFlow statements

def SwitchBlock.flow : SwitchBlock → List (Rose Statement)
  | ⟨_, entries⟩ => entryFlow entries

def SwitchEntry.flow : SwitchEntry → List (Rose Statement)
  | ⟨_, statements, _, _⟩ => statementFlow statements

def Attempt.flow : Attempt → List (Rose Statement)
  | ⟨_, block, handlers, finish⟩ => block.flow ++ handlerFlow handlers ++ blockFlow? finish

def Handler.flow : Handler → List (Rose Statement)
  | ⟨_, body, _⟩ => body.flow

def statementFlow : List Statement → List (Rose Statement)
  | [] => []
  | first :: rest => first.flow :: statementFlow rest

def statementFlow? : Option Statement → List (Rose Statement)
  | none => []
  | some statement => [statement.flow]

def entryFlow : List SwitchEntry → List (Rose Statement)
  | [] => []
  | first :: rest => first.flow ++ entryFlow rest

def handlerFlow : List Handler → List (Rose Statement)
  | [] => []
  | first :: rest => first.flow ++ handlerFlow rest

def blockFlow? : Option Block → List (Rose Statement)
  | none => []
  | some block => block.flow

end

/-- The value of an expression statement or of a return. -/
def Statement.value? (statement : Statement) : Option Expression :=
  match statement.kind with
  | .expression value => some value
  | .returns value => value
  | _ => none

/-- The variables declared by the declarations among some expressions. -/
def declarators (expressions : List Expression) : List Declarator :=
  expressions.flatMap fun expression =>
    match expression.kind with
    | .declaration declaration => declaration.declared
    | _ => []

namespace Walk

/-- Every statement of a flow opens a level, and none is pruned. -/
def flowManner : Manner Statement where
  opens := fun _ => true

def flatten (limit : Nat) (flow : List (Rose Statement)) : Except Error (List Expression) :=
  (Rose.walkAll flowManner ⟨limit, 0⟩ flow).within limit fun trail =>
    (trail.entered.map Prod.fst).filterMap Statement.value?

end Walk

def MethodDeclaration.flatten (limit : Nat) (method : MethodDeclaration) :
    Except Error (List Expression) :=
  Walk.flatten limit (method.body.elim [] Block.flow)

end JavaOutline
