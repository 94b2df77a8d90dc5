import JavaOutline.Outline.Members
import JavaOutline.Walk.Rose
import JavaOutline.Walk.Visit

/-!
The outline as a tree of visits. Every part of an outline stands below the part it belongs to, in
the order of the source; the members of a body come in the order in which they were declared. Parts
that are no visits of their own, such as handlers or switch entries, hand theirs up. The order is
that of `walk_unit` and of the walks it calls.
-/
namespace JavaOutline

open Walk

mutual

def Expression.tree : Expression → Rose Visit
  | ⟨kind, span⟩ => .node (.expression ⟨kind, span⟩) kind.forest

def ExpressionKind.forest : ExpressionKind → List (Rose Visit)
  | .declaration declaration => [declaration.tree]
  | .call call => [call.tree]
  | .assign assignment => [assignment.tree]
  | .binary left _ right => [left.tree, right.tree]
  | .unary _ operand _ => [operand.tree]
  | .name _ => []
  | .literal _ => []
  | .fieldAccess scope _ => [scope.tree]
  | .arrayAccess array index => [array.tree, index.tree]
  | .creation creation => creation.forest
  | .arrayCreation _ dimensions initializer =>
    expressionForest dimensions ++ expressionForest? initializer
  | .arrayInitializer elements => expressionForest elements
  | .cast _ value => [value.tree]
  | .conditional condition yes no => [condition.tree, yes.tree, no.tree]
  | .instanceOf value _ _ => [value.tree]
  | .lambda _ body => [body.tree]
  | .methodReference scope _ => [scope.tree]
  | .switch block => [block.tree]
  | .enclosed inner => [inner.tree]
  | .thisObject => []
  | .superObject => []
  | .classLiteral _ => []
  | .other _ children => expressionForest children

def VariableDeclaration.tree : VariableDeclaration → Rose Visit
  | ⟨modifiers, declared, span⟩ =>
    .node (.declaration ⟨modifiers, declared, span⟩) (declaratorForest declared)

/-- The initial value of a variable is what a walk finds in it. -/
def Declarator.forest : Declarator → List (Rose Visit)
  | ⟨_, _, initializer, _⟩ => expressionForest? initializer

def MethodCall.tree : MethodCall → Rose Visit
  | ⟨scope, typeArguments, name, arguments, span⟩ =>
    .node (.call ⟨scope, typeArguments, name, arguments, span⟩)
      (expressionForest? scope ++ expressionForest arguments)

def Assignment.tree : Assignment → Rose Visit
  | ⟨target, operator, value, span⟩ =>
    .node (.assign ⟨target, operator, value, span⟩) [target.tree, value.tree]

def ObjectCreation.forest : ObjectCreation → List (Rose Visit)
  | ⟨scope, _, arguments, body⟩ =>
    expressionForest? scope ++ expressionForest arguments ++ bodyForest? body

def LambdaBody.tree : LambdaBody → Rose Visit
  | .expression value => value.tree
  | .block body => body.tree

def SwitchBlock.tree : SwitchBlock → Rose Visit
  | ⟨selector, entries⟩ =>
    .node (.switch ⟨selector, entries⟩) (selector.tree :: entryForest entries)

/-- The values of the labels stand before the statements. -/
def SwitchEntry.forest : SwitchEntry → List (Rose Visit)
  | ⟨labels, statements, _, _⟩ => labelForest labels ++ statementForest statements

def SwitchLabel.forest : SwitchLabel → List (Rose Visit)
  | .values values => expressionForest values
  | .default => []

def Block.tree : Block → Rose Visit
  | ⟨statements, span⟩ => .node (.block ⟨statements, span⟩) (statementForest statements)

def Statement.tree : Statement → Rose Visit
  | ⟨kind, span⟩ => .node (.statement ⟨kind, span⟩) kind.forest

def StatementKind.forest : StatementKind → List (Rose Visit)
  | .expression value => [value.tree]
  | .branch condition yes no => condition.tree :: yes.tree :: statementForest? no
  | .forEach _ iterable body => [iterable.tree, body.tree]
  | .forLoop init condition update body =>
    expressionForest init ++ expressionForest? condition ++ expressionForest update ++ [body.tree]
  | .block block => [block.tree]
  | .doLoop body condition => [body.tree, condition.tree]
  | .whileLoop condition body => [condition.tree, body.tree]
  | .returns value => expressionForest? value
  | .switch block => [block.tree]
  | .synchronized lock body => [lock.tree, body.tree]
  | .attempt attempt => attempt.forest
  | .throws value => [value.tree]
  | .breaks _ => []
  | .continues _ => []
  | .labeled _ body => [body.tree]
  | .asserts check message => check.tree :: expressionForest? message
  | .yields value => [value.tree]
  | .localClass type => [type.tree]
  | .constructorCall call => call.forest
  | .empty => []
  | .other _ => []

def Attempt.forest : Attempt → List (Rose Visit)
  | ⟨resources, block, handlers, finish⟩ =>
    expressionForest resources ++ block.tree :: handlerForest handlers ++ blockForest? finish

def Handler.tree : Handler → Rose Visit
  | ⟨_, body, _⟩ => body.tree

def ConstructorCall.forest : ConstructorCall → List (Rose Visit)
  | ⟨_, qualifier, arguments⟩ => expressionForest? qualifier ++ expressionForest arguments

/-- The members of a body in the order of their slots. -/
def ClassBody.tree : ClassBody → Rose Visit
  | ⟨constants, fields, initializers, constructors, methods, types, order⟩ =>
    let members := order.filterMap
      (Slot.pick? (constantForests constants) (fieldForests fields) (blockForests initializers)
        (methodForests constructors) (methodForests methods) (typeForests types))
    .node (.classBody ⟨constants, fields, initializers, constructors, methods, types, order⟩)
      members.flatten

def EnumConstant.forest : EnumConstant → List (Rose Visit)
  | ⟨_, arguments, body, _⟩ => expressionForest arguments ++ bodyForest? body

def MethodDeclaration.tree : MethodDeclaration → Rose Visit
  | ⟨name, modifiers, typeParameters, returnType, parameters, throws, body, span⟩ =>
    .node
      (.method ⟨name, modifiers, typeParameters, returnType, parameters, throws, body, span⟩)
      (blockForest? body)

def TypeDeclaration.tree : TypeDeclaration → Rose Visit
  | ⟨name, kind, modifiers, body, span⟩ =>
    .node (.type ⟨name, kind, modifiers, body, span⟩) [body.tree]

def expressionForest : List Expression → List (Rose Visit)
  | [] => []
  | first :: rest => first.tree :: expressionForest rest

def expressionForest? : Option Expression → List (Rose Visit)
  | none => []
  | some value => [value.tree]

def declaratorForest : List Declarator → List (Rose Visit)
  | [] => []
  | first :: rest => first.forest ++ declaratorForest rest

def statementForest : List Statement → List (Rose Visit)
  | [] => []
  | first :: rest => first.tree :: statementForest rest

def statementForest? : Option Statement → List (Rose Visit)
  | none => []
  | some statement => [statement.tree]

def entryForest : List SwitchEntry → List (Rose Visit)
  | [] => []
  | first :: rest => first.forest ++ entryForest rest

def labelForest : List SwitchLabel → List (Rose Visit)
  | [] => []
  | first :: rest => first.forest ++ labelForest rest

def handlerForest : List Handler → List (Rose Visit)
  | [] => []
  | first :: rest => first.tree :: handlerForest rest

def blockForest? : Option Block → List (Rose Visit)
  | none => []
  | some block => [block.tree]

def bodyForest? : Option ClassBody → List (Rose Visit)
  | none => []
  | some body => [body.tree]

def constantForests : List EnumConstant → List (List (Rose Visit))
  | [] => []
  | first :: rest => first.forest :: constantForests rest

def fieldForests : List VariableDeclaration → List (List (Rose Visit))
  | [] => []
  | first :: rest => [first.tree] :: fieldForests rest

def blockForests : List Block → List (List (Rose Visit))
  | [] => []
  | first :: rest => [first.tree] :: blockForests rest

def methodForests : List MethodDeclaration → List (List (Rose Visit))
  | [] => []
  | first :: rest => [first.tree] :: methodForests rest

def typeForests : List TypeDeclaration → List (List (Rose Visit))
  | [] => []
  | first :: rest => [first.tree] :: typeForests rest

end

def CompilationUnit.tree (unit : CompilationUnit) : Rose Visit :=
  .node (.unit unit) (unit.types.map TypeDeclaration.tree)

end JavaOutline
