import JavaOutline.Proofs.Walk.Listings
import JavaOutline.Walk.Forest

/-!
The parts of an outline, one step down from each node and in the order of the source. Every field
of a node that holds further nodes is among its parts: headers, labels, initial values, bodies and
members. The trees that walks go over agree with the parts, so that what stands in an outline can
be said by places, without a walk.
-/
namespace JavaOutline

open Walk

def Declarator.parts (declarator : Declarator) : List Visit :=
  declarator.initializer.toList.map .expression

def ObjectCreation.parts (creation : ObjectCreation) : List Visit :=
  creation.scope.toList.map .expression ++ creation.arguments.map .expression ++
    creation.body.toList.map .classBody

def LambdaBody.part : LambdaBody → Visit
  | .expression value => .expression value
  | .block body => .block body

def ExpressionKind.parts : ExpressionKind → List Visit
  | .declaration declared => [.declaration declared]
  | .call called => [.call called]
  | .assign assigned => [.assign assigned]
  | .binary left _ right => [.expression left, .expression right]
  | .unary _ operand _ => [.expression operand]
  | .fieldAccess scope _ => [.expression scope]
  | .arrayAccess array index => [.expression array, .expression index]
  | .creation created => created.parts
  | .arrayCreation _ dimensions initializer =>
    dimensions.map .expression ++ initializer.toList.map .expression
  | .arrayInitializer elements => elements.map .expression
  | .cast _ value => [.expression value]
  | .conditional condition yes no => [.expression condition, .expression yes, .expression no]
  | .instanceOf value _ _ => [.expression value]
  | .lambda _ body => [body.part]
  | .methodReference scope _ => [.expression scope]
  | .switch choice => [.switch choice]
  | .enclosed inner => [.expression inner]
  | .other _ children => children.map .expression
  | .name _ | .literal _ | .thisObject | .superObject | .classLiteral _ => []

def SwitchLabel.parts : SwitchLabel → List Visit
  | .values listed => listed.map .expression
  | .default => []

def SwitchEntry.parts (entry : SwitchEntry) : List Visit :=
  entry.labels.flatMap SwitchLabel.parts ++ entry.statements.map .statement

def Attempt.parts (attempt : Attempt) : List Visit :=
  attempt.resources.map .expression ++ .block attempt.block ::
    attempt.handlers.map (fun handler => .block handler.body) ++ attempt.finish.toList.map .block

def ConstructorCall.parts (call : ConstructorCall) : List Visit :=
  call.qualifier.toList.map .expression ++ call.arguments.map .expression

def StatementKind.parts : StatementKind → List Visit
  | .expression value | .throws value | .yields value => [.expression value]
  | .branch condition yes no =>
    .expression condition :: .statement yes :: no.toList.map .statement
  | .forEach _ iterable body => [.expression iterable, .statement body]
  | .forLoop init condition update body =>
    init.map .expression ++ condition.toList.map .expression ++ update.map .expression ++
      [.statement body]
  | .block body => [.block body]
  | .doLoop body condition => [.statement body, .expression condition]
  | .whileLoop condition body => [.expression condition, .statement body]
  | .returns value => value.toList.map .expression
  | .switch choice => [.switch choice]
  | .synchronized lock body => [.expression lock, .block body]
  | .attempt tried => tried.parts
  | .labeled _ body => [.statement body]
  | .asserts check message => .expression check :: message.toList.map .expression
  | .localClass type => [.type type]
  | .constructorCall called => called.parts
  | .breaks _ | .continues _ | .empty | .other _ => []

def Member.parts : Member → List Visit
  | .constant c => c.arguments.map .expression ++ c.body.toList.map .classBody
  | .field f => [.declaration f]
  | .initializer b => [.block b]
  | .constructor m | .method m => [.method m]
  | .type t => [.type t]

namespace Walk.Visit

/-- What stands one step below a node. -/
def parts : Visit → List Visit
  | .unit u => u.types.map .type
  | .type t => [.classBody t.body]
  | .classBody b => b.members.flatMap Member.parts
  | .method m => m.body.toList.map .block
  | .block b => b.statements.map .statement
  | .statement s => s.kind.parts
  | .switch b => .expression b.selector :: b.entries.flatMap SwitchEntry.parts
  | .expression e => e.kind.parts
  | .call c => c.scope.toList.map .expression ++ c.arguments.map .expression
  | .assign a => [.expression a.target, .expression a.value]
  | .declaration d => d.declared.flatMap Declarator.parts

abbrev at? (whole : Visit) (place : Place) : Option Visit :=
  partAt? parts whole place

def tree : Visit → Rose Visit
  | .unit u => u.tree
  | .type t => t.tree
  | .classBody b => b.tree
  | .method m => m.tree
  | .block b => b.tree
  | .statement s => s.tree
  | .switch b => b.tree
  | .expression e => e.tree
  | .call c => c.tree
  | .assign a => a.tree
  | .declaration d => d.tree

end Walk.Visit

theorem expression_forest_map (values : List Expression) :
    expressionForest values = (values.map Visit.expression).map Visit.tree := by
  induction values with
  | nil => rfl
  | cons first rest ih => simp [expressionForest, ih, Visit.tree]

theorem expression_forest?_map (value : Option Expression) :
    expressionForest? value = (value.toList.map Visit.expression).map Visit.tree := by
  cases value <;> simp [expressionForest?, Visit.tree]

theorem declarator_forest_map (declared : List Declarator) :
    declaratorForest declared = (declared.flatMap Declarator.parts).map Visit.tree := by
  induction declared with
  | nil => rfl
  | cons first rest ih =>
      cases first
      simp [declaratorForest, Declarator.forest, Declarator.parts, expression_forest?_map, ih]

theorem statement_forest_map (statements : List Statement) :
    statementForest statements = (statements.map Visit.statement).map Visit.tree := by
  induction statements with
  | nil => rfl
  | cons first rest ih => simp [statementForest, ih, Visit.tree]

theorem statement_forest?_map (statement : Option Statement) :
    statementForest? statement = (statement.toList.map Visit.statement).map Visit.tree := by
  cases statement <;> simp [statementForest?, Visit.tree]

theorem label_forest_map (labels : List SwitchLabel) :
    labelForest labels = (labels.flatMap SwitchLabel.parts).map Visit.tree := by
  induction labels with
  | nil => rfl
  | cons first rest ih =>
      cases first <;>
        simp [labelForest, SwitchLabel.forest, SwitchLabel.parts, expression_forest_map, ih]

theorem entry_forest_map (entries : List SwitchEntry) :
    entryForest entries = (entries.flatMap SwitchEntry.parts).map Visit.tree := by
  induction entries with
  | nil => rfl
  | cons first rest ih =>
      cases first
      simp [entryForest, SwitchEntry.forest, SwitchEntry.parts, label_forest_map,
        statement_forest_map, ih]

theorem handler_forest_map (handlers : List Handler) :
    handlerForest handlers =
      (handlers.map fun handler => Visit.block handler.body).map Visit.tree := by
  induction handlers with
  | nil => rfl
  | cons first rest ih =>
      cases first
      simp [handlerForest, Handler.tree, ih, Visit.tree]

theorem block_forest?_map (block : Option Block) :
    blockForest? block = (block.toList.map Visit.block).map Visit.tree := by
  cases block <;> simp [blockForest?, Visit.tree]

theorem body_forest?_map (body : Option ClassBody) :
    bodyForest? body = (body.toList.map Visit.classBody).map Visit.tree := by
  cases body <;> simp [bodyForest?, Visit.tree]

def Member.forest (member : Member) : List (Rose Visit) :=
  member.parts.map Visit.tree

theorem constant_forests_map (constants : List EnumConstant) :
    constantForests constants = (constants.map Member.constant).map Member.forest := by
  induction constants with
  | nil => rfl
  | cons first rest ih =>
      cases first
      simp [constantForests, EnumConstant.forest, Member.forest, Member.parts,
        expression_forest_map, body_forest?_map, ih]

theorem field_forests_map (fields : List VariableDeclaration) :
    fieldForests fields = (fields.map Member.field).map Member.forest := by
  induction fields with
  | nil => rfl
  | cons first rest ih => simp [fieldForests, Member.forest, Member.parts, Visit.tree, ih]

theorem block_forests_map (blocks : List Block) :
    blockForests blocks = (blocks.map Member.initializer).map Member.forest := by
  induction blocks with
  | nil => rfl
  | cons first rest ih => simp [blockForests, Member.forest, Member.parts, Visit.tree, ih]

theorem method_forests_map (member : MethodDeclaration → Member)
    (own : ∀ method, (member method).parts = [.method method]) (methods : List MethodDeclaration) :
    methodForests methods = (methods.map member).map Member.forest := by
  induction methods with
  | nil => rfl
  | cons first rest ih => simp [methodForests, Member.forest, own, Visit.tree, ih]

theorem type_forests_map (types : List TypeDeclaration) :
    typeForests types = (types.map Member.type).map Member.forest := by
  induction types with
  | nil => rfl
  | cons first rest ih => simp [typeForests, Member.forest, Member.parts, Visit.tree, ih]

theorem replay_map {α β : Type} (f : α → β)
    (constants fields initializers constructors methods types : List α) (order : List Slot) :
    order.filterMap (Slot.pick? (constants.map f) (fields.map f) (initializers.map f)
      (constructors.map f) (methods.map f) (types.map f)) =
      (order.filterMap
        (Slot.pick? constants fields initializers constructors methods types)).map f := by
  rw [List.map_filterMap]
  congr
  funext slot
  cases slot <;> simp [Slot.pick?]

theorem ClassBody.tree_members (body : ClassBody) :
    body.tree = .node (.classBody body) ((body.members.flatMap Member.parts).map Visit.tree) := by
  obtain ⟨constants, fields, initializers, constructors, methods, types, order⟩ := body
  -- The tree replays the slots over forests, the parts replay them over members.
  rw [ClassBody.tree, constant_forests_map, field_forests_map, block_forests_map,
    method_forests_map Member.constructor (fun _ => rfl),
    method_forests_map Member.method (fun _ => rfl), type_forests_map]
  simp only [replay_map, ClassBody.members, List.map_flatMap]
  rfl

theorem Expression.tree_parts (expression : Expression) :
    expression.tree = .node (.expression expression) (expression.kind.parts.map Visit.tree) := by
  obtain ⟨kind, span⟩ := expression
  rw [Expression.tree]
  cases kind with
  | creation created =>
      cases created
      simp [ExpressionKind.forest, ExpressionKind.parts, ObjectCreation.forest,
        ObjectCreation.parts, expression_forest_map, expression_forest?_map, body_forest?_map]
  | lambda parameters body =>
      cases body <;>
        simp [ExpressionKind.forest, ExpressionKind.parts, LambdaBody.tree, LambdaBody.part,
          Visit.tree]
  | _ =>
      simp [ExpressionKind.forest, ExpressionKind.parts, Visit.tree, expression_forest_map,
        expression_forest?_map]

theorem Statement.tree_parts (statement : Statement) :
    statement.tree = .node (.statement statement) (statement.kind.parts.map Visit.tree) := by
  obtain ⟨kind, span⟩ := statement
  rw [Statement.tree]
  cases kind with
  | attempt tried =>
      cases tried
      simp [StatementKind.forest, StatementKind.parts, Attempt.forest, Attempt.parts, Visit.tree,
        expression_forest_map, handler_forest_map, block_forest?_map]
  | constructorCall called =>
      cases called
      simp [StatementKind.forest, StatementKind.parts, ConstructorCall.forest,
        ConstructorCall.parts, expression_forest_map, expression_forest?_map]
  | _ =>
      simp [StatementKind.forest, StatementKind.parts, Visit.tree, expression_forest_map,
        expression_forest?_map, statement_forest?_map]

theorem Walk.Visit.tree_unfolds : Unfolds Visit.parts Visit.tree := by
  intro whole
  cases whole with
  | unit u => simp [Visit.tree, Visit.parts, CompilationUnit.tree]
  | type t =>
      cases t
      simp [Visit.tree, Visit.parts, TypeDeclaration.tree]
  | classBody b => exact b.tree_members
  | method m =>
      cases m
      simp [Visit.tree, Visit.parts, MethodDeclaration.tree, block_forest?_map]
  | block b =>
      cases b
      simp [Visit.tree, Visit.parts, Block.tree, statement_forest_map]
  | statement s => exact s.tree_parts
  | switch b =>
      cases b
      simp [Visit.tree, Visit.parts, SwitchBlock.tree, entry_forest_map]
  | expression e => exact e.tree_parts
  | call c =>
      cases c
      simp [Visit.tree, Visit.parts, MethodCall.tree, expression_forest_map,
        expression_forest?_map]
  | assign a =>
      cases a
      simp [Visit.tree, Visit.parts, Assignment.tree]
  | declaration d =>
      cases d
      simp [Visit.tree, Visit.parts, VariableDeclaration.tree, declarator_forest_map]

end JavaOutline
