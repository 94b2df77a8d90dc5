import JavaOutline.Outline.Modifier
import JavaOutline.Span

/-!
The outline of a source: its package, imports and types, and below them members, statements and
expressions. Texts that play no further part, such as types, are kept as text on one line.
-/
namespace JavaOutline

inductive TypeKind where
  | classType | interfaceType | enumType | recordType | annotationType
deriving DecidableEq, Repr, Inhabited

def TypeKind.text : TypeKind → String
  | .classType => "class"
  | .interfaceType => "interface"
  | .enumType => "enum"
  | .recordType => "record"
  | .annotationType => "@interface"

structure Parameter where
  name : String
  type : String
  modifiers : Modifiers
  variadic : Bool
  span : Span
deriving DecidableEq, Repr, Inhabited

/-- The place of a member among the members of its sort. -/
inductive Slot where
  | constant (index : Nat)
  | field (index : Nat)
  | initializer (index : Nat)
  | constructor (index : Nat)
  | method (index : Nat)
  | type (index : Nat)
deriving DecidableEq, Repr, Inhabited

mutual

structure Expression where
  kind : ExpressionKind
  span : Span

inductive ExpressionKind where
  | declaration (declaration : VariableDeclaration)
  | call (call : MethodCall)
  | assign (assignment : Assignment)
  | binary (left : Expression) (operator : String) (right : Expression)
  | unary (operator : String) (operand : Expression) (behind : Bool)
  | name (text : String)
  | literal (text : String)
  | fieldAccess (scope : Expression) (field : String)
  | arrayAccess (array index : Expression)
  | creation (creation : ObjectCreation)
  | arrayCreation (type : String) (dimensions : List Expression) (initializer : Option Expression)
  | arrayInitializer (elements : List Expression)
  | cast (type : String) (value : Expression)
  | conditional (condition yes no : Expression)
  | instanceOf (value : Expression) (type : String) (binding : Option String)
  | lambda (parameters : List String) (body : LambdaBody)
  | methodReference (scope : Expression) (name : String)
  | switch (block : SwitchBlock)
  | enclosed (inner : Expression)
  | thisObject
  | superObject
  | classLiteral (type : String)
  | other (kind : String) (children : List Expression)

/-- Variables declared together, with the span up to the last of them. -/
structure VariableDeclaration where
  modifiers : Modifiers
  declared : List Declarator
  span : Span

structure Declarator where
  name : String
  type : String
  initializer : Option Expression
  span : Span

structure MethodCall where
  scope : Option Expression
  typeArguments : List String
  name : String
  arguments : List Expression
  span : Span

structure Assignment where
  target : Expression
  operator : String
  value : Expression
  span : Span

structure ObjectCreation where
  scope : Option Expression
  type : String
  arguments : List Expression
  body : Option ClassBody

inductive LambdaBody where
  | expression (value : Expression)
  | block (body : Block)

structure SwitchBlock where
  selector : Expression
  entries : List SwitchEntry

/-- Labels with the statements they lead to; an arrow stands between them or a colon. -/
structure SwitchEntry where
  labels : List SwitchLabel
  statements : List Statement
  arrow : Bool
  span : Span

inductive SwitchLabel where
  | values (values : List Expression)
  | default

structure Block where
  statements : List Statement
  span : Span

structure Statement where
  kind : StatementKind
  span : Span

inductive StatementKind where
  | expression (value : Expression)
  | branch (condition : Expression) (yes : Statement) (no : Option Statement)
  | forEach (element : Parameter) (iterable : Expression) (body : Statement)
  | forLoop (init : List Expression) (condition : Option Expression) (update : List Expression)
      (body : Statement)
  | block (block : Block)
  | doLoop (body : Statement) (condition : Expression)
  | whileLoop (condition : Expression) (body : Statement)
  | returns (value : Option Expression)
  | switch (block : SwitchBlock)
  | synchronized (lock : Expression) (body : Block)
  | attempt (attempt : Attempt)
  | throws (value : Expression)
  | breaks (label : Option String)
  | continues (label : Option String)
  | labeled (label : String) (body : Statement)
  | asserts (check : Expression) (message : Option Expression)
  | yields (value : Expression)
  | localClass (type : TypeDeclaration)
  | constructorCall (call : ConstructorCall)
  | empty
  | other (kind : String)

structure Attempt where
  resources : List Expression
  block : Block
  handlers : List Handler
  finish : Option Block

structure Handler where
  parameter : Parameter
  body : Block
  span : Span

structure ConstructorCall where
  target : String
  qualifier : Option Expression
  arguments : List Expression

structure ClassBody where
  constants : List EnumConstant
  fields : List VariableDeclaration
  initializers : List Block
  constructors : List MethodDeclaration
  methods : List MethodDeclaration
  types : List TypeDeclaration
  order : List Slot

structure EnumConstant where
  name : String
  arguments : List Expression
  body : Option ClassBody
  span : Span

/-- A method, or a constructor, which has no return type. -/
structure MethodDeclaration where
  name : String
  modifiers : Modifiers
  typeParameters : List String
  returnType : Option String
  parameters : List Parameter
  throws : List String
  body : Option Block
  span : Span

structure TypeDeclaration where
  name : String
  kind : TypeKind
  modifiers : Modifiers
  body : ClassBody
  span : Span

end

structure PackageDeclaration where
  name : String
  span : Span
deriving DecidableEq, Repr, Inhabited

structure ImportDeclaration where
  path : String
  isStatic : Bool
  isWildcard : Bool
  span : Span
deriving DecidableEq, Repr, Inhabited

structure CompilationUnit where
  chars : List Char
  package : Option PackageDeclaration
  imports : List ImportDeclaration
  types : List TypeDeclaration
  span : Span

def ExpressionKind.text : ExpressionKind → String
  | .declaration _ => "variable_declaration"
  | .call _ => "method_call"
  | .assign _ => "assign"
  | .binary .. => "binary"
  | .unary .. => "unary"
  | .name _ => "name"
  | .literal _ => "literal"
  | .fieldAccess .. => "field_access"
  | .arrayAccess .. => "array_access"
  | .creation _ => "object_creation"
  | .arrayCreation .. => "array_creation"
  | .arrayInitializer _ => "array_initializer"
  | .cast .. => "cast"
  | .conditional .. => "conditional"
  | .instanceOf .. => "instanceof"
  | .lambda .. => "lambda"
  | .methodReference .. => "method_reference"
  | .switch _ => "switch"
  | .enclosed _ => "enclosed"
  | .thisObject => "this"
  | .superObject => "super"
  | .classLiteral _ => "class_literal"
  | .other kind _ => kind

def StatementKind.text : StatementKind → String
  | .expression _ => "expression"
  | .branch .. => "if"
  | .forEach .. => "foreach"
  | .forLoop .. => "for"
  | .block _ => "block"
  | .doLoop .. => "do"
  | .whileLoop .. => "while"
  | .returns _ => "return"
  | .switch _ => "switch"
  | .synchronized .. => "synchronized"
  | .attempt _ => "try"
  | .throws _ => "throw"
  | .breaks _ => "break"
  | .continues _ => "continue"
  | .labeled .. => "labeled"
  | .asserts .. => "assert"
  | .yields _ => "yield"
  | .localClass _ => "local_class"
  | .constructorCall _ => "constructor_call"
  | .empty => "empty"
  | .other _ => "other"

def MethodDeclaration.isConstructor (m : MethodDeclaration) : Bool :=
  m.returnType.isNone

/-- The type of a parameter in a signature; dots mark one that stands for the rest. -/
def Parameter.signature (p : Parameter) : String :=
  if p.variadic then p.type ++ "..." else p.type

def MethodDeclaration.signature (m : MethodDeclaration) : String :=
  m.name ++ "(" ++ ", ".intercalate (m.parameters.map Parameter.signature) ++ ")"

def TypeDeclaration.isPublic (t : TypeDeclaration) : Bool :=
  t.modifiers.keywords.contains .publicAccess

/-- The first public class or interface of a source. -/
def CompilationUnit.publicClass? (unit : CompilationUnit) : Option TypeDeclaration :=
  unit.types.find? fun t => (t.kind == .classType || t.kind == .interfaceType) && t.isPublic

def CompilationUnit.snippet (unit : CompilationUnit) (span : Span) : String :=
  span.snippet unit.chars

end JavaOutline
