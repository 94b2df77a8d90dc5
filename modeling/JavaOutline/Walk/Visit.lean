import JavaOutline.Outline.Basic

/-!
The nodes of an outline that a walk comes by. There is one for each method of `Visitor`.
-/
namespace JavaOutline.Walk

inductive Visit where
  | unit (unit : CompilationUnit)
  | type (type : TypeDeclaration)
  | classBody (body : ClassBody)
  | method (method : MethodDeclaration)
  | block (block : Block)
  | statement (statement : Statement)
  | switch (block : SwitchBlock)
  | expression (expression : Expression)
  | call (call : MethodCall)
  | assign (assignment : Assignment)
  | declaration (declaration : VariableDeclaration)

inductive VisitKind where
  | unit | type | classBody | method | block | statement | switch | expression | call | assign
  | declaration
deriving DecidableEq, Repr, Inhabited

def VisitKind.text : VisitKind → String
  | .unit => "unit"
  | .type => "type"
  | .classBody => "class_body"
  | .method => "method"
  | .block => "block"
  | .statement => "stmt"
  | .switch => "switch"
  | .expression => "expr"
  | .call => "method_call"
  | .assign => "assign"
  | .declaration => "variable_declaration"

/-- What a trace notes about a node: how many parts it has, or a text. -/
inductive Label where
  | count (number : Nat)
  | text (text : String)
deriving DecidableEq, Repr, Inhabited

namespace Visit

def kind : Visit → VisitKind
  | .unit _ => .unit
  | .type _ => .type
  | .classBody _ => .classBody
  | .method _ => .method
  | .block _ => .block
  | .statement _ => .statement
  | .switch _ => .switch
  | .expression _ => .expression
  | .call _ => .call
  | .assign _ => .assign
  | .declaration _ => .declaration

/-- Statements and expressions open a level; nothing else does. -/
def opensLevel (visit : Visit) : Bool :=
  visit.kind == .statement || visit.kind == .expression

def label : Visit → Label
  | .unit u => .count u.types.length
  | .type t => .text t.name
  | .classBody b => .count b.order.length
  | .method m => .text m.name
  | .block b => .count b.statements.length
  | .statement s => .text s.kind.text
  | .switch b => .count b.entries.length
  | .expression e => .text e.kind.text
  | .call c => .text c.name
  | .assign a => .text a.operator
  | .declaration d => .text (",".intercalate (d.declared.map Declarator.name))

def statement? : Visit → Option Statement
  | .statement s => some s
  | _ => none

def expression? : Visit → Option Expression
  | .expression e => some e
  | _ => none

def call? : Visit → Option MethodCall
  | .call c => some c
  | _ => none

def assignment? : Visit → Option Assignment
  | .assign a => some a
  | _ => none

end Visit

end JavaOutline.Walk
