import JavaOutline.Lower.Unit
import JavaOutline.Proofs.Outline.Members
import JavaOutline.Proofs.Outline.Parts
import JavaOutline.Walk.Flow

/-!
What the nodes of an outline owe to the tree they are lowered from: where their spans come from,
which sorts of members a class body has, and which of its parts a node may declare variables in.
Everything said here is about a node with its parts, whatever stands below these.
-/
namespace JavaOutline

open Walk

/-- The spans that a statement keeps beside its own. -/
def StatementKind.spans : StatementKind → List Span
  | .forEach element _ _ => [element.span]
  | .attempt tried => tried.handlers.flatMap fun handler => [handler.span, handler.parameter.span]
  | _ => []

/-- The spans that are kept with a node of an outline. -/
def Walk.Visit.spans : Visit → List Span
  | .unit u => u.span :: u.package.toList.map PackageDeclaration.span ++
      u.imports.map ImportDeclaration.span
  | .type t => [t.span]
  | .classBody b => b.constants.map EnumConstant.span
  | .method m => m.span :: m.parameters.map Parameter.span
  | .block b => [b.span]
  | .statement s => s.span :: s.kind.spans
  | .switch b => b.entries.map SwitchEntry.span
  | .expression e => [e.span]
  | .call c => [c.span]
  | .assign a => [a.span]
  | .declaration d => d.span :: d.declared.map Declarator.span

def ExpressionKind.types : ExpressionKind → List String
  | .creation created => [created.type]
  | .arrayCreation type _ _ | .cast type _ | .instanceOf _ type _ | .classLiteral type => [type]
  | _ => []

def StatementKind.types : StatementKind → List String
  | .forEach element _ _ => [element.type]
  | .attempt tried => tried.handlers.map fun handler => handler.parameter.type
  | _ => []

def Walk.Visit.types : Visit → List String
  | .method m => m.typeParameters ++ m.returnType.toList ++ m.parameters.map Parameter.type ++
      m.throws
  | .statement s => s.kind.types
  | .expression e => e.kind.types
  | .call c => c.typeArguments
  | .declaration d => d.declared.map Declarator.type
  | .unit _ | .type _ | .classBody _ | .block _ | .switch _ | .assign _ => []

def Walk.Visit.names : Visit → List String
  | .type t => [t.name]
  | .method m => [m.name]
  | .call c => [c.name]
  | .declaration d => d.declared.map Declarator.name
  | .unit _ | .classBody _ | .block _ | .statement _ | .switch _ | .expression _ | .assign _ => []

theorem StatementKind.types_of_spans {kind : StatementKind} (bare : kind.spans = []) :
    kind.types = [] := by
  cases kind with
  | forEach element iterable body => cases bare
  | attempt tried =>
      cases handlers : tried.handlers with
      | nil => simp [types, handlers]
      | cons handler rest => simp [spans, handlers] at bare
  | _ => rfl

def Walk.Visit.isDeclaration : Visit → Bool
  | .expression ⟨.declaration _, _⟩ => true
  | _ => false

/-- How many parts of a statement, from the first on, may declare variables. -/
def StatementKind.declarable : StatementKind → Nat
  | .expression _ => 1
  | .forLoop init _ _ _ => init.length
  | .attempt tried => tried.resources.length
  | _ => 0

def Walk.Visit.declarable : Visit → Nat
  | .statement s => s.kind.declarable
  | _ => 0

/-- The part declares variables and is put together where it stands, or it is taken as it is. -/
def Starts (holds : Visit → Prop) (part : Visit) : Prop :=
  holds part ∨
    ∃ d, part = .expression ⟨.declaration d, d.span⟩ ∧ holds (.declaration d)

structure Walk.Visit.Rests (holds : Visit → Prop) (whole : Visit) : Prop where
  starts : ∀ part ∈ whole.parts.take whole.declarable, Starts holds part
  others : ∀ part ∈ whole.parts.drop whole.declarable, holds part

theorem Walk.Visit.Rests.plain {holds : Visit → Prop} {whole : Visit} (none : whole.declarable = 0)
    (inner : ∀ part ∈ whole.parts, holds part) : whole.Rests holds := by
  rw [← List.drop_zero (l := whole.parts), ← none] at inner
  exact ⟨by simp [none], inner⟩

theorem Walk.Visit.Rests.append {holds : Visit → Prop} {whole : Visit} (front back : List Visit)
    (parts : whole.parts = front ++ back) (size : whole.declarable = front.length)
    (starts : ∀ part ∈ front, Starts holds part) (others : ∀ part ∈ back, holds part) :
    whole.Rests holds := by
  constructor
  · rwa [parts, size, List.take_left]
  · rwa [parts, size, List.drop_left]

theorem Walk.Visit.Rests.each {holds : Visit → Prop} {whole : Visit} (rests : whole.Rests holds) :
    ∀ part ∈ whole.parts, Starts holds part := by
  intro part member
  rw [← List.take_append_drop whole.declarable whole.parts] at member
  rcases List.mem_append.mp member with early | late
  · exact rests.starts part early
  · exact Or.inl (rests.others part late)

namespace Lower

open JavaOutline.Tree

def DeclaresVariables (n : Node) : Prop :=
  n.kind = .rule .localVariableDeclaration ∨ n.kind = .rule .fieldDeclaration ∨
    n.kind = .rule .constantDeclaration

/-- The span of a node of the tree, or of a declaration up to one of its declarators. -/
def Taken (source : Source) (among : Node → Prop) (span : Span) : Prop :=
  ∃ n, among n ∧ (span = source.span n ∨ DeclaresVariables n ∧ ∃ last ∈ n.all .declarator,
    span = Span.ofRange source.chars n.start last.stop)

theorem Taken.whole {source : Source} {among : Node → Prop} {n : Node} (here : among n) :
    Taken source among (source.span n) :=
  ⟨n, here, Or.inl rfl⟩

theorem Taken.ranged {source : Source} {among : Node → Prop} {span : Span}
    (taken : Taken source among span) :
    span = Span.ofRange source.chars span.startByte span.endByte := by
  obtain ⟨n, _, rfl | ⟨_, last, _, rfl⟩⟩ := taken
  · rfl
  · rfl

/-- A text put together from what is shown of nodes: one node alone, with dimensions behind it, or
several that are joined by a symbol. -/
inductive Phrase (shown : Node → String) (among : Node → Prop) : String → Prop where
  | nothing : Phrase shown among ""
  | node (n : Node) (here : among n) : Phrase shown among (shown n)
  | dimensions {text : String} (type : Phrase shown among text) (n : Node) (here : among n) :
    Phrase shown among (text ++ String.ofList ((shown n).toList.filter (· != ' ')))
  | joined {parts : List String} (separator : String)
    (known : separator = " & " ∨ separator = " | ")
    (each : ∀ part ∈ parts, Phrase shown among part) :
    Phrase shown among (separator.intercalate parts)

def bearerRules : List Rule :=
  [.classDeclaration, .interfaceDeclaration, .enumDeclaration, .recordDeclaration,
    .annotationTypeDeclaration, .methodDeclaration, .annotationTypeElementDeclaration,
    .constructorDeclaration, .compactConstructorDeclaration, .methodInvocation, .resource]

inductive Bearer (among : Node → Prop) (n : Node) : Prop where
  | rule (here : among n) (r : Rule) (known : r ∈ bearerRules) (kind : n.kind = .rule r)
  | declarator (parent : Node) (here : among parent) (sort : DeclaresVariables parent)
    (member : n ∈ parent.all .declarator)

def NamedAfter (source : Source) (among : Node → Prop) (text : String) : Prop :=
  ∃ n, Bearer among n ∧ ∃ name, n.get? .name = some name ∧ text = source.text name

inductive Declared (source : Source) (n : Node) (d : VariableDeclaration) : Prop where
  | declarators (sort : DeclaresVariables n)
    (declared : d.declared.map Declarator.span = (n.all .declarator).map source.span)
    (span : d.span = Span.ofRange source.chars n.start
      (((n.all .declarator).getLast?.map Node.stop).getD n.stop))
  | resource (declared : d.declared.map Declarator.span = [source.span n])
    (span : d.span = source.span n)

def KindFrom (source : Source) (n : Node) : ExpressionKind → Prop
  | .declaration _ => False
  | .call c => c.span = source.span n
  | .assign a => a.span = source.span n
  | .other text _ => text = n.kind.text
  | _ => True

/-- A type is asked for under its own kind. -/
def Ask.Apt : Ask → Prop
  | .type n kind => typeKind? n = some kind
  | .expression _ | .statement _ => True

def Answers (source : Source) : (request : Ask) → request.Answer → Prop
  | .expression n, e => e.span = source.span n ∧ KindFrom source n e.kind
  | .statement n, s => s.span = source.span n
  | .type n kind, t => t.span = source.span n ∧ t.kind = kind

/-- The value of a statement declares variables, or it is the outline of a rule's node. -/
def Valued (source : Source) (among : Node → Prop) (value : Expression) : Prop :=
  (Visit.expression value).isDeclaration = true ∨
    ∃ n, among n ∧ n.isNamed = true ∧ KindFrom source n value.kind

def MemberMade (source : Source) (among : Node → Prop) : Member → Prop
  | .constant c => Taken source among c.span
  | .constructor m => m.returnType = none
  | .method m => m.returnType.isSome = true
  | .field _ | .initializer _ | .type _ => True

def memberNode? (n : Node) : Option Node :=
  match n.kind with
  | .rule .enumConstant | .rule .fieldDeclaration | .rule .constantDeclaration
  | .rule .constructorDeclaration | .rule .compactConstructorDeclaration
  | .rule .methodDeclaration | .rule .annotationTypeElementDeclaration | .rule .block => some n
  | .rule .staticInitializer => n.ofKind? .block
  | _ => if (typeKind? n).isSome then some n else none

/-- The nodes of the members of a body, in the order of the tree. Those behind the constants of an
enumeration stand one level deeper. -/
def memberNodes : List Node → List Node
  | [] => []
  | .mk kind label start stop children :: rest =>
    (if kind == .rule .enumBodyDeclarations then memberNodes children
      else (memberNode? (.mk kind label start stop children)).toList) ++ memberNodes rest

def Stems (source : Source) : Member → Node → Prop
  | .constant c, n => n.kind = .rule .enumConstant ∧ c.span = source.span n
  | .field f, n => (n.kind = .rule .fieldDeclaration ∨ n.kind = .rule .constantDeclaration) ∧
      f.span = Span.ofRange source.chars n.start
        (((n.all .declarator).getLast?.map Node.stop).getD n.stop)
  | .initializer b, n => n.kind = .rule .block ∧ b.span = source.span n
  | .constructor m, n => (n.kind = .rule .constructorDeclaration ∨
      n.kind = .rule .compactConstructorDeclaration) ∧ m.span = source.span n
  | .method m, n => (n.kind = .rule .methodDeclaration ∨
      n.kind = .rule .annotationTypeElementDeclaration) ∧ m.span = source.span n
  | .type t, n => typeKind? n = some t.kind ∧ t.span = source.span n

/-- A class body has the members below some node, one after the other, or none at all. -/
def Listing (source : Source) (among : Node → Prop) : Visit → Prop
  | .classBody b => ∃ nodes, (nodes = [] ∨ ∃ n, among n ∧ n.children = nodes) ∧
      List.Forall₂ (Stems source) b.members (memberNodes nodes)
  | .unit _ | .type _ | .method _ | .block _ | .statement _ | .switch _ | .expression _ | .call _
  | .assign _ | .declaration _ => True

def Written (source : Source) (among : Node → Prop) (text : String) : Prop :=
  ∃ n, among n ∧ (n.kind = .rule .identifier ∨ n.kind = .rule .scopedIdentifier) ∧
    text = source.text n

def Particulars (source : Source) (among : Node → Prop) : Visit → Prop
  | .expression ⟨.declaration d, span⟩ => d.span = span
  | .expression ⟨kind, span⟩ => ∃ n, among n ∧ span = source.span n ∧ KindFrom source n kind
  | .classBody b => b = ClassBody.ofMembers b.members ∧
      (∀ m ∈ b.constructors, m.returnType = none) ∧ ∀ m ∈ b.methods, m.returnType.isSome = true
  | .statement s => ∀ value, s.value? = some value → Valued source among value
  | .declaration d => ∃ n, among n ∧ Declared source n d
  | .unit u => u.chars = source.chars ∧ ∀ d ∈ u.package, Written source among d.name
  | _ => True

/-- The node is as lowering makes it. -/
structure Made (source : Source) (among : Node → Prop) (whole : Visit) : Prop where
  spans : ∀ span ∈ whole.spans, Taken source among span
  particulars : Particulars source among whole
  listing : Listing source among whole
  types : ∀ text ∈ whole.types, Phrase source.compact among text
  names : ∀ text ∈ whole.names, NamedAfter source among text

theorem body_made {source : Source} {among : Node → Prop} (found : List Member)
    (each : ∀ member ∈ found, MemberMade source among member) {nodes : List Node}
    (here : nodes = [] ∨ ∃ n, among n ∧ n.children = nodes)
    (listed : List.Forall₂ (Stems source) found (memberNodes nodes)) :
    Made source among (.classBody (ClassBody.ofMembers found)) := by
  obtain ⟨constants, constructors, methods⟩ := ClassBody.of_members_mem found
  refine ⟨List.forall_mem_map.mpr fun c member => each _ (constants c member), ⟨?_, ?_, ?_⟩,
    ⟨nodes, here, ?_⟩, List.forall_mem_nil _, List.forall_mem_nil _⟩
  · rw [ClassBody.members_replay]
  · exact fun m member => each _ (constructors m member)
  · exact fun m member => each _ (methods m member)
  · rwa [ClassBody.members_replay]

end Lower

end JavaOutline
