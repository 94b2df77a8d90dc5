import JavaOutline.Tree.Rule

/-!
Concrete trees. A node is either the node of a rule or a bare token shown by its text; it covers a
byte range of the source text and keeps its children in source order. Of the nodes of `tree-sitter`
this is what lowering looks at.
-/
namespace JavaOutline.Tree

/-- What a node stands for: a rule of the grammar, or a keyword or symbol by its text. -/
inductive Kind where
  | rule (r : Rule)
  | token (text : String)
deriving DecidableEq, Repr, Inhabited

def Kind.text : Kind → String
  | .rule r => r.text
  | .token text => text

/-- A concrete tree over the bytes from `start` up to `stop`. -/
inductive Node where
  | mk (kind : Kind) (label : Option Field) (start stop : Nat) (children : List Node)
deriving Inhabited

namespace Node

def kind : Node → Kind
  | .mk kind _ _ _ _ => kind

def label : Node → Option Field
  | .mk _ label _ _ _ => label

def start : Node → Nat
  | .mk _ _ start _ _ => start

def stop : Node → Nat
  | .mk _ _ _ stop _ => stop

def children : Node → List Node
  | .mk _ _ _ _ children => children

def labelled (f : Field) : Node → Node
  | .mk kind _ start stop children => .mk kind (some f) start stop children

/-- The node of a rule over its children: it starts with the first and ends with the last. -/
def ofRule (r : Rule) (children : List Node) : Node :=
  .mk (.rule r) none ((children.head?.map start).getD 0) ((children.getLast?.map stop).getD 0)
    children

def is (n : Node) (r : Rule) : Bool :=
  n.kind == .rule r

def isNamed (n : Node) : Bool :=
  match n.kind with
  | .rule _ => true
  | .token _ => false

def isComment (n : Node) : Bool :=
  n.is .lineComment || n.is .blockComment

def parts (n : Node) : List Node :=
  n.children.filter fun child => child.isNamed && !child.isComment

def get? (n : Node) (f : Field) : Option Node :=
  n.children.find? fun child => child.label == some f

def all (n : Node) (f : Field) : List Node :=
  n.children.filter fun child => child.label == some f

def ofKind? (n : Node) (r : Rule) : Option Node :=
  n.children.find? fun child => child.is r

end Node

end JavaOutline.Tree
