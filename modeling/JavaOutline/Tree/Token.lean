import JavaOutline.Tree.Rule

/-!
Tokens of a source text. A word may turn out a keyword or a name, which only the grammar can tell;
symbols are kept by their text; literals, characters of strings and escapes carry their rule.
Comments stand apart from the tokens.
-/
namespace JavaOutline.Tree

inductive Token.Class where
  | word
  | symbol
  | lexeme (r : Rule)
deriving DecidableEq, Repr, Inhabited

structure Token where
  shape : Token.Class
  text : String
  start : Nat
  stop : Nat
deriving DecidableEq, Repr, Inhabited

namespace Token

def isWord (t : Token) : Bool :=
  t.shape == .word

end Token

structure Comment where
  rule : Rule
  start : Nat
  stop : Nat
deriving DecidableEq, Repr, Inhabited

end JavaOutline.Tree
