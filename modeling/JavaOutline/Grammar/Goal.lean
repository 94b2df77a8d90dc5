import JavaOutline.Grammar.Shape

/-!
The named parts of the grammar of Java sources, and the small shapes that several of them share:
words, brackets, names and annotations. The goals are the rules of `tree-sitter-java` 0.23 that call
each other; rules it hides make no nodes here either.
-/
namespace JavaOutline.Grammar

open JavaOutline.Tree Shape

/-- Where a type stands. In a guarded place the same tokens could start an expression, so that
some words cannot start a type there and type arguments are taken only if they are complete. -/
inductive TypeSpot where
  | free
  | guarded
deriving DecidableEq, Repr, Inhabited

/-- Where an expression stands: as the right operand of a sum that is still open, and in a case
label, where an arrow may end it. -/
structure Place where
  inSum : Bool := false
  inLabel : Bool := false
deriving DecidableEq, Repr, Inhabited

/-- The parts of the grammar that refer to each other. -/
inductive Goal where
  | program
  | statement (opens : Bool)
  | block
  | constructorBody
  | name
  | noted
  | elementValue
  | anyType (spot : TypeSpot)
  | plainType (spot : TypeSpot)
  | simpleType (spot : TypeSpot)
  | typeArguments
  | dimensions
  | expression (level : Nat) (place : Place)
  | operand (place : Place)
  | castValue (place : Place)
  | primary (place : Place)
  | creation
  | arguments
  | arrayInitializer
  | formalParameters
  | switchExpression
  | switchLabel
  | recordPattern
  | emptyCall
  | skippedChoice
  | typeDeclaration
  | classBody
  | member
  | moduleBody
deriving DecidableEq, Repr, Inhabited

abbrev Form := Shape Goal

def openBrace : String := "\x7b"

def closeBrace : String := "\x7d"

def parens (body : Form) : Form :=
  all [sym "(", body, sym ")"]

def braces (body : Form) : Form :=
  all [sym openBrace, body, sym closeBrace]

def identifier : Form :=
  .word .identifier fun _ => true

def identifierBut (words : List String) : Form :=
  .word .identifier fun w => !words.contains w

def typeIdentifier : Form :=
  .word .typeIdentifier fun _ => true

def thisWord : Form :=
  .word .thisWord (· == "this")

def superWord : Form :=
  .word .superWord (· == "super")

def expression : Form :=
  .call (.expression 0 {})

def parenthesized : Form :=
  .node .parenthesizedExpression (parens expression)

/-- Words that are keywords in some places and names in others. -/
def reservedWords : List String :=
  ["open", "module", "record", "with", "sealed", "yield"]

/-- Words that stand for values, or start one, wherever an expression may start. -/
def valueWords : List String :=
  ["this", "super", "new", "switch", "true", "false", "null"]

def plainModifiers : List String :=
  ["public", "protected", "private", "abstract", "static", "final", "strictfp", "default",
    "synchronized", "native", "transient", "volatile"]

def primitiveWords : List String :=
  ["byte", "short", "int", "long", "char", "float", "double", "boolean", "void"]

/-- Words that are keywords at the start of an expression; all others are names there. -/
def expressionWords : List String :=
  valueWords ++ primitiveWords

def expressionName : Form :=
  identifierBut expressionWords

def nameForm : Form :=
  .chain identifier (all [sym ".", otherWord []])
    (.node .scopedIdentifier
      (all [.field .scope .held, sym ".", .field .name identifier]))

def elementPair : Form :=
  .node .elementValuePair
    (all [.field .key identifier, sym "=", .field .value (.call .elementValue)])

def annotationArguments : Form :=
  .node .annotationArgumentList
    (parens
      (choose [(nextSymbol [")"], .done),
        (all [expressionName, sym "="], commaSeparated elementPair)]
        (.call .elementValue)))

def annotationForm : Form :=
  .pick (all [sym "@", .call .name, sym "("])
    (.node .annotationCall
      (all [sym "@", .field .name (.call .name), .field .arguments annotationArguments]))
    (.node .annotationMark (all [sym "@", .field .name (.call .name)]))

def skippedNote : Form :=
  all [sym "@", .call .name, whenever (nextSymbol ["("]) .group]

def skippedNotes : Form :=
  .many (sym "@") skippedNote

def annotationsForm : Form :=
  .many (sym "@") (.call .noted)

def elementArray : Form :=
  .node .elementValueArrayInitializer
    (braces
      (all [.pick (nextSymbol [closeBrace, ","]) .done
          (all [.call .elementValue,
            .many (all [sym ",", absent (nextSymbol [closeBrace])])
              (all [sym ",", .call .elementValue])]),
        whenever (sym ",") (sym ",")]))

def elementValueForm : Form :=
  choose
    [(sym openBrace, elementArray),
      (all [skippedNote, nextSymbol [")", ",", closeBrace, ";"]], .call .noted)]
    expression

end JavaOutline.Grammar
