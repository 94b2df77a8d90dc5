import JavaOutline.Grammar.Goal

/-!
Types: primitive types, names with type arguments, arrays, annotations on types, type parameters.
The rules are those of `tree-sitter-java`, with type arguments that close by a bracket taken off a
longer symbol.
-/
namespace JavaOutline.Grammar

open JavaOutline.Tree Shape

def dimensionsForm : Form :=
  let pair := all [annotationsForm, sym "[", sym "]"]
  .node .dimensions
    (all [pair, .many (all [skippedNotes, sym "[", sym "]"]) pair])

def dimensionsAhead : Form :=
  all [skippedNotes, sym "[", sym "]"]

def dimensionsAfter : Form :=
  whenever dimensionsAhead (.field .dimensions (.call .dimensions))

/-- A type argument without a name, possibly bounded. -/
def wildcard : Form :=
  .node .wildcard
    (all [annotationsForm, sym "?",
      choose
        [(key "extends", all [key "extends", .call (.anyType .free)]),
          (superWord, all [superWord, .call (.anyType .free)])]
        .done])

def typeArgumentsForm : Form :=
  let argument :=
    .pick (all [skippedNotes, sym "?"]) wildcard (.call (.anyType .free))
  .node .typeArguments
    (all [sym "<", .pick (.cut ">") .done (commaSeparated argument), .cut ">"])

def primitiveType : Form :=
  choose
    [(nextWord ["byte", "short", "int", "long", "char"],
        .node .integralType (.keyword ["byte", "short", "int", "long", "char"])),
      (nextWord ["float", "double"], .node .floatingPointType (.keyword ["float", "double"])),
      (nextWord ["boolean"], .word .booleanType (· == "boolean"))]
    (.word .voidType (· == "void"))

/-- A named type may start with any word, in a guarded place with none of the reserved ones. -/
def typeStart : TypeSpot → Form
  | .free => typeIdentifier
  | .guarded =>
    .word .typeIdentifier fun w =>
      !(reservedWords ++ valueWords).contains w

def typePart : TypeSpot → Form
  | .free => typeIdentifier
  | .guarded => .word .typeIdentifier fun w => !(["class", "this", "super", "new"].contains w)

def dottedLink (spot : TypeSpot) : Form × Form :=
  (all [sym ".", skippedNotes, typePart spot],
    .node .scopedTypeIdentifier (all [.held, sym ".", annotationsForm, typePart spot]))

def dottedType (spot : TypeSpot) : Form :=
  .chain (typeStart spot) (dottedLink spot).1 (dottedLink spot).2

def simpleTypeForm (spot : TypeSpot) : Form :=
  let generic := all
    [.heldIs fun k => k == .rule .typeIdentifier || k == .rule .scopedTypeIdentifier,
      match spot with
      | .free => sym "<"
      | .guarded => .call .typeArguments]
  .pick (nextWord primitiveWords) primitiveType
    (.chain (typeStart spot) (either [(dottedLink spot).1, generic])
      (choose [dottedLink spot] (.node .genericType (all [.held, .call .typeArguments]))))

def genericType (spot : TypeSpot) : Form :=
  .chain (.call (.simpleType spot)) (.heldIs (· != .rule .genericType)) .never

def plainTypeForm (spot : TypeSpot) : Form :=
  .chain (.call (.simpleType spot))
    (all [.heldIs (· != .rule .arrayType), dimensionsAhead])
    (.node .arrayType (all [.field .element .held, .field .dimensions (.call .dimensions)]))

def anyTypeForm (spot : TypeSpot) : Form :=
  .pick (sym "@")
    (.node .annotatedType (all [annotationsForm, .call (.plainType spot)]))
    (.call (.plainType spot))

def typeList : Form :=
  .node .typeList (commaSeparated (.call (.anyType .free)))

def typeParameter : Form :=
  let bound := .node .typeBound
    (all [key "extends", .call (.anyType .free),
      .many (sym "&") (all [sym "&", .call (.anyType .free)])])
  .node .typeParameter (all [annotationsForm, typeIdentifier, whenever (key "extends") bound])

def typeParameters : Form :=
  .node .typeParameters (all [sym "<", commaSeparated typeParameter, .cut ">"])

def typeParametersAfter : Form :=
  whenever (sym "<") (.field .typeParameters typeParameters)

end JavaOutline.Grammar
