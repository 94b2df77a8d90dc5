import JavaOutline.Grammar.Types
import JavaOutline.Grammar.Expressions

/-!
Declarations: modifiers, variables, parameters, methods, types with their bodies, packages, imports
and modules. The rules are those of `tree-sitter-java`, except that its conflicts are settled by
looking ahead.
-/
namespace JavaOutline.Grammar

open JavaOutline.Tree Shape

def modifierWords : List String :=
  plainModifiers ++ ["sealed"]

def modifierAhead : Form :=
  either
    [nextWord modifierWords, .cut "non-sealed", all [absent (.cut "@interface"), sym "@"]]

def skippedModifiers : Form :=
  .many modifierAhead
    (choose [(nextWord modifierWords, .skip), (.cut "non-sealed", .cut "non-sealed")] skippedNote)

def modifier : Form :=
  choose
    [(nextWord modifierWords, .keyword modifierWords), (.cut "non-sealed", .cut "non-sealed")]
    (.call .noted)

def modifiersAfter : Form :=
  whenever modifierAhead (.node .modifiers (all [modifier, .many modifierAhead modifier]))

def declaratorId : Form :=
  all
    [.field .name (.pick (key "_") (.word .underscorePattern (· == "_")) identifier),
      dimensionsAfter]

def declarator : Form :=
  .node .variableDeclarator
    (all [declaratorId,
      whenever (sym "=")
        (all [sym "=",
          .field .value (.pick (sym openBrace) (.call .arrayInitializer) expression)])])

def declarators : Form :=
  commaSeparated (.field .declarator declarator)

/-- Modifiers and a type, without nodes; behind modifiers no expression can start. -/
def skippedType : Form :=
  .pick modifierAhead (all [skippedModifiers, .call (.plainType .free)])
    (.call (.plainType .guarded))

/-- Modifiers and the type of a variable where an expression could start too. -/
def modifiedType : Form :=
  .pick modifierAhead (all [modifiersAfter, .field .type (.call (.plainType .free))])
    (.field .type (.call (.plainType .guarded)))

def memberVariables (r : Rule) : Form :=
  .node r
    (all [modifiersAfter, .field .type (.call (.plainType .free)), declarators, sym ";"])

def localVariableDeclaration : Form :=
  .node .localVariableDeclaration (all [modifiedType, declarators, sym ";"])

def receiverParameter : Form :=
  let outer := all [identifier, sym "."]
  .node .receiverParameter
    (all [annotationsForm, .call (.plainType .free), .many outer outer, thisWord])

def formalParameter : Form :=
  .pick (all [skippedModifiers, .call (.plainType .free), sym "..."])
    (.node .spreadParameter
      (all [modifiersAfter, .call (.plainType .free), sym "...", annotationsForm, declarator]))
    (.node .formalParameter
      (all [modifiersAfter, .field .type (.call (.plainType .free)), declaratorId]))

def formalParametersForm : Form :=
  let outer := all [identifier, sym "."]
  let noted := all [skippedNotes, absent (nextWord modifierWords), .call (.plainType .free)]
  let receiver := either
    [all [absent (nextWord modifierWords), .call (.plainType .free), .many outer outer, key "this", nextSymbol [",", ")"]],
      all [noted, outer, .many outer outer, key "this"],
      all [noted, key "this", sym ",", sym ")"]]
  .node .formalParameters
    (parens
      (.pick receiver
        (all [receiverParameter,
          whenever (sym ",") (all [sym ",", commaSeparatedTo ")" formalParameter])])
        (commaSeparatedTo ")" formalParameter)))

def throwsAfter : Form :=
  whenever (key "throws")
    (.node .throws (all [key "throws", commaSeparated (.call (.anyType .free))]))

def methodDeclaration : Form :=
  .node .methodDeclaration
    (all [modifiersAfter,
      whenever (sym "<") (all [.field .typeParameters typeParameters, annotationsForm]),
      .field .type (.call (.plainType .free)), .field .name identifier,
      .field .parameters (.call .formalParameters), dimensionsAfter, throwsAfter,
      .pick (sym ";") (sym ";") (.field .body (.call .block))])

def constructorDeclaration : Form :=
  .node .constructorDeclaration
    (all [modifiersAfter, typeParametersAfter, .field .name identifier,
      .field .parameters (.call .formalParameters), throwsAfter,
      .field .body (.call .constructorBody)])

def compactConstructor : Form :=
  .node .compactConstructorDeclaration
    (all [modifiersAfter, .field .name identifier, .field .body (.call .block)])

def declared (word : String) : Form :=
  all [skippedModifiers, key word]

def interfacesAfter : Form :=
  whenever (key "implements")
    (.field .interfaces (.node .superInterfaces (all [key "implements", typeList])))

def permitsAfter : Form :=
  whenever (key "permits") (.field .permits (.node .permits (all [key "permits", typeList])))

def classDeclaration : Form :=
  .node .classDeclaration
    (all [modifiersAfter, key "class", .field .name identifier, typeParametersAfter,
      whenever (key "extends")
        (.field .superclass (.node .superclass (all [key "extends", .call (.anyType .free)]))),
      interfacesAfter, permitsAfter, .field .body (.call .classBody)])

def interfaceMember : Form :=
  let typed := all [skippedModifiers, .call (.plainType .free), identifierBut ["_"]]
  choose
    [(sym ";", sym ";"),
      (either [declared "class", declared "interface", declared "enum", declared "record",
        all [skippedModifiers, .cut "@interface"]], .call .typeDeclaration),
      (either [all [skippedModifiers, sym "<"], all [typed, sym "("]], methodDeclaration)]
    (memberVariables .constantDeclaration)

def interfaceDeclaration : Form :=
  .node .interfaceDeclaration
    (all [modifiersAfter, key "interface", .field .name identifier, typeParametersAfter,
      whenever (key "extends") (.node .extendsInterfaces (all [key "extends", typeList])),
      permitsAfter,
      .field .body
        (.node .interfaceBody (braces (.many (absent (sym closeBrace)) interfaceMember)))])

def enumConstant : Form :=
  .node .enumConstant
    (all [modifiersAfter, .field .name identifier,
      whenever (sym "(") (.field .arguments (.call .arguments)),
      whenever (sym openBrace) (.field .body (.call .classBody))])

def enumBody : Form :=
  .node .enumBody
    (braces
      (all [.pick (nextSymbol [",", ";", closeBrace]) .done
          (all [enumConstant,
            .many (all [sym ",", absent (nextSymbol [",", ";", closeBrace])])
              (all [sym ",", enumConstant])]),
        whenever (sym ",") (sym ","),
        whenever (sym ";")
          (.node .enumBodyDeclarations
            (all [sym ";", .many (absent (sym closeBrace)) (.call .member)]))]))

def enumDeclaration : Form :=
  .node .enumDeclaration
    (all [modifiersAfter, key "enum", .field .name identifier, interfacesAfter,
      .field .body enumBody])

def recordDeclaration : Form :=
  .node .recordDeclaration
    (all [modifiersAfter, key "record", .field .name identifier, typeParametersAfter,
      .field .parameters (.call .formalParameters), interfacesAfter,
      .field .body (.call .classBody)])

def elementMember : Form :=
  let typed := all [skippedModifiers, .call (.plainType .free), identifier, sym "("]
  choose
    [(sym ";", sym ";"),
      (either [declared "class", declared "interface", declared "enum",
        all [skippedModifiers, .cut "@interface"]], .call .typeDeclaration),
      (typed,
        .node .annotationTypeElementDeclaration
          (all [modifiersAfter, .field .type (.call (.plainType .free)), .field .name identifier,
            sym "(", sym ")", dimensionsAfter,
            whenever (key "default")
              (all [key "default", .field .value (.call .elementValue)]),
            sym ";"]))]
    (memberVariables .constantDeclaration)

def elementTypeDeclaration : Form :=
  .node .annotationTypeDeclaration
    (all [modifiersAfter, .cut "@interface", .field .name identifier,
      .field .body
        (.node .annotationTypeBody (braces (.many (absent (sym closeBrace)) elementMember)))])

def typeDeclarationForm : Form :=
  choose
    [(declared "class", classDeclaration),
      (declared "interface", interfaceDeclaration),
      (declared "enum", enumDeclaration),
      (declared "record", recordDeclaration)]
    elementTypeDeclaration

/-- Whether a type is declared where a statement may stand. -/
def typeDeclarationAhead : Form :=
  either
    [declared "class", declared "interface", declared "enum",
      all [declared "record", identifier, nextSymbol ["(", "<"]],
      all [skippedModifiers, .cut "@interface"]]

def memberForm : Form :=
  let named := all [skippedModifiers, identifierBut primitiveWords]
  let typed := all [skippedModifiers, .call (.plainType .free), identifierBut ["_"]]
  choose
    [(sym ";", sym ";"),
      (sym openBrace, .call .block),
      (all [key "static", sym openBrace],
        .node .staticInitializer (all [key "static", .call .block])),
      (either [declared "class", declared "interface", declared "enum", declared "record",
        all [skippedModifiers, .cut "@interface"]], .call .typeDeclaration),
      (all [skippedModifiers, sym "<"],
        .pick (all [skippedModifiers, typeParameters, identifier, sym "("])
          constructorDeclaration methodDeclaration),
      (all [named, sym "("], constructorDeclaration),
      (all [named, sym openBrace], compactConstructor),
      (all [typed, sym "("], methodDeclaration)]
    (memberVariables .fieldDeclaration)

def classBodyForm : Form :=
  .node .classBody (braces (.many (absent (sym closeBrace)) (.call .member)))

def packageDeclaration : Form :=
  .node .packageDeclaration (all [annotationsForm, key "package", .call .name, sym ";"])

def importDeclaration : Form :=
  .node .importDeclaration
    (all [key "import", whenever (key "static") (key "static"), .call .name,
      whenever (sym ".") (all [sym ".", .node .asterisk (sym "*")]), sym ";"])

def packageDirective (r : Rule) (word : String) : Form :=
  .node r
    (all [key word, .field .package (.call .name),
      whenever (key "to")
        (all [key "to", commaSeparated (.field .modules (.call .name))]),
      sym ";"])

def moduleDirective : Form :=
  let qualifier := ["transitive", "static"]
  choose
    [(key "requires",
        .node .requiresModuleDirective
          (all [key "requires",
            .many (nextWord qualifier)
              (.field .modifiers (.node .requiresModifier (.keyword qualifier))),
            .field .module (.call .name), sym ";"])),
      (key "exports", packageDirective .exportsModuleDirective "exports"),
      (key "opens", packageDirective .opensModuleDirective "opens"),
      (key "uses",
        .node .usesModuleDirective (all [key "uses", .field .type (.call .name), sym ";"]))]
    (.node .providesModuleDirective
      (all [key "provides", .field .provided (.call .name), key "with", .call .name,
        .many (sym ",") (all [sym ",", .field .provider (.call .name)]), sym ";"]))

def moduleBodyForm : Form :=
  .node .moduleBody (braces (.many (absent (sym closeBrace)) moduleDirective))

def moduleAhead : Form :=
  all
    [skippedNotes,
      either [all [key "open", key "module"], all [key "module", .call .name, sym openBrace]]]

def moduleDeclaration : Form :=
  .node .moduleDeclaration
    (all [annotationsForm, whenever (key "open") (key "open"), key "module",
      .field .name (.call .name), .field .body (.call .moduleBody)])

end JavaOutline.Grammar
