import JavaOutline.Tree.Node

/-!
Layouts: what stands below the nodes of each rule. A layout goes through the children of a node
other than comments; it tells apart what an outline needs to find and leaves the rest loose. A rule
has several layouts where its nodes come in forms that exclude each other.
-/
namespace JavaOutline.Grammar

open JavaOutline.Tree

/-- Some rules, and some bare tokens or all of them. -/
structure Sorts where
  rules : List Rule
  tokens : Option (List String) := some []

def Sorts.admits (sorts : Sorts) : Kind → Bool
  | .rule r => sorts.rules.contains r
  | .token text => sorts.tokens.elim true fun texts => texts.contains text

def Sorts.below (small large : Sorts) : Bool :=
  small.rules.all large.rules.contains &&
    match small.tokens, large.tokens with
    | _, none => true
    | none, some _ => false
    | some texts, some others => texts.all others.contains

inductive Tag where
  | plain
  | under (f : Field)
  | loose
deriving DecidableEq

def Tag.admits : Tag → Option Field → Bool
  | .plain, label => label.isNone
  | .under f, label => label == some f
  | .loose, _ => true

/-- What a child may be. -/
structure Slot where
  tag : Tag
  sorts : Sorts

def Slot.admits (slot : Slot) (n : Node) : Bool :=
  slot.tag.admits n.label && slot.sorts.admits n.kind && !n.isComment

inductive Item where
  | one (slot : Slot)
  | maybe (slot : Slot)
  | several (slots : List Slot)

abbrev Layout := List Item

/-- The children go through the items in order. -/
def Accepts : Layout → List Node → Prop
  | [], nodes => nodes = []
  | .one slot :: rest, nodes =>
    ∃ first others, nodes = first :: others ∧ slot.admits first = true ∧ Accepts rest others
  | .maybe slot :: rest, nodes =>
    ∃ (first : Option Node) (others : List Node), nodes = first.toList ++ others ∧
      (∀ n ∈ first, slot.admits n = true) ∧ Accepts rest others
  | .several slots :: rest, nodes =>
    ∃ front others, nodes = front ++ others ∧
      (∀ n ∈ front, slots.any (·.admits n) = true) ∧ Accepts rest others

def valueRules : List Rule :=
  [.decimalIntegerLiteral, .hexIntegerLiteral, .octalIntegerLiteral, .binaryIntegerLiteral,
    .decimalFloatingPointLiteral, .hexFloatingPointLiteral, .characterLiteral, .trueLiteral,
    .falseLiteral, .nullLiteral, .identifier, .thisWord, .superWord, .classLiteral]

def expressionRules : List Rule :=
  valueRules ++
    [.stringLiteral, .methodInvocation, .assignmentExpression, .binaryExpression, .unaryExpression,
      .updateExpression, .parenthesizedExpression, .fieldAccess, .arrayAccess,
      .objectCreationExpression, .arrayCreationExpression, .castExpression, .ternaryExpression,
      .instanceofExpression, .lambdaExpression, .methodReference, .switchExpression,
      .templateExpression]

def typeRules : List Rule :=
  [.integralType, .floatingPointType, .booleanType, .voidType, .typeIdentifier,
    .scopedTypeIdentifier, .genericType, .arrayType, .annotatedType]

def nameRules : List Rule := [.identifier, .scopedIdentifier]

def annotationRules : List Rule := [.annotationMark, .annotationCall]

def declaredTypes : List Rule :=
  [.classDeclaration, .interfaceDeclaration, .enumDeclaration, .recordDeclaration,
    .annotationTypeDeclaration]

def headingRules : List Rule := [.importDeclaration, .packageDeclaration, .moduleDeclaration]

def statementRules : List Rule :=
  headingRules ++ declaredTypes ++
    [.block, .ifStatement, .whileStatement, .doStatement, .forStatement, .enhancedForStatement,
      .expressionStatement, .switchExpression, .returnStatement, .breakStatement,
      .continueStatement, .throwStatement, .tryStatement, .tryWithResourcesStatement,
      .assertStatement, .synchronizedStatement, .yieldStatement, .labeledStatement,
      .localVariableDeclaration]

def memberRules : List Rule :=
  declaredTypes ++
    [.block, .staticInitializer, .constructorDeclaration, .compactConstructorDeclaration,
      .methodDeclaration, .fieldDeclaration, .constantDeclaration,
      .annotationTypeElementDeclaration]

/-- The rules of types, names and headers, below which there is no code outside annotations. -/
def quietRules : List Rule :=
  valueRules ++ typeRules ++ headingRules ++
    [.scopedIdentifier, .typeArguments, .wildcard, .dimensions, .typeList, .typeParameter,
      .typeParameters, .typeBound, .superclass, .superInterfaces, .extendsInterfaces, .permits,
      .throws, .modifiers, .catchType, .catchFormalParameter, .underscorePattern, .pattern,
      .typePattern, .recordPattern, .recordPatternBody, .recordPatternComponent,
      .inferredParameters, .receiverParameter, .formalParameter, .breakStatement,
      .continueStatement, .asterisk, .moduleBody, .requiresModuleDirective, .requiresModifier,
      .exportsModuleDirective, .opensModuleDirective, .usesModuleDirective,
      .providesModuleDirective, .stringFragment, .multilineStringFragment, .escapeSequence]

def elementRules : List Rule :=
  [.annotationArgumentList, .elementValuePair, .elementValueArrayInitializer]

def commentRules : List Rule := [.lineComment, .blockComment]

def expressions : Sorts := ⟨expressionRules, some []⟩

def types : Sorts := ⟨typeRules, some []⟩

def annotations : Sorts := ⟨annotationRules, some []⟩

/-- Statements; one of them is a lone semicolon. -/
def statements : Sorts := ⟨statementRules, some [";"]⟩

def members : Sorts := ⟨memberRules, some [";"]⟩

def tokens : Slot := ⟨.plain, ⟨[], none⟩⟩

def plain (sorts : Sorts) : Slot := ⟨.plain, sorts⟩

def only (rules : List Rule) : Slot := ⟨.plain, ⟨rules, some []⟩⟩

def under (f : Field) (rules : List Rule) : Slot := ⟨.under f, ⟨rules, some []⟩⟩

def marks : Item := .several [tokens]

def word (text : String) : Slot := ⟨.plain, ⟨[], some [text]⟩⟩

def expressionUnder (f : Field) : Slot := ⟨.under f, expressions⟩

def statementUnder (f : Field) : Slot := ⟨.under f, statements⟩

def listed (sorts : Sorts) : Layout := [.several [tokens, plain sorts]]

def modifiersFirst : Item := .maybe (only [.modifiers])

def noted : Item := .several [plain annotations]

def nameItem : Item := .one (under .name [.identifier])

def boundName : Item := .one (under .name [.identifier, .underscorePattern])

def typeItem : Item := .one ⟨.under .type, types⟩

def dimensionsItem : Item := .maybe (under .dimensions [.dimensions])

def quiet : Sorts := ⟨quietRules ++ annotationRules, none⟩

def elementValues : Sorts :=
  ⟨expressionRules ++ annotationRules ++ [.elementValueArrayInitializer], some []⟩

/-- The layouts of the nodes of a rule. -/
def layouts : Rule → List Layout
  -- Lists.
  | .program => [listed ⟨statementRules ++ [.methodDeclaration], some [";"]⟩]
  | .block => [listed statements]
  | .constructorBody => [listed ⟨statementRules ++ [.explicitConstructorInvocation], some [";"]⟩]
  | .classBody | .interfaceBody | .annotationTypeBody | .enumBodyDeclarations => [listed members]
  | .enumBody => [listed ⟨[.enumConstant, .enumBodyDeclarations], some []⟩]
  | .switchBlock => [listed ⟨[.switchRule, .switchBlockStatementGroup], some []⟩]
  | .switchLabel => [listed ⟨expressionRules ++ [.pattern, .guard], some []⟩]
  | .argumentList => [listed expressions]
  | .arrayInitializer => [listed ⟨expressionRules ++ [.arrayInitializer], some []⟩]
  | .resourceSpecification => [listed ⟨[.resource], some []⟩]
  | .formalParameters =>
    [listed ⟨[.formalParameter, .spreadParameter, .receiverParameter], some []⟩]
  | .stringLiteral =>
    [listed ⟨[.stringFragment, .escapeSequence, .multilineStringFragment, .stringInterpolation],
      some []⟩]
  -- Statements.
  | .ifStatement =>
    [[marks, .one (under .condition [.parenthesizedExpression]), .one (statementUnder .consequence),
      marks, .maybe (statementUnder .alternative)]]
  | .whileStatement =>
    [[marks, .one (under .condition [.parenthesizedExpression]), .one (statementUnder .body)]]
  | .doStatement =>
    [[marks, .one (statementUnder .body), marks,
      .one (under .condition [.parenthesizedExpression]), marks]]
  | .forStatement =>
    [[.several [tokens, ⟨.under .init, ⟨expressionRules ++ [.localVariableDeclaration], some []⟩⟩],
      .maybe (expressionUnder .condition), .several [tokens, expressionUnder .update],
      .one (statementUnder .body)]]
  | .enhancedForStatement =>
    [[marks, modifiersFirst, typeItem, boundName, dimensionsItem, marks,
      .one (expressionUnder .value), marks, .one (statementUnder .body)]]
  | .expressionStatement | .throwStatement | .yieldStatement | .parenthesizedExpression
  | .updateExpression | .stringInterpolation | .guard =>
    [[marks, .one (plain expressions), marks]]
  | .returnStatement => [[marks, .maybe (plain expressions), marks]]
  | .assertStatement =>
    [[marks, .one (plain expressions), marks, .maybe (plain expressions), marks]]
  | .synchronizedStatement =>
    [[marks, .one (only [.parenthesizedExpression]), .one (under .body [.block])]]
  | .labeledStatement =>
    [[.one (only [.identifier]), .one (word ":"), .one (plain statements)]]
  | .tryStatement =>
    [[marks, .one (under .body [.block]), .several [only [.catchClause]],
      .maybe (only [.finallyClause])]]
  | .tryWithResourcesStatement =>
    [[marks, .one (under .resources [.resourceSpecification]), .one (under .body [.block]),
      .several [only [.catchClause]], .maybe (only [.finallyClause])]]
  | .catchClause =>
    [[marks, .one (only [.catchFormalParameter]), marks, .one (under .body [.block])]]
  | .catchFormalParameter => [[modifiersFirst, .one (only [.catchType]), boundName, dimensionsItem]]
  | .finallyClause | .staticInitializer => [[marks, .one (only [.block])]]
  | .resource =>
    [[modifiersFirst, typeItem, boundName, dimensionsItem, marks, .one (expressionUnder .value)],
      [.one (plain expressions)]]
  | .localVariableDeclaration | .fieldDeclaration | .constantDeclaration =>
    [[modifiersFirst, typeItem, .one (under .declarator [.variableDeclarator]),
      .several [tokens, under .declarator [.variableDeclarator]]]]
  | .variableDeclarator =>
    [[boundName, dimensionsItem, marks,
      .maybe ⟨.under .value, ⟨expressionRules ++ [.arrayInitializer], some []⟩⟩]]
  | .explicitConstructorInvocation =>
    [[.maybe (expressionUnder .object), marks, .maybe (under .typeArguments [.typeArguments]),
      .one (under .constructor [.thisWord, .superWord]), .one (under .arguments [.argumentList]),
      marks]]
  | .switchBlockStatementGroup =>
    [[.one (only [.switchLabel]), .one (word ":"), .several [plain statements]]]
  | .switchRule =>
    [[.one (only [.switchLabel]), marks,
      .one (only [.throwStatement, .block, .expressionStatement])]]
  -- Expressions.
  | .switchExpression =>
    [[marks, .one (under .condition [.parenthesizedExpression]), .one (under .body [.switchBlock])]]
  | .methodInvocation =>
    [[.maybe (expressionUnder .object), marks, .maybe (only [.superWord]), marks,
      .maybe (under .typeArguments [.typeArguments]), nameItem,
      .one (under .arguments [.argumentList])]]
  | .assignmentExpression | .binaryExpression =>
    [[.one (expressionUnder .left), .one ⟨.under .operator, ⟨[], none⟩⟩,
      .one (expressionUnder .right)]]
  | .unaryExpression => [[.one ⟨.under .operator, ⟨[], none⟩⟩, .one (expressionUnder .operand)]]
  | .fieldAccess =>
    [[.one (expressionUnder .object), marks, .maybe (only [.superWord]), marks,
      .one (under .field [.identifier, .thisWord])]]
  | .arrayAccess => [[.one (expressionUnder .array), marks, .one (expressionUnder .index), marks]]
  | .objectCreationExpression =>
    [[.maybe (plain expressions), .maybe (word "."), .one (word "new"), noted,
      .maybe (under .typeArguments [.typeArguments]), noted, typeItem,
      .one (under .arguments [.argumentList]), .maybe (only [.classBody])]]
  | .arrayCreationExpression =>
    [[marks, noted, typeItem, .several [under .dimensions [.dimensions, .dimensionsExpr]],
      .maybe (under .value [.arrayInitializer])]]
  | .dimensionsExpr => [[noted, marks, .one (plain expressions), marks]]
  | .castExpression => [[.several [tokens, ⟨.under .type, types⟩], .one (expressionUnder .value)]]
  | .ternaryExpression =>
    [[.one (expressionUnder .condition), marks, .one (expressionUnder .consequence), marks,
      .one (expressionUnder .alternative)]]
  | .instanceofExpression =>
    [[.one (expressionUnder .left), marks, .maybe (under .pattern [.recordPattern]),
      .maybe ⟨.under .right, types⟩, .maybe (under .name [.identifier])]]
  | .lambdaExpression =>
    [[.one (under .parameters [.identifier, .inferredParameters, .formalParameters]), marks,
      .one ⟨.under .body, ⟨expressionRules ++ [.block], some []⟩⟩]]
  | .methodReference =>
    [[.one (only (expressionRules ++ typeRules)), marks, .maybe (only [.typeArguments]), marks,
      .maybe (only [.identifier])]]
  | .templateExpression =>
    [[.one (expressionUnder .templateProcessor), marks,
      .one (under .templateArgument [.stringLiteral])]]
  -- Declarations.
  | .classDeclaration =>
    [[modifiersFirst, marks, nameItem, .maybe (under .typeParameters [.typeParameters]),
      .maybe (under .superclass [.superclass]), .maybe (under .interfaces [.superInterfaces]),
      .maybe (under .permits [.permits]), .one (under .body [.classBody])]]
  | .interfaceDeclaration =>
    [[modifiersFirst, marks, nameItem, .maybe (under .typeParameters [.typeParameters]),
      .maybe (only [.extendsInterfaces]), .maybe (under .permits [.permits]),
      .one (under .body [.interfaceBody])]]
  | .enumDeclaration =>
    [[modifiersFirst, marks, nameItem, .maybe (under .interfaces [.superInterfaces]),
      .one (under .body [.enumBody])]]
  | .recordDeclaration =>
    [[modifiersFirst, marks, nameItem, .maybe (under .typeParameters [.typeParameters]),
      .one (under .parameters [.formalParameters]), .maybe (under .interfaces [.superInterfaces]),
      .one (under .body [.classBody])]]
  | .annotationTypeDeclaration =>
    [[modifiersFirst, marks, nameItem, .one (under .body [.annotationTypeBody])]]
  | .enumConstant =>
    [[modifiersFirst, nameItem, .maybe (under .arguments [.argumentList]),
      .maybe (under .body [.classBody])]]
  | .methodDeclaration =>
    [[modifiersFirst, .maybe (under .typeParameters [.typeParameters]), noted, typeItem, nameItem,
      .one (under .parameters [.formalParameters]), dimensionsItem, .maybe (only [.throws]), marks,
      .maybe (under .body [.block])]]
  | .constructorDeclaration =>
    [[modifiersFirst, .maybe (under .typeParameters [.typeParameters]), nameItem,
      .one (under .parameters [.formalParameters]), .maybe (only [.throws]),
      .one (under .body [.constructorBody])]]
  | .compactConstructorDeclaration => [[modifiersFirst, nameItem, .one (under .body [.block])]]
  | .annotationTypeElementDeclaration =>
    [[modifiersFirst, typeItem, nameItem, marks, dimensionsItem, marks,
      .maybe ⟨.under .value, elementValues⟩, marks]]
  | .spreadParameter =>
    [[modifiersFirst, .one (plain types), marks, noted, .one (only [.variableDeclarator])]]
  -- Annotations.
  | .annotationMark | .annotationCall | .annotationArgumentList | .elementValuePair
  | .elementValueArrayInitializer =>
    [[.several [⟨.loose, ⟨expressionRules ++ annotationRules ++ nameRules ++ elementRules, none⟩⟩]]]
  | .lineComment | .blockComment => [[]]
  | _ => [[.several [⟨.loose, quiet⟩]]]

end JavaOutline.Grammar
