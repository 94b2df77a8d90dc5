import JavaOutline.Grammar.Declarations
import JavaOutline.Grammar.Switches

/-!
Statements. A statement that starts with a name is a declaration where a type and a further name
stand in front, and an expression otherwise. The rules are those of `tree-sitter-java`; `yield`,
`record` and the like are words of a statement only where it takes them for one.
-/
namespace JavaOutline.Grammar

open JavaOutline.Tree Shape

def statementList : Form :=
  .pick (sym closeBrace) .done
    (all [.call (.statement true), .many (absent (sym closeBrace)) (.call (.statement false))])

def blockForm : Form :=
  .node .block (braces statementList)

def ifStatement (opens : Bool) : Form :=
  .node .ifStatement
    (all [key "if", .field .condition parenthesized,
      .field .consequence (.call (.statement opens)),
      whenever (key "else") (all [key "else", .field .alternative (.call (.statement opens))])])

def whileStatement (opens : Bool) : Form :=
  .node .whileStatement
    (all [key "while", .field .condition parenthesized, .field .body (.call (.statement opens))])

def doStatement : Form :=
  .node .doStatement
    (all [key "do", .field .body (.call (.statement true)), key "while",
      .field .condition parenthesized, sym ";"])

def declarationAhead : Form :=
  all
    [skippedType, identifierBut ["instanceof"],
      either [nextSymbol [";", "=", ",", ":"], dimensionsAhead]]

def forStatement (opens : Bool) : Form :=
  let each := all [skippedType, identifier, whenever dimensionsAhead (.call .dimensions), sym ":"]
  .pick (all [key "for", sym "(", each])
    (.node .enhancedForStatement
      (all [key "for", sym "(", modifiedType, declaratorId, sym ":", .field .value expression, sym ")",
        .field .body (.call (.statement opens))]))
    (.node .forStatement
      (all [key "for", sym "(",
        .pick (either [declarationAhead, nextWord plainModifiers])
          (.field .init localVariableDeclaration)
          (all [commaSeparatedTo ";" (.field .init expression), sym ";"]),
        .pick (nextSymbol [";"]) .done (.field .condition expression), sym ";",
        commaSeparatedTo ")" (.field .update expression), sym ")",
        .field .body (.call (.statement opens))]))

def returnStatement : Form :=
  .node .returnStatement
    (all [key "return", .pick (nextSymbol [";"]) .done expression, sym ";"])

def assertStatement : Form :=
  .node .assertStatement
    (all [key "assert", expression, whenever (sym ":") (all [sym ":", expression]), sym ";"])

def jumpStatement (r : Rule) (word : String) : Form :=
  .node r (all [key word, .pick (nextSymbol [";"]) .done identifier, sym ";"])

def synchronizedStatement : Form :=
  .node .synchronizedStatement
    (all [key "synchronized", parenthesized, .field .body (.call .block)])

/-- Whether the word `yield` starts a statement of its own and not an expression. -/
def yieldAhead : Form :=
  let operand := operandAhead {}
  let listed := all [sym "(", .many (absent (nextSymbol [",", ")"])) skippedItem, sym ","]
  all
    [key "yield",
      choose
        [(sym "(", either [all [.group, sym "->"],
            absent (either [all [sym "(", sym ")"], listed])])]
        (either [operand, nextSymbol ["+", "-"], updateAhead {}])]

def yieldStatement : Form :=
  .node .yieldStatement (all [key "yield", expression, sym ";"])

def labeledStatement (opens : Bool) : Form :=
  .node .labeledStatement (all [identifier, sym ":", .call (.statement opens)])

def catchClause : Form :=
  let type := Shape.node .catchType
    (all [.call (.plainType .free), .many (sym "|") (all [sym "|", .call (.plainType .free)])])
  .node .catchClause
    (all [key "catch",
      parens (.node .catchFormalParameter (all [modifiersAfter, type, declaratorId])),
      .field .body (.call .block)])

def finallyClause : Form :=
  .node .finallyClause (all [key "finally", .call .block])

/-- Words that start a statement of their own wherever one may stand. -/
def statementWords : List String :=
  ["if", "while", "for", "do", "return", "break", "continue", "throw", "try", "assert", "import",
    "package", "class", "interface", "enum"]

def resource : Form :=
  let declared := all [skippedType, otherWord []]
  let reserved := all [nextWord reservedWords, .skip, nextSymbol [";", ")"]]
  let known (k : Kind) : Bool := k == .rule .identifier || k == .rule .fieldAccess
  .node .resource
    (.pick (either [declared, nextWord plainModifiers])
      (all [modifiedType, declaratorId, sym "=", .field .value expression])
      (all [absent reserved, .chain (.call (.primary {})) (.heldIs fun k => !known k) .never]))

def tryStatement : Form :=
  let catches := Shape.many (key "catch") catchClause
  let finish := whenever (key "finally") finallyClause
  .pick (all [key "try", sym "("])
    (.node .tryWithResourcesStatement
      (all [key "try",
        .field .resources
          (.node .resourceSpecification
            (parens
              (all [resource,
                .many (all [sym ";", absent (nextSymbol [")"])]) (all [sym ";", resource]),
                whenever (sym ";") (sym ";")]))),
        .field .body (.call .block), catches, finish]))
    (.node .tryStatement
      (all [key "try", .field .body (.call .block), nextWord ["catch", "finally"], catches,
        finish]))

/-- Whether a switch is an operand of an expression. Before a semicolon it is one where it opens a
list of statements, or where the semicolon has to belong to it. -/
def switchOperand (opens : Bool) : Form :=
  let operator := either
    [nextSymbol (["?"] ++ (binaryLevels.map Prod.snd).flatten), key "instanceof"]
  let final := if opens then sym ";" else all [sym ";", key "else"]
  all
    [key "switch", .group, .group,
      either [operator, final,
        all [.symbol updates, either [operator, nextSymbol ([";"] ++ updates)]]]]

def keywordStatements (opens : Bool) : List (Form × Form) :=
  [(key "if", ifStatement opens),
    (key "while", whileStatement opens),
    (key "for", forStatement opens),
    (key "do", doStatement),
    (switchOperand opens, expressionStatement),
    (key "switch", .call .switchExpression),
    (key "return", returnStatement),
    (key "break", jumpStatement .breakStatement "break"),
    (key "continue", jumpStatement .continueStatement "continue"),
    (key "throw", throwStatement),
    (key "try", tryStatement),
    (key "assert", assertStatement),
    (all [key "synchronized", sym "("], synchronizedStatement),
    (yieldAhead, yieldStatement),
    (key "import", importDeclaration),
    (all [whenever (sym "@") skippedNote, key "package"], packageDeclaration),
    (moduleAhead, moduleDeclaration)]

def statementForm (opens : Bool) : Form :=
  choose
    ([(sym openBrace, .call .block), (sym ";", sym ";")] ++ keywordStatements opens ++
      [(typeDeclarationAhead, .call .typeDeclaration),
        (all [identifierBut (reservedWords ++ expressionWords ++ plainModifiers), sym ":"],
          labeledStatement opens),
        (all [modifierAhead, skippedModifiers, key "record"], .never),
        (all [nextSymbol ["@"], skippedNotes, nextWord ["open", "module"]], .never),
        (declarationAhead, localVariableDeclaration),
        (all [skippedNotes, key "package"], packageDeclaration),
        (either [nextWord plainModifiers, .cut "non-sealed"], .never)])
    expressionStatement

def constructorCallAhead : Form :=
  let rest := absent (either
    [nextSymbol [";", closeBrace], all [key "super", sym "("], .stop])
  choose
    [(all [whenever (sym "<") (.call .typeArguments), .keyword ["this", "super"], sym "("], .done)]
    (all [.many rest skippedItem, key "super", sym "("])

def constructorCall : Form :=
  let typed := whenever (sym "<") (.field .typeArguments (.call .typeArguments))
  let target := Shape.field .constructor
    (.pick (key "this") thisWord superWord)
  .node .explicitConstructorInvocation
    (all
      [.pick (all [whenever (sym "<") (.call .typeArguments), .keyword ["this", "super"], sym "("])
          (all [typed, target])
          (all [.field .object (.call (.primary {})), sym ".", typed,
            .field .constructor superWord]),
        .field .arguments (.call .arguments), sym ";"])

def constructorBodyForm : Form :=
  .node .constructorBody
    (braces
      (.pick constructorCallAhead
        (all [constructorCall, statementList]) statementList))

/-- A whole source: statements, declarations among them, and methods outside of types. -/
def programForm : Form :=
  let method := all
    [absent (nextWord statementWords), absent typeDeclarationAhead,
      .pick (all [skippedModifiers, sym "<"])
        (all [skippedModifiers, typeParameters, skippedNotes, .call (.plainType .free)])
        skippedType,
      identifier,
      .call .formalParameters,
      either [nextSymbol [";", openBrace], key "throws", dimensionsAhead]]
  .node .program
    (.many (absent .stop)
      (choose [(all [skippedNotes, key "package"], packageDeclaration),
        (method, methodDeclaration)] (.call (.statement true))))

end JavaOutline.Grammar
