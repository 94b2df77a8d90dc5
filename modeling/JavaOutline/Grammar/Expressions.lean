import JavaOutline.Grammar.Types

/-!
Expressions. Operators are read by level: a chain of operands at a level takes every operator that
binds at least as tightly. An assignment belongs to the operand that is its target, a cast of a
primary ends with it, and a sign or an update in front binds before one behind. The levels are the
precedences of `tree-sitter-java`, and chains stand for its rules that start with themselves.
-/
namespace JavaOutline.Grammar

open JavaOutline.Tree Shape

def binaryLevels : List (Nat × List String) :=
  [(4, ["||"]), (5, ["&&"]), (6, ["|"]), (7, ["^"]), (8, ["&"]), (9, ["==", "!="]),
    (10, ["<", ">", "<=", ">="]), (11, ["<<", ">>", ">>>"]), (12, ["+", "-"]),
    (13, ["*", "/", "%"])]

def assignmentOperators : List String :=
  ["=", "+=", "-=", "*=", "/=", "&=", "|=", "^=", "%=", "<<=", ">>=", ">>>="]

def signs : List String := ["+", "-", "!", "~"]

def updates : List String := ["++", "--"]

def binaryLink (place : Place) (level : Nat) (operators : List String) : Form × Form :=
  (nextSymbol operators,
    .node .binaryExpression
      (all [.field .left .held, .field .operator (.symbol operators),
        .field .right
          (.call (.expression (level + 1) { place with inSum := place.inSum || level == 12 }))]))

def instanceofLink (place : Place) : Form × Form :=
  let binding := otherWord (["instanceof"] ++ if place.inLabel then ["when"] else [])
  let pattern := either [all [expressionName, sym "("], all [genericType .guarded, sym "("]]
  -- An operand behind the type arguments makes them two comparisons.
  let compared := all [genericType .guarded,
    .peek fun t => t.shape matches .lexeme _ ||
      t.shape == .symbol && ["(", "!", "~", "\"", "\"\"\""].contains t.text]
  (key "instanceof",
    .node .instanceofExpression
      (all [.field .left .held, key "instanceof", whenever (key "final") (key "final"),
        choose
          [(all [pattern, .call .recordPattern], .field .pattern (.call .recordPattern)),
            (compared, .field .right (dottedType .guarded))]
          (all [.field .right (.call (.anyType .guarded)),
            whenever binding (.field .name identifier)])]))

def conditionalLink (place : Place) : Form × Form :=
  (sym "?",
    .node .ternaryExpression
      (all [.field .condition .held, sym "?", .field .consequence expression, sym ":",
        .field .alternative (.call (.expression 3 { inLabel := place.inLabel }))]))

def updateLink : Form × Form :=
  (nextSymbol updates, .node .updateExpression (all [.held, .symbol updates]))

def links (level : Nat) (place : Place) : List (Form × Form) :=
  (if level ≤ 15 then [updateLink] else []) ++
    (binaryLevels.filter fun entry => level ≤ entry.1).map
      (fun entry => binaryLink place entry.1 entry.2) ++
    (if level ≤ 10 then [instanceofLink place] else []) ++
    (if level ≤ 3 then [conditionalLink place] else [])

/-- An expression of operators that bind at least as tightly as the level. -/
def expressionForm (level : Nat) (place : Place) : Form :=
  .chain (.call (.operand place)) (either ((links level place).map Prod.fst))
    (choose (links level place) .never)

def skippedItem : Form :=
  .pick (nextSymbol ["(", "[", openBrace]) .group .skip

def skippedChoiceForm : Form :=
  all
    [sym "?",
      .many (absent (either [nextSymbol [";", ":", ")", "]", closeBrace], .stop]))
        (.pick (sym "?") (.call .skippedChoice) skippedItem),
      sym ":"]

/-- Whether something that ends a case label follows before the statement ends, so that the arrow
just seen can belong to a lambda inside the label. -/
def labelGoesOn : Form :=
  all
    [.many (absent (either
          [nextSymbol [";", "->", ":", ",", ")", "]", closeBrace], key "when", .stop]))
        (.pick (sym "?") (.call .skippedChoice) skippedItem),
      either [nextSymbol ["->", ":", ","], key "when"]]

/-- Whether what follows reads as the body of a lambda inside a case label. A block is one unless
the next label or the end of the switch follows it. -/
def labelBody : Form :=
  .pick (sym openBrace)
    (all [.group, absent (either [nextSymbol [closeBrace], nextWord ["case", "default"]])])
    (all
      [.pick labelGoesOn .done .never, .call (.expression 0 { inLabel := true }),
        .pick (sym "->")
          (all [sym "->", .pick (sym openBrace) (all [.group, absent (sym ";")]) .done])
          (either [nextSymbol [":", ","], key "when"])])

/-- Whether a lambda starts here. In a case label the arrow may be the label's own. -/
def lambdaAhead (place : Place) : Form :=
  all
    [.pick (nextSymbol ["("]) .group expressionName, sym "->",
      if place.inLabel then labelBody else .done]

def lambdaParameters : Form :=
  let listed := all [expressionName, .many (sym ",") (all [sym ",", identifier])]
  choose
    [(otherWord [], expressionName),
      (all [sym "(", absent (nextWord plainModifiers), expressionName, nextSymbol [",", ")"]],
        .node .inferredParameters (parens listed)),
      (all [sym "(", nextWord (reservedWords.filter (· != "sealed") ++ valueWords)], .never)]
    (.call .formalParameters)

def lambda (place : Place) : Form :=
  .node .lambdaExpression
    (all [.field .parameters lambdaParameters, sym "->",
      .field .body
        (.pick (sym openBrace) (.call .block)
          (.call (.expression 0 { inLabel := place.inLabel })))])

/-- Words that cannot follow a dot in the name of a type inside an expression. -/
def selectorWords : List String := ["class", "this", "super", "new"]

def dottedName : Form :=
  let start := identifierBut (expressionWords ++ reservedWords)
  let part := identifierBut selectorWords
  all [start, .many (all [sym ".", part]) (all [sym ".", part])]

/-- Whether an operand starts here that no operator could start. -/
def operandAhead (place : Place) : Form :=
  choose
    [(if place.inLabel then key "when" else .never,
        all [key "when", nextSymbol ["->", ":", ","]])]
    (.peek fun t =>
      match t.shape with
      | .word => t.text != "instanceof"
      | .symbol => ["(", "!", "~", "@", "\"", "\"\"\""].contains t.text
      | .lexeme _ => true)

def updateAhead (place : Place) : Form :=
  all [.symbol updates, operandAhead place]

/-- Whether a cast starts here. A name in parentheses before a sign is the left operand of a sum,
unless no sum is open and the signed operand is a factor. -/
def castAhead (place : Place) : Form :=
  let type := Shape.call (Goal.anyType .guarded)
  let clear := if place.inSum then Shape.never else .done
  let factor := all [clear, .call (.castValue place), nextSymbol ["*", "/", "%"]]
  choose
    [(all [sym "(", dottedName, sym ")"],
        all [sym "(",
          .pick (all [identifier, sym ")"])
            (all [identifier, sym ")",
              either [operandAhead place, updateAhead place, all [nextSymbol ["+", "-"], factor]]])
            (all [dottedName, sym ")",
              either [operandAhead place, updateAhead place,
                all [nextSymbol ["+", "-"], clear]]])]),
      (all [sym "(", type, sym ")"],
        all [sym "(", type, sym ")",
          either [operandAhead place, nextSymbol ["+", "-", "++", "--"]]])]
    (all [sym "(", type, .many (sym "&") (all [sym "&", .call (.anyType .free)]), sym ")",
      operandAhead place])

def cast (place : Place) : Form :=
  let type (spot : TypeSpot) : Form := .field .type (.call (.anyType spot))
  .node .castExpression
    (all [sym "(", type .guarded, .many (sym "&") (all [sym "&", type .free]), sym ")",
      .field .value (.call (.castValue place))])

/-- The operand of a cast; only one that is no primary takes an update behind it. -/
def castValueForm (place : Place) : Form :=
  .pick (either [nextSymbol (signs ++ updates), key "switch",
      all [absent (lambdaAhead place), castAhead place]])
    (.call (.expression 15 place)) (.call (.operand place))

def assignable (k : Kind) : Bool :=
  k == .rule .identifier || k == .rule .fieldAccess || k == .rule .arrayAccess

def operandForm (place : Place) : Form :=
  choose
    [(all [sym "(", either [nextWord plainModifiers, .cut "non-sealed"]],
        .pick (lambdaAhead place) (lambda place) .never),
      (nextSymbol signs,
        .node .unaryExpression
          (all [.field .operator (.symbol signs), .field .operand (.call (.operand place))])),
      (nextSymbol updates,
        .node .updateExpression (all [.symbol updates, .call (.operand place)])),
      (lambdaAhead place, lambda place),
      (key "switch", .call .switchExpression),
      (castAhead place, cast place)]
    (.chain (.call (.primary place))
      (all [.heldIs assignable, nextSymbol assignmentOperators])
      (.node .assignmentExpression
        (all [.field .left .held, .field .operator (.symbol assignmentOperators),
          .field .right (.call (.expression 0 { inLabel := place.inLabel }))])))

def isLiteralRule (r : Rule) : Bool :=
  [Rule.decimalIntegerLiteral, .hexIntegerLiteral, .octalIntegerLiteral, .binaryIntegerLiteral,
    .decimalFloatingPointLiteral, .hexFloatingPointLiteral, .characterLiteral].contains r

def isStringPart (r : Rule) : Bool :=
  [Rule.stringFragment, .escapeSequence, .multilineStringFragment].contains r

def stringLiteral : Form :=
  let embedded := Shape.node .stringInterpolation
    (all [sym "\\\x7b", expression, sym closeBrace])
  let parts := Shape.many (either [.lexeme isStringPart, sym "\\\x7b"])
    (.pick (.lexeme isStringPart) (.lexeme isStringPart) embedded)
  .node .stringLiteral
    (.pick (sym "\"\"\"") (all [sym "\"\"\"", parts, sym "\"\"\""])
      (all [sym "\"", parts, sym "\""]))

def stringAhead : Form :=
  nextSymbol ["\"", "\"\"\""]

def argumentsForm : Form :=
  .node .argumentList (parens (commaSeparatedTo ")" expression))

def objectCreation : Form :=
  all
    [key "new", annotationsForm,
      whenever (sym "<") (all [.field .typeArguments (.call .typeArguments), annotationsForm]),
      .field .type (.call (.simpleType .free)), .field .arguments (.call .arguments),
      whenever (sym openBrace) (.call .classBody)]

def arrayCreation : Form :=
  let sized := Shape.node .dimensionsExpr (all [annotationsForm, sym "[", expression, sym "]"])
  let sizedAhead := all [absent dimensionsAhead, skippedNotes, sym "["]
  all
    [key "new", annotationsForm, .field .type (.call (.simpleType .free)),
      .pick dimensionsAhead
        (all [.field .dimensions (.call .dimensions), .field .value (.call .arrayInitializer)])
        (all [.field .dimensions (all [sized, .many sizedAhead sized]),
          whenever dimensionsAhead
            (all [.field .dimensions (.call .dimensions), absent (sym "[")])])]

def creationForm : Form :=
  .pick (all [key "new", skippedNotes, .call (.simpleType .free), skippedNotes, sym "["])
    (.node .arrayCreationExpression arrayCreation)
    (.node .objectCreationExpression objectCreation)

def referenceTarget : Form :=
  all
    [sym "::", whenever (sym "<") (.call .typeArguments),
      .pick (key "new") (key "new") identifier]

/-- A method reference or a class literal on a type that is no expression. -/
def typeLed (spot : TypeSpot) : Form :=
  .pick (all [.call (.anyType spot), sym "::"])
    (.node .methodReference (all [.call (.anyType spot), referenceTarget]))
    (.node .classLiteral (all [.call (.plainType spot), sym ".", key "class"]))

def superReference : Form :=
  .node .methodReference
    (all
      [.node .scopedTypeIdentifier
          (all [.call (.simpleType .guarded), sym ".", .word .typeIdentifier (· == "super")]),
        referenceTarget])

def nameLed : Form :=
  let type := Shape.call (Goal.plainType .guarded)
  choose
    [(all [dottedName, sym "::"], identifier),
      (all [type, sym "::"], typeLed .guarded),
      (all [.call (.simpleType .guarded), sym ".", key "super", sym "::"], superReference),
      (all [type, sym ".", key "class",
        absent (nextSymbol (["("] ++ assignmentOperators))], typeLed .guarded),
      (all [identifier, sym "("],
        .node .methodInvocation
          (all [.field .name identifier, .field .arguments (.call .arguments)]))]
    identifier

def primaryStart : Form :=
  choose
    [(.lexeme isLiteralRule, .lexeme isLiteralRule),
      (stringAhead, stringLiteral),
      (sym "(", parenthesized),
      (sym "@", typeLed .guarded),
      (nextWord ["new"], .call .creation),
      (nextWord ["this"], thisWord),
      (nextWord ["super"], all [superWord, nextSymbol [".", "::"]]),
      (nextWord ["true"], .word .trueLiteral (· == "true")),
      (nextWord ["false"], .word .falseLiteral (· == "false")),
      (nextWord ["null"], .word .nullLiteral (· == "null")),
      (nextWord primitiveWords, typeLed .guarded),
      (otherWord ["switch"], nameLed)]
    .never

def methodLink (between : Form) : Form :=
  .node .methodInvocation
    (all [.field .object .held, sym ".", between,
      whenever (sym "<") (.field .typeArguments (.call .typeArguments)),
      .field .name (identifierBut ["this", "super", "new"]),
      .field .arguments (.call .arguments)])

def fieldLink (between : Form) : Form :=
  .node .fieldAccess
    (all [.field .object .held, sym ".", between,
      .field .field (.pick (key "this") thisWord identifier)])

def selectors : List (Form × Form) :=
  let whole := Shape.heldIs (· != .rule .superWord)
  let member := identifierBut ["this", "super", "new"]
  let outer := all [superWord, sym "."]
  [(all [whole, sym ".", key "new"],
      .node .objectCreationExpression (all [.held, sym ".", objectCreation])),
    (all [whole, sym ".", stringAhead],
      .node .templateExpression
        (all [.field .templateProcessor .held, sym ".",
          .field .templateArgument stringLiteral])),
    (all [sym ".", outer, either [sym "<", all [member, sym "("]]], methodLink outer),
    (all [sym ".", outer, otherWord []], fieldLink outer),
    (all [sym ".", either [all [.call .typeArguments, absent (key "super")],
        all [member, sym "("]]], methodLink .done),
    (all [sym ".", .pick whole (otherWord ["super", "new"]) (otherWord ["super"])],
      fieldLink .done),
    (all [whole, sym "["],
      .node .arrayAccess
        (all [.field .array .held, sym "[", .field .index expression, sym "]"])),
    (sym "::", .node .methodReference (all [.held, referenceTarget]))]

def primaryForm : Form :=
  .chain primaryStart (either (selectors.map Prod.fst)) (choose selectors .never)

def arrayInitializerForm : Form :=
  let value := Shape.pick (sym openBrace) (.call .arrayInitializer) expression
  .node .arrayInitializer
    (braces
      (all [.pick (nextSymbol [closeBrace, ","]) .done
          (all [value,
            .many (all [sym ",", absent (nextSymbol [closeBrace])]) (all [sym ",", value])]),
        whenever (sym ",") (sym ",")]))

end JavaOutline.Grammar
