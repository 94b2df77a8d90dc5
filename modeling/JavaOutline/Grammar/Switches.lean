import JavaOutline.Grammar.Expressions

/-!
Switches with their labels, and the patterns of labels and type tests. The rules are those of
`tree-sitter-java`; of an empty call and an empty record pattern, which look the same, it takes the
one that what follows allows.
-/
namespace JavaOutline.Grammar

open JavaOutline.Tree Shape

def recordPatternForm : Form :=
  let nested := either [all [identifier, sym "("], all [genericType .guarded, sym "("]]
  let component := choose
    [(all [key "_", nextSymbol [",", ")"]],
        .node .recordPatternComponent (.word .underscorePattern (· == "_"))),
      (nested, .call .recordPattern)]
    (.node .recordPatternComponent
      (all [absent (key "_"), .call (.plainType .guarded), identifier]))
  .node .recordPattern
    (all [.pick (all [identifier, sym "("]) identifier (genericType .guarded),
      .node .recordPatternBody (parens (commaSeparatedTo ")" component))])

/-- A call whose arguments are nothing but such calls, which reads like a record pattern too. -/
def emptyCallForm : Form :=
  all [identifier, sym "(", commaSeparatedTo ")" (.call .emptyCall), sym ")"]

def caseValues : Form :=
  let typed := all [.call (.plainType .guarded), otherWord ["when", "instanceof"]]
  let value := Shape.call (Goal.expression 0 { inLabel := true })
  choose
    [(typed, .node .pattern (.node .typePattern (all [.call (.plainType .guarded), identifier]))),
      (all [.call .emptyCall, absent (nextSymbol ["->", ":"])], commaSeparated value),
      (all [absent (nextWord expressionWords), .call .recordPattern],
        .node .pattern (.call .recordPattern))]
    (commaSeparated value)

def switchLabelForm : Form :=
  let guarded := Shape.node .guard
    (all [key "when", .call (.expression 0 { inLabel := true })])
  .node .switchLabel
    (.pick (key "default") (key "default")
      (all [key "case", caseValues, whenever (key "when") guarded]))

def expressionStatement : Form :=
  .node .expressionStatement (all [expression, sym ";"])

def throwStatement : Form :=
  .node .throwStatement (all [key "throw", expression, sym ";"])

/-- The body of a switch: labels with arrows, or labels with colons and statements. -/
def switchBlock : Form :=
  let rule := Shape.node .switchRule
    (all [.call .switchLabel, sym "->",
      choose [(key "throw", throwStatement), (sym openBrace, .call .block)] expressionStatement])
  let entry := Shape.node .switchBlockStatementGroup
    (all [.call .switchLabel, sym ":",
      .many (absent (either [nextSymbol [closeBrace], nextWord ["case", "default"]]))
        (.call (.statement false))])
  let more := absent (sym closeBrace)
  .node .switchBlock
    (braces (.pick (all [.call .switchLabel, sym "->"]) (.many more rule) (.many more entry)))

def switchExpressionForm : Form :=
  .node .switchExpression
    (all [key "switch", .field .condition parenthesized, .field .body switchBlock])

end JavaOutline.Grammar
