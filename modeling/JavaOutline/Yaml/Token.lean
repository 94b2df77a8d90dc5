import JavaOutline.Yaml.Tag

/-!
The tokens of a YAML text. Indentation opens and closes blocks, so the columns of the open blocks
are kept while a text is read. A key is known as a key only when its colon comes: until then the
place where it started is kept, and the tokens that open the key are put in there. This is the
scanner of `libyaml`, whose queue of tokens is the list of all tokens here.
-/
namespace JavaOutline.Yaml

inductive Token where
  | directive (directive : Directive)
  | documentStart
  | documentEnd
  | blockSequence
  | blockMapping
  | blockEnd
  | sequenceOpen
  | sequenceClose
  | mappingOpen
  | mappingClose
  | blockEntry
  | flowEntry
  | key
  | value
  | alias (name : String)
  | anchor (name : String)
  | tag (tag : TagText)
  | scalar (style : ScalarStyle) (text : String)
deriving DecidableEq, Repr, Inhabited

structure KeyStart where
  position : Nat
  required : Bool
  index : Nat
  line : Nat
  column : Nat
deriving DecidableEq, Repr, Inhabited

structure Scan where
  cursor : Cursor
  tokens : List Token := []
  blocks : List Nat := []
  keyStart : Option KeyStart := none
  /-- The same for the collections around it, one for each open flow collection. -/
  around : List (Option KeyStart) := []
  keyAllowed : Bool := true
deriving DecidableEq, Repr, Inhabited

namespace Scan

def inFlow (scan : Scan) : Bool :=
  !scan.around.isEmpty

/-- The first column that lies inside of the innermost block. -/
def innerColumn (scan : Scan) : Nat :=
  (scan.blocks.head?.map (· + 1)).getD 0

def push (scan : Scan) (token : Token) : Scan :=
  { scan with tokens := scan.tokens ++ [token] }

def insert (scan : Scan) (position : Nat) (token : Token) : Scan :=
  { scan with tokens := scan.tokens.take position ++ [token] ++ scan.tokens.drop position }

def skip (scan : Scan) (count : Nat) : Scan :=
  { scan with cursor := scan.cursor.skip count }

def allowKey (scan : Scan) (allowed : Bool) : Scan :=
  { scan with keyAllowed := allowed }

/-- Whether a place is too far back for a key: on an earlier line, or more than 1024 characters. -/
def isStale (scan : Scan) (start : KeyStart) : Bool :=
  start.line < scan.cursor.line || start.index + 1024 < scan.cursor.index

def fresh (scan : Scan) (start : Option KeyStart) : Option (Option KeyStart) :=
  match start with
  | none => some none
  | some start =>
    if !scan.isStale start then some (some start)
    else if start.required then none
    else some none

/-- Forgets the places that can no longer become keys, unless one has to. -/
def dropStale (scan : Scan) : Option Scan := do
  let keyStart ← scan.fresh scan.keyStart
  let around ← scan.around.mapM scan.fresh
  return { scan with keyStart, around }

def dropKey (scan : Scan) : Option Scan :=
  if scan.keyStart.any KeyStart.required then none else some { scan with keyStart := none }

def keepKey (scan : Scan) : Option Scan :=
  if scan.keyAllowed then do
    let cursor := scan.cursor
    let dropped ← scan.dropKey
    return { dropped with
      keyStart := some {
        position := scan.tokens.length
        required := !scan.inFlow && scan.blocks.head? = some cursor.column
        index := cursor.index
        line := cursor.line
        column := cursor.column } }
  else some scan

/-- Closes the blocks that lie right of a column. -/
def closeBlocks (scan : Scan) (column : Nat) : Scan :=
  if scan.inFlow then scan
  else
    let closed := scan.blocks.takeWhile (column < ·)
    { scan with
      blocks := scan.blocks.drop closed.length
      tokens := scan.tokens ++ closed.map fun _ => .blockEnd }

def closeAllBlocks (scan : Scan) : Scan :=
  if scan.inFlow then scan
  else { scan with blocks := [], tokens := scan.tokens ++ scan.blocks.map fun _ => .blockEnd }

/-- Opens a block at a column, if it lies inside of the innermost one; its token goes behind a number
of others. -/
def openBlock (scan : Scan) (column position : Nat) (token : Token) : Scan :=
  if scan.inFlow || column < scan.innerColumn then scan
  else { scan.insert position token with blocks := column :: scan.blocks }

def openBlockHere (scan : Scan) (token : Token) : Scan :=
  scan.openBlock scan.cursor.column scan.tokens.length token

/-- Moves over blanks, comments and line breaks. A tab counts as a blank only where no key may start;
a byte order mark may start a line. -/
def skipGaps : Nat → Scan → Scan
  | 0, scan => scan
  | fuel + 1, scan =>
    let start := scan.cursor
    let start := if start.column = 0 && start.next? = some '\ufeff' then start.skip 1 else start
    let tabs := scan.inFlow || !scan.keyAllowed
    let start := start.skipWhile fun c => c = ' ' || (tabs && c = '\t')
    let start := if start.next? = some '#' then start.skipWhile fun c => !isBreak c else start
    if start.at? isBreak then
      skipGaps fuel { scan with
        cursor := start.breakLine.2
        keyAllowed := scan.keyAllowed || !scan.inFlow }
    else { scan with cursor := start }

def documentMark (scan : Scan) (token : Token) : Option Scan := do
  let scan ← scan.closeAllBlocks.dropKey
  return (scan.push token).allowKey false |>.skip 3

def directive (scan : Scan) : Option Scan := do
  let scan ← scan.closeAllBlocks.dropKey
  let (directive, behind) ← directive? (scan.cursor.skip 1)
  return { (scan.push (.directive directive)).allowKey false with cursor := behind }

def openFlow (scan : Scan) (token : Token) : Option Scan := do
  let scan ← scan.keepKey
  let scan := { scan with keyStart := none, around := scan.keyStart :: scan.around }
  return (scan.push token).allowKey true |>.skip 1

def closeFlow (scan : Scan) (token : Token) : Option Scan := do
  let scan ← scan.dropKey
  let scan := match scan.around with
    | [] => scan
    | keyStart :: around => { scan with keyStart, around }
  return (scan.push token).allowKey false |>.skip 1

def flowEntry (scan : Scan) : Option Scan := do
  let scan ← scan.dropKey
  return (scan.push .flowEntry).allowKey true |>.skip 1

def blockEntry (scan : Scan) : Option Scan :=
  if !scan.inFlow && !scan.keyAllowed then none
  else do
    let scan ← (scan.openBlockHere .blockSequence).dropKey
    return (scan.push .blockEntry).allowKey true |>.skip 1

def key (scan : Scan) : Option Scan :=
  if !scan.inFlow && !scan.keyAllowed then none
  else do
    let scan ← (scan.openBlockHere .blockMapping).dropKey
    return (scan.push .key).allowKey (!scan.inFlow) |>.skip 1

/-- Reads a colon: of the key that started at the place kept, or of a key with a question mark. -/
def value (scan : Scan) : Option Scan :=
  match scan.keyStart with
  | some start =>
    let scan := (scan.insert start.position .key).openBlock start.column start.position .blockMapping
    some (({ scan with keyStart := none }.push .value).allowKey false |>.skip 1)
  | none =>
    if !scan.inFlow && !scan.keyAllowed then none
    else
      let scan := scan.openBlockHere .blockMapping
      some ((scan.push .value).allowKey (!scan.inFlow) |>.skip 1)

def node (scan : Scan) (read : Option (Token × Cursor)) : Option Scan := do
  let scan ← scan.keepKey
  let (token, behind) ← read
  return { (scan.push token).allowKey false with cursor := behind }

def plainScalar (scan : Scan) : Option Scan := do
  let scan ← scan.keepKey
  let plain ← plainText scan.inFlow scan.innerColumn (scan.cursor.rest.length + 1) [] {} scan.cursor
  return { (scan.push (.scalar .plain (String.ofList plain.text))).allowKey plain.endsLine with
    cursor := plain.behind }

def quotedScalar (scan : Scan) (style : ScalarStyle) (quote : Char) : Option Scan :=
  scan.node do
    let (text, behind) ← quotedText quote (scan.cursor.rest.length + 1) [] (scan.cursor.skip 1)
    return (.scalar style (String.ofList text), behind)

def blockScalar (scan : Scan) (style : ScalarStyle) : Option Scan := do
  let scan ← scan.dropKey
  let (text, behind) ← blockText (style = .folded) scan.blocks.head? (scan.cursor.skip 1)
  return { (scan.push (.scalar style (String.ofList text))).allowKey true with cursor := behind }

def isIndicator (c : Char) : Bool :=
  ['-', '?', ':', ',', '[', ']', '\x7b', '\x7d', '#', '&', '*', '!', '|', '>', '\'', '"', '%', '@',
    '\x60'].contains c

def token (scan : Scan) (c : Char) : Option Scan :=
  let rest := scan.cursor.rest.drop 1
  let inFlow := scan.inFlow
  if c = '%' && scan.cursor.column = 0 then scan.directive
  else if scan.cursor.atDocumentStart then scan.documentMark .documentStart
  else if scan.cursor.atDocumentEnd then scan.documentMark .documentEnd
  else match c with
  | '[' => scan.openFlow .sequenceOpen
  | '\x7b' => scan.openFlow .mappingOpen
  | ']' => scan.closeFlow .sequenceClose
  | '\x7d' => scan.closeFlow .mappingClose
  | ',' => scan.flowEntry
  | '*' => scan.node ((anchorName? (scan.cursor.skip 1)).map fun (name, behind) => (.alias name, behind))
  | '&' => scan.node ((anchorName? (scan.cursor.skip 1)).map fun (name, behind) => (.anchor name, behind))
  | '!' => scan.node ((tagText? inFlow scan.cursor).map fun (tag, behind) => (.tag tag, behind))
  | '\'' => scan.quotedScalar .singleQuoted '\''
  | '"' => scan.quotedScalar .doubleQuoted '"'
  | _ =>
    if c = '-' && endsOr isGap rest then scan.blockEntry
    else if c = '?' && (inFlow || endsOr isGap rest) then scan.key
    else if c = ':' && (inFlow || endsOr isGap rest) then scan.value
    else if c = '|' && !inFlow then scan.blockScalar .literal
    else if c = '>' && !inFlow then scan.blockScalar .folded
    else if !(isGap c || isIndicator c) || c = '-' || (!inFlow && (c = '?' || c = ':')) then
      scan.plainScalar
    else none

/-- Reads the rest of a text. At its end every block is closed, and no place may still have to
become a key. -/
def run : Nat → Scan → Option (List Token)
  | 0, _ => none
  | fuel + 1, scan => do
    let scan ← (skipGaps (scan.cursor.rest.length + 1) scan).dropStale
    let scan := scan.closeBlocks scan.cursor.column
    match scan.cursor.next? with
    | some c => run fuel (← scan.token c)
    | none => return (← scan.closeAllBlocks.dropKey).tokens

end Scan

def tokens? (text : List Char) : Option (List Token) :=
  if text.all isAllowed then Scan.run (text.length + 1) { cursor := ⟨text, 0, 0, 0⟩ } else none

end JavaOutline.Yaml
