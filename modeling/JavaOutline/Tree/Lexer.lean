import JavaOutline.Text.Bytes
import JavaOutline.Text.Identifier
import JavaOutline.Tree.Pattern
import JavaOutline.Tree.Token

/-!
From characters to tokens. The text is cut into pieces: blanks, comments and tokens, each the
longest of its kind. Strings are cut into quotes, fragments and escapes; an embedded expression of a
string is cut like other code, so the cutting keeps a stack of what it stands in. The pieces are the
tokens of `tree-sitter-java` 0.23. Its lexer is asked for one token at a time, and only for one that
the grammar has room for; here the text is cut first, and the grammar takes apart what it reads
otherwise, such as brackets that close type arguments. Tokens that are made up to recover from an
error stay outside.
-/
namespace JavaOutline.Tree

namespace Literal

open Pattern

def digit : Pattern := oneOf "0123456789"

def hexDigit : Pattern := oneOf "0123456789abcdefABCDEF"

def plainDigits : Pattern :=
  any [text "0",
    all [oneOf "123456789",
      maybe (all [maybe (text "_"), separated (plus digit) (plus (text "_"))])]]

def anyDigits : Pattern := separated (plus digit) (text "_")

def hexDigits : Pattern := separated (plus hexDigit) (text "_")

def longMark : Pattern := maybe (oneOf "lL")

def floatMark : Pattern := oneOf "fFdD"

def exponent : Pattern := all [oneOf "eE", maybe (oneOf "+-"), anyDigits]

def decimalFloat : Pattern :=
  any [all [anyDigits, text ".", maybe anyDigits, maybe exponent, maybe floatMark],
    all [text ".", anyDigits, maybe exponent, maybe floatMark],
    all [plainDigits, exponent, maybe floatMark],
    all [plainDigits, maybe exponent, floatMark]]

def hexMark : Pattern := any [text "0x", text "0X"]

def hexFloat : Pattern :=
  all [hexMark,
    any [all [hexDigits, maybe (text ".")], all [maybe hexDigits, text ".", hexDigits]],
    maybe (all [oneOf "pP", maybe (oneOf "+-"), plainDigits, maybe floatMark])]

/-- The numbers by rule; of two that match equally far the earlier counts. -/
def numbers : List (Rule × Pattern) :=
  [(.decimalIntegerLiteral, all [plainDigits, longMark]),
    (.hexIntegerLiteral, all [hexMark, hexDigits, longMark]),
    (.octalIntegerLiteral,
      all [any [text "0o", text "0O", text "0"], separated (plus (oneOf "01234567")) (text "_"),
        longMark]),
    (.binaryIntegerLiteral,
      all [any [text "0b", text "0B"], separated (plus (oneOf "01")) (text "_"), longMark]),
    (.decimalFloatingPointLiteral, decimalFloat),
    (.hexFloatingPointLiteral, hexFloat)]

def character : Pattern :=
  all [text "'", plus (any [noneOf "\\'\n", all [text "\\", .char fun _ => true]]), text "'"]

def escape : Pattern :=
  all [text "\\",
    any [noneOf "xu01234567",
      all [oneOf "01234567", maybe (oneOf "01234567"), maybe (oneOf "01234567")],
      all [text "x", hexDigit, hexDigit],
      all [text "u", hexDigit, hexDigit, hexDigit, hexDigit],
      all [text "u\x7b", plus hexDigit, text "\x7d"]]]

/-- The longest match among several patterns, the first of those that match equally far. -/
def best (patterns : List (Rule × Pattern)) (chars : List Char) : Option (Rule × Nat) :=
  patterns.foldl (fun found entry =>
    match found, entry.2.longest chars with
    | some (_, size), some other => if size < other then some (entry.1, other) else found
    | none, some other => some (entry.1, other)
    | _, none => found) none

end Literal

def symbols : List String :=
  [">>>=", ">>>", "<<=", ">>=", "...", "==", "!=", "&&", "||", "<=", ">=", "<<", ">>", "++", "--",
    "+=", "-=", "*=", "/=", "&=", "|=", "^=", "%=", "->", "::", "(", ")", "\x7b", "\x7d", "[", "]",
    ";", ",", ".", "@", "=", ">", "<", "!", "~", "?", ":", "+", "-", "*", "/", "&", "|", "^", "%"]

def isSpace (c : Char) : Bool :=
  c == ' ' || (9 ≤ c.toNat && c.toNat ≤ 13)

def blockEnd? : List Char → Option Nat
  | '*' :: '/' :: _ => some 2
  | _ :: rest => (blockEnd? rest).map (· + 1)
  | [] => none

def comment? : List Char → Option (Rule × Nat)
  | '/' :: '/' :: rest => some (.lineComment, 2 + (rest.takeWhile (· != '\n')).length)
  | '/' :: '*' :: rest => (blockEnd? rest).map fun size => (.blockComment, 2 + size)
  | _ => none

/-- The number of characters of a fragment of a text block behind its quote, where a quote may
stand only behind a backslash. -/
def quotedRun : List Char → Nat
  | '\\' :: '"' :: rest => quotedRun rest + 2
  | c :: rest => if c == '"' || c == '\\' then 0 else quotedRun rest + 1
  | [] => 0

/-- Where the text is being cut: in code with a number of open braces, in a string on one line, or
in a text block. -/
inductive Mode where
  | code (braces : Nat)
  | line
  | block
deriving DecidableEq, Repr, Inhabited

inductive Role where
  | blank
  | comment (r : Rule)
  | token (shape : Token.Class)
deriving DecidableEq, Repr, Inhabited

structure Piece where
  size : Nat
  role : Role
  modes : List Mode
deriving DecidableEq, Repr, Inhabited

def plainRun (chars : List Char) : Nat :=
  (chars.takeWhile fun c => c != '"' && c != '\\').length

def codePiece? (braces : Nat) (outer : List Mode) (chars : List Char) : Option Piece :=
  let here := Mode.code braces :: outer
  let symbol (size : Nat) (modes : List Mode) : Option Piece :=
    some ⟨size, .token .symbol, modes⟩
  match chars with
  | [] => none
  | '"' :: '"' :: '"' :: _ => symbol 3 (.block :: here)
  | '"' :: _ => symbol 1 (.line :: here)
  | '\x7b' :: _ => symbol 1 (.code (braces + 1) :: outer)
  | '\x7d' :: _ =>
    if braces = 0 && !outer.isEmpty then symbol 1 outer else symbol 1 (.code (braces - 1) :: outer)
  | '\'' :: _ =>
    (Literal.character.longest chars).map fun size =>
      ⟨size, .token (.lexeme .characterLiteral), here⟩
  | c :: _ =>
    if isSpace c then some ⟨(chars.takeWhile isSpace).length, .blank, here⟩
    else if Text.isWordStart c then
      some ⟨(chars.takeWhile Text.isWordPart).length, .token .word, here⟩
    else
      match comment? chars with
      | some (r, size) => some ⟨size, .comment r, here⟩
      | none =>
        match Literal.best Literal.numbers chars with
        | some (r, size) => some ⟨size, .token (.lexeme r), here⟩
        | none =>
          match symbols.find? fun s => s.toList.isPrefixOf chars with
          | some s => symbol s.length here
          | none => none

def linePiece? (outer : List Mode) (chars : List Char) : Option Piece :=
  match chars with
  | [] => none
  | '"' :: _ => some ⟨1, .token .symbol, outer⟩
  | '\\' :: '\x7b' :: _ => some ⟨2, .token .symbol, .code 0 :: .line :: outer⟩
  | '\\' :: _ =>
    (Literal.escape.longest chars).map fun size =>
      ⟨size, .token (.lexeme .escapeSequence), .line :: outer⟩
  | _ => some ⟨plainRun chars, .token (.lexeme .stringFragment), .line :: outer⟩

/-- The next piece of a text block. A comment is taken for one where it reaches further than the
fragment that starts at the same place. -/
def blockPiece? (outer : List Mode) (chars : List Char) : Option Piece :=
  let here := Mode.block :: outer
  match chars with
  | [] => none
  | '"' :: '"' :: '"' :: _ => some ⟨3, .token .symbol, outer⟩
  | '"' :: rest => some ⟨quotedRun rest + 1, .token (.lexeme .multilineStringFragment), here⟩
  | '\\' :: '\x7b' :: _ => some ⟨2, .token .symbol, .code 0 :: here⟩
  | '\\' :: _ :: _ => some ⟨2, .token (.lexeme .escapeSequence), here⟩
  | '\\' :: [] => none
  | _ =>
    let fragment := plainRun chars
    let spaces := (chars.takeWhile isSpace).length
    match comment? (chars.drop spaces) with
    | some (r, size) =>
      if fragment < spaces + size then
        if spaces = 0 then some ⟨size, .comment r, here⟩ else some ⟨spaces, .blank, here⟩
      else some ⟨fragment, .token (.lexeme .multilineStringFragment), here⟩
    | none => some ⟨fragment, .token (.lexeme .multilineStringFragment), here⟩

def piece? (modes : List Mode) (chars : List Char) : Option Piece :=
  match modes with
  | [] => none
  | .code braces :: outer => codePiece? braces outer chars
  | .line :: outer => linePiece? outer chars
  | .block :: outer => blockPiece? outer chars

/-- The tokens and comments of a text that starts at a byte offset; `fuel` bounds the number of
pieces. -/
def scan : Nat → List Mode → Nat → List Char → Option (List Token × List Comment)
  | _, _, _, [] => some ([], [])
  | 0, _, _, _ :: _ => none
  | fuel + 1, modes, offset, chars => do
    let piece ← piece? modes chars
    let lexeme := chars.take piece.size
    let stop := offset + Text.byteSize lexeme
    let (tokens, comments) ← scan fuel piece.modes stop (chars.drop piece.size)
    match piece.role with
    | .blank => some (tokens, comments)
    | .comment r => some (tokens, ⟨r, offset, stop⟩ :: comments)
    | .token shape => some (⟨shape, String.ofList lexeme, offset, stop⟩ :: tokens, comments)

def byteOrderMark : Char := '\ufeff'

/-- The tokens and comments of a whole text, or nothing where some place starts no piece. -/
def tokens? (chars : List Char) : Option (List Token × List Comment) :=
  match chars with
  | c :: rest =>
    if c = byteOrderMark then scan rest.length [.code 0] c.utf8Size rest
    else scan chars.length [.code 0] 0 chars
  | [] => some ([], [])

end JavaOutline.Tree
