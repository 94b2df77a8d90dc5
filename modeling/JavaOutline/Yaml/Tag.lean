import JavaOutline.Yaml.Scalar

/-!
Names around a node: anchors, tags and the directives that say what tag handles stand for. They are
read as by the scanner of `libyaml`; a version other than those it knows is refused with the
document.
-/
namespace JavaOutline.Yaml

def anchorName? (cursor : Cursor) : Option (String × Cursor) :=
  let name := cursor.rest.takeWhile isWord
  let behind := cursor.skip name.length
  let ends := endsOr (fun c => isGap c || ['?', ':', ',', ']', '\x7d', '%', '@', '\x60'].contains c)
  if name.isEmpty || !ends behind.rest then none else some (String.ofList name, behind)

/-- A tag as written: a handle and what follows it. A tag without a handle is complete. -/
structure TagText where
  handle : String
  name : String
deriving DecidableEq, Repr, Inhabited

/-- The characters of tags; marks of flow collections only where nothing else can be meant. -/
def isTagChar (anywhere : Bool) (c : Char) : Bool :=
  isWord c || [';', '/', '?', ':', '@', '&', '=', '+', '$', '.', '!', '~', '*', '\'', '(', ')'].contains c ||
    (anywhere && [',', '[', ']'].contains c)

def byteCount? (first : Nat) : Option Nat :=
  if first < 0x80 then some 1
  else if 0xC0 ≤ first && first < 0xE0 then some 2
  else if 0xE0 ≤ first && first < 0xF0 then some 3
  else if 0xF0 ≤ first && first < 0xF8 then some 4
  else none

/-- Reads the characters of a tag. Bytes may be written as a percent sign and two digits, and have
to add up to characters; some may still be missing. -/
def tagChars (anywhere : Bool) : Nat → List Char → Option (List Char × List Char)
  | missing, '%' :: a :: b :: rest => do
    let byte ← hexNumber? [a, b]
    let missing ←
      if missing = 0 then (byteCount? byte).map (· - 1)
      else if 0x80 ≤ byte && byte < 0xC0 then some (missing - 1)
      else none
    let (chars, behind) ← tagChars anywhere missing rest
    return (Char.ofNat byte :: chars, behind)
  | 0, c :: rest =>
    if c = '%' then none
    else if isTagChar anywhere c then do
      let (chars, behind) ← tagChars anywhere 0 rest
      return (c :: chars, behind)
    else some ([], c :: rest)
  | 0, [] => some ([], [])
  | _ + 1, _ => none

def tagHandle? (text : List Char) : Option (List Char × List Char) :=
  match text with
  | '!' :: rest =>
    let word := rest.takeWhile isWord
    match rest.drop word.length with
    | '!' :: behind => some ('!' :: word ++ ['!'], behind)
    | behind => some ('!' :: word, behind)
  | _ => none

/-- Whether a handle ends with a mark of its own. -/
def isClosedHandle (handle : List Char) : Bool :=
  handle.length > 1 && handle.getLast? = some '!'

def tagText? (inFlow : Bool) (cursor : Cursor) : Option (TagText × Cursor) := do
  let (tag, rest) ← match cursor.rest with
    | '!' :: '<' :: rest => do
      let (name, behind) ← tagChars true 0 rest
      match behind with
      | '>' :: behind => if name.isEmpty then none else some (⟨"", String.ofList name⟩, behind)
      | _ => none
    | text => do
      let (handle, rest) ← tagHandle? text
      let (name, behind) ← tagChars false 0 rest
      if isClosedHandle handle then
        if name.isEmpty then none
        else some (⟨String.ofList handle, String.ofList name⟩, behind)
      else
        let name := handle.drop 1 ++ name
        if name.isEmpty then some (⟨"", "!"⟩, behind)
        else some (⟨"!", String.ofList name⟩, behind)
  if endsOr isGap rest || (inFlow && rest.head? = some ',') then
    return (tag, cursor.moveTo rest)
  else none

inductive Directive where
  | version (major minor : Nat)
  | handle (handle tag : String)
deriving DecidableEq, Repr, Inhabited

def shortNumber? (text : List Char) : Option (Nat × List Char) :=
  let digits := text.takeWhile Char.isDigit
  if digits.isEmpty || digits.length > 9 then none
  else some (digits.foldl (fun number c => number * 10 + (c.toNat - '0'.toNat)) 0, text.drop digits.length)

def directiveValue? (name : List Char) (text : List Char) : Option (Directive × List Char) :=
  let start := text.dropWhile isSpace
  if name = "YAML".toList then do
    let (major, behind) ← shortNumber? start
    match behind with
    | '.' :: behind => do
      let (minor, behind) ← shortNumber? behind
      return (.version major minor, behind)
    | _ => none
  else if name = "TAG".toList then do
    let (handle, behind) ← tagHandle? start
    if handle != ['!'] && !isClosedHandle handle then none
    else if !behind.head?.any isSpace then none
    else do
      let (tag, behind) ← tagChars true 0 (behind.dropWhile isSpace)
      if tag.isEmpty || !endsOr isGap behind then none
      else return (.handle (String.ofList handle) (String.ofList tag), behind)
  else none

def directive? (cursor : Cursor) : Option (Directive × Cursor) := do
  let name := cursor.rest.takeWhile isWord
  let behind := cursor.skip name.length
  if name.isEmpty || !endsOr isGap behind.rest then none
  else do
    let (directive, rest) ← directiveValue? name behind.rest
    let behind ← (behind.moveTo rest).lineEnd?
    return (directive, behind)

end JavaOutline.Yaml
