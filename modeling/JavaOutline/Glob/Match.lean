import JavaOutline.Glob.Basic

/-!
Which paths a pattern matches. A part takes bytes off the front of a path in some number of ways; a
pattern matches if its parts, one after the other, can take all of them. Of the ways in which
`globset` finds a match without trying the whole pattern, one can be told from outside and is kept:
patterns that are decided by the file name.
-/
namespace JavaOutline.Glob

abbrev Bytes := List UInt8

def slash : UInt8 := 47

def suffixes : Bytes → List Bytes
  | [] => [[]]
  | byte :: rest => (byte :: rest) :: suffixes rest

def behindSlashes : Bytes → List Bytes
  | [] => []
  | byte :: rest => if byte = slash then rest :: behindSlashes rest else behindSlashes rest

def behind? : Bytes → Bytes → Option Bytes
  | [], path => some path
  | _ :: _, [] => none
  | byte :: wanted, first :: path => if byte = first then behind? wanted path else none

/-- The byte ranges of a range of characters. Only the last byte of its low end and the first byte
of its high end span a range; the other bytes stand for themselves. -/
def byteRanges (range : Char × Char) : List (UInt8 × UInt8) :=
  let low := charBytes range.1
  let high := charBytes range.2
  if range.1 = range.2 then low.map fun byte => (byte, byte)
  else
    match low.getLast?, high.head? with
    | some last, some first =>
      (low.dropLast.map fun byte => (byte, byte)) ++ [(last, first)] ++
        (high.tail.map fun byte => (byte, byte))
    | _, _ => []

def inClass (negated : Bool) (ranges : List (Char × Char)) (byte : UInt8) : Bool :=
  (ranges.flatMap byteRanges).any (fun range => range.1 ≤ byte && byte ≤ range.2) != negated

/-- Each of some rests once; rests of a path with the same length are the same. -/
def distinct (rests : List Bytes) : List Bytes :=
  rests.foldr
    (fun rest kept => if kept.any fun other => other.length == rest.length then kept else rest :: kept)
    []

mutual

def Part.isVoid : Part → Bool
  | .choice alternatives => allVoid alternatives
  | _ => false

def isVoid : List Part → Bool
  | [] => true
  | part :: rest => part.isVoid && isVoid rest

def allVoid : List (List Part) → Bool
  | [] => true
  | pattern :: rest => isVoid pattern && allVoid rest

end

mutual

/-- What a part can leave of a path. -/
def Part.rests (path : Bytes) : Part → List Bytes
  | .literal c => (behind? (charBytes c) path).toList
  | .one => path.tail?.toList
  | .many => suffixes path
  | .deepFront => path :: behindSlashes path
  | .deepMiddle =>
    match behind? [slash] path with
    | some rest => rest :: behindSlashes rest
    | none => []
  | .deepEnd =>
    match behind? [slash] path with
    | some rest => suffixes rest
    | none => []
  | .oneOf negated ranges =>
    match path with
    | byte :: rest => if inClass negated ranges byte then [rest] else []
    | [] => []
  | .choice alternatives =>
    if allVoid alternatives then [path] else distinct (choiceRests path alternatives)

def rowRests (paths : List Bytes) : List Part → List Bytes
  | [] => paths
  | part :: rest => rowRests (distinct (paths.flatMap fun path => part.rests path)) rest

def choiceRests (path : Bytes) : List (List Part) → List Bytes
  | [] => []
  | pattern :: rest =>
    (if isVoid pattern then [] else rowRests [path] pattern) ++ choiceRests path rest

end

def Part.literal? : Part → Option Char
  | .literal c => some c
  | _ => none

def areNameLiterals (parts : List Part) : Bool :=
  parts.all fun part => part.literal?.any (· != '/')

/-- Whether a pattern is decided by the file name of a path: a name in any folder, or an extension
behind something that is no plain text. A path that ends with a dot has no file name. -/
def looksAtName (pattern : Pattern) : Bool :=
  let behindFolders := match pattern with
    | .deepFront :: rest => rest
    | _ => pattern
  let named := match pattern with
    | .deepFront :: rest => !rest.isEmpty && areNameLiterals rest
    | _ => false
  let behindMany := match behindFolders with
    | .many :: rest => rest
    | _ => behindFolders
  let bareExtension := match behindFolders with
    | .many :: .literal '.' :: rest => rest.all fun part => part.literal?.any fun c => c != '.' && c != '/'
    | _ => false
  let plain := behindMany.all fun part => part.literal?.isSome
  named || bareExtension || !plain

/-- Whether a pattern matches a path. Two stars alone match every path. -/
def isMatch (pattern : Pattern) (path : String) : Bool :=
  match pattern with
  | [.deepFront] => true
  | _ =>
    (rowRests [textBytes path] pattern).any List.isEmpty &&
      !(path.toList.getLast? == some '.' && pattern.getLast?.any (fun part => part.literal? == some '.') &&
        looksAtName pattern)

end JavaOutline.Glob
