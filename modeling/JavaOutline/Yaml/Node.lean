import JavaOutline.Yaml.Token

/-!
The nodes of a YAML document: scalars, sequences and mappings. An alias stands for the last node
with its anchor that is complete; where nothing is written, an empty plain scalar stands. This is
the parser of `libyaml` with the anchors and tags of `serde_yaml`. A text with a second document is
refused; the bounds of `serde_yaml` on nesting and on what aliases repeat stay outside.
-/
namespace JavaOutline.Yaml

inductive Node where
  | scalar (style : ScalarStyle) (tag : Option String) (text : String)
  | sequence (items : List Node)
  | mapping (members : List (Node × Node))
deriving Repr, Inhabited

def Node.empty (tag : Option String := none) : Node :=
  .scalar .plain tag ""

abbrev Handles := List (String × String)

def commonHandles : Handles :=
  [("!", "!"), ("!!", "tag:yaml.org,2002:")]

/-- Tokens under way to nodes, and the nodes with an anchor so far. -/
structure Feed where
  tokens : List Token
  handles : Handles := commonHandles
  anchored : List (String × Node) := []
deriving Repr, Inhabited

namespace Feed

def head? (feed : Feed) : Option Token :=
  feed.tokens.head?

def skip (feed : Feed) : Feed :=
  { feed with tokens := feed.tokens.tail }

def sees (feed : Feed) (token : Token) : Bool :=
  feed.head? = some token

def seesAny (feed : Feed) (tokens : List Token) : Bool :=
  feed.head?.all tokens.contains

def setAnchor (feed : Feed) (name : Option String) (node : Node) : Feed :=
  match name with
  | some name => { feed with anchored := (name, node) :: feed.anchored }
  | none => feed

def dropAnchor (feed : Feed) (name : Option String) : Feed :=
  { feed with anchored := feed.anchored.filter fun item => some item.1 != name }

def resolve? (feed : Feed) (tag : TagText) : Option String :=
  if tag.handle = "" then some tag.name else (feed.handles.lookup tag.handle).map (· ++ tag.name)

def anchor (feed : Feed) : Option String × Feed :=
  match feed.head? with
  | some (.anchor name) => (some name, feed.skip)
  | _ => (none, feed)

def tag? (feed : Feed) : Option (Option String × Feed) :=
  match feed.head? with
  | some (.tag tag) => (feed.resolve? tag).map fun text => (some text, feed.skip)
  | _ => some (none, feed)

def properties? (feed : Feed) : Option (Option String × Option String × Feed) := do
  match feed.anchor with
  | (some name, feed) =>
    let (tag, feed) ← feed.tag?
    return (some name, tag, feed)
  | (none, feed) =>
    let (tag, feed) ← feed.tag?
    if tag.isNone then return (none, none, feed)
    let (name, feed) := feed.anchor
    return (name, tag, feed)

end Feed

inductive Place where
  | flow
  | block
  /-- In a block mapping, where the entries of a sequence need no indentation. -/
  | member
deriving DecidableEq, Repr, Inhabited

mutual

/-- Reads a node. -/
def node (fuel : Nat) (place : Place) (feed : Feed) : Option (Node × Feed) :=
  match fuel with
  | 0 => none
  | fuel + 1 =>
    match feed.head? with
    | some (.alias name) => (feed.anchored.lookup name).map fun node => (node, feed.skip)
    | _ => do
      let (name, tag, feed) ← feed.properties?
      let feed := feed.dropAnchor name
      let (node, feed) ← content fuel place (name.isSome || tag.isSome) tag feed
      return (node, feed.setAnchor name node)

def content (fuel : Nat) (place : Place) (mayMiss : Bool) (tag : Option String) (feed : Feed) :
    Option (Node × Feed) :=
  match fuel with
  | 0 => none
  | fuel + 1 =>
    match feed.head? with
    | some (.scalar style text) => some (.scalar style tag text, feed.skip)
    | some .sequenceOpen => sequenceOf (flowItems fuel true feed.skip)
    | some .mappingOpen => mappingOf (flowMembers fuel true feed.skip)
    | other =>
      if place = .member && other = some .blockEntry then sequenceOf (looseItems fuel feed)
      else if place != .flow && other = some .blockSequence then sequenceOf (blockItems fuel feed.skip)
      else if place != .flow && other = some .blockMapping then mappingOf (blockMembers fuel feed.skip)
      else if mayMiss then some (.empty tag, feed)
      else none

def sequenceOf (read : Option (List Node × Feed)) : Option (Node × Feed) :=
  read.map fun (items, feed) => (.sequence items, feed)

def mappingOf (read : Option (List (Node × Node) × Feed)) : Option (Node × Feed) :=
  read.map fun (members, feed) => (.mapping members, feed)

def nodeUnless (fuel : Nat) (tokens : List Token) (place : Place) (feed : Feed) :
    Option (Node × Feed) :=
  match fuel with
  | 0 => none
  | fuel + 1 => if feed.seesAny tokens then some (.empty, feed) else node fuel place feed

def blockItems (fuel : Nat) (feed : Feed) : Option (List Node × Feed) :=
  match fuel with
  | 0 => none
  | fuel + 1 =>
    if feed.sees .blockEntry then do
      let (item, feed) ← nodeUnless fuel [.blockEntry, .blockEnd] .block feed.skip
      let (items, feed) ← blockItems fuel feed
      return (item :: items, feed)
    else if feed.sees .blockEnd then some ([], feed.skip)
    else none

/-- Reads the entries of a sequence at the column of the mapping around it. -/
def looseItems (fuel : Nat) (feed : Feed) : Option (List Node × Feed) :=
  match fuel with
  | 0 => none
  | fuel + 1 =>
    if feed.sees .blockEntry then do
      let (item, feed) ← nodeUnless fuel [.blockEntry, .key, .value, .blockEnd] .block feed.skip
      let (items, feed) ← looseItems fuel feed
      return (item :: items, feed)
    else some ([], feed)

def blockMembers (fuel : Nat) (feed : Feed) : Option (List (Node × Node) × Feed) :=
  match fuel with
  | 0 => none
  | fuel + 1 =>
    if feed.sees .key then do
      let (key, feed) ← nodeUnless fuel [.key, .value, .blockEnd] .member feed.skip
      let (value, feed) ← blockValue fuel feed
      let (members, feed) ← blockMembers fuel feed
      return ((key, value) :: members, feed)
    else if feed.sees .blockEnd then some ([], feed.skip)
    else none

def blockValue (fuel : Nat) (feed : Feed) : Option (Node × Feed) :=
  match fuel with
  | 0 => none
  | fuel + 1 =>
    if feed.sees .value then nodeUnless fuel [.key, .value, .blockEnd] .member feed.skip
    else some (.empty, feed)

/-- Reads the entries of a flow sequence. A key makes an entry a mapping with one member. -/
def flowItems (fuel : Nat) (first : Bool) (feed : Feed) : Option (List Node × Feed) :=
  match fuel with
  | 0 => none
  | fuel + 1 =>
    if feed.sees .sequenceClose then some ([], feed.skip)
    else if !first && !feed.sees .flowEntry then none
    else
      let feed := if first then feed else feed.skip
      if feed.sees .sequenceClose then some ([], feed.skip)
      else do
        let (item, feed) ←
          if feed.sees .key then
            mappingOf ((flowMember fuel .sequenceClose feed.skip).map fun (pair, feed) => ([pair], feed))
          else node fuel .flow feed
        let (items, feed) ← flowItems fuel false feed
        return (item :: items, feed)

/-- Reads the members of a flow mapping; a node without a key mark is a key without a value. -/
def flowMembers (fuel : Nat) (first : Bool) (feed : Feed) : Option (List (Node × Node) × Feed) :=
  match fuel with
  | 0 => none
  | fuel + 1 =>
    if feed.sees .mappingClose then some ([], feed.skip)
    else if !first && !feed.sees .flowEntry then none
    else
      let feed := if first then feed else feed.skip
      if feed.sees .mappingClose then some ([], feed.skip)
      else do
        let (pair, feed) ←
          if feed.sees .key then flowMember fuel .mappingClose feed.skip
          else (node fuel .flow feed).map fun (key, feed) => ((key, .empty), feed)
        let (members, feed) ← flowMembers fuel false feed
        return (pair :: members, feed)

def flowMember (fuel : Nat) (close : Token) (feed : Feed) : Option ((Node × Node) × Feed) :=
  match fuel with
  | 0 => none
  | fuel + 1 => do
    let (key, feed) ← nodeUnless fuel [.value, .flowEntry, close] .flow feed
    let (value, feed) ←
      if feed.sees .value then nodeUnless fuel [.flowEntry, close] .flow feed.skip
      else some (.empty, feed)
    return ((key, value), feed)

end

def isKnownVersion (major minor : Nat) : Bool :=
  major = 1 && (minor = 1 || minor = 2)

/-- Reads the directives before a document. A version may be given once, and each handle once. -/
def directives (versioned : Bool) (handles : Handles) : List Token →
    Option (Bool × Handles × List Token)
  | .directive (.version major minor) :: rest =>
    if versioned || !isKnownVersion major minor then none else directives true handles rest
  | .directive (.handle handle tag) :: rest =>
    if (handles.lookup handle).isSome then none else directives versioned (handles ++ [(handle, tag)]) rest
  | rest => some (versioned || !handles.isEmpty, handles, rest)

def documentHead? (tokens : List Token) : Option Feed := do
  let (directed, handles, rest) ← directives false [] tokens
  match rest with
  | .documentStart :: rest => some { tokens := rest, handles := handles ++ commonHandles }
  | rest => if directed then none else some { tokens := rest }

def endsDocument (token : Token) : Bool :=
  match token with
  | .directive _ | .documentStart | .documentEnd => true
  | _ => false

/-- The document of a text, which holds no other. A text of comments and blanks has none; a document
in which nothing is written is an empty scalar. -/
def document? (text : List Char) : Option (Option Node) := do
  let tokens ← tokens? text
  if tokens.isEmpty then return none
  let feed ← documentHead? tokens
  let started := feed.tokens.length < tokens.length
  let (root, feed) ←
    if started && feed.head?.all endsDocument then some (Node.empty, feed)
    else node (4 * tokens.length + 4) .block feed
  if feed.tokens.all (· = .documentEnd) then return some root else none

end JavaOutline.Yaml
