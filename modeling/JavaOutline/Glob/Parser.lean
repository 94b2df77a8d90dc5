import JavaOutline.Error
import JavaOutline.Glob.Basic

/-!
Patterns from text. Two stars between slashes or at an end cover any number of folders; elsewhere
they are two single stars. Alternatives stand in braces and may nest, classes stand in brackets, and
a backslash takes the next character as it is. What is refused, and with which fault, is as in
`Glob::new`.
-/
namespace JavaOutline.Glob

structure OpenGroup where
  before : Pattern
  complete : List Pattern

/-- A pattern under way: the parts of the innermost alternative, and the groups around it. -/
structure Draft where
  parts : Pattern := []
  groups : List OpenGroup := []

namespace Draft

def push (draft : Draft) (part : Part) : Draft :=
  { draft with parts := draft.parts ++ [part] }

def pushStars (draft : Draft) : Draft :=
  (draft.push .many).push .many

/-- Puts two stars that cover folders in place of the slash before them. Behind two stars of that
sort they add nothing. -/
def deepen (draft : Draft) (part : Part) : Draft :=
  match draft.parts.getLast? with
  | some .deepFront | some .deepEnd => draft
  | _ => { draft with parts := draft.parts.dropLast ++ [part] }

def inGroup (draft : Draft) : Bool :=
  !draft.groups.isEmpty

def openGroup (draft : Draft) : Draft where
  parts := []
  groups := ⟨draft.parts, []⟩ :: draft.groups

/-- Starts the next alternative. Outside of groups a comma stands for itself. -/
def nextAlternative (draft : Draft) : Draft :=
  match draft.groups with
  | [] => draft.push (.literal ',')
  | group :: rest =>
    { parts := [], groups := ⟨group.before, group.complete ++ [draft.parts]⟩ :: rest }

def closeGroup (draft : Draft) : Except GlobFault Draft :=
  match draft.groups with
  | [] => .error .unopenedGroup
  | group :: rest =>
    .ok { parts := group.before ++ [.choice (group.complete ++ [draft.parts])], groups := rest }

end Draft

structure ClassDraft where
  negated : Bool
  ranges : List (Char × Char) := []
  /-- Whether a hyphen waits for the end of a range. -/
  waiting : Bool := false

namespace ClassDraft

def push (draft : ClassDraft) (c : Char) : Except GlobFault ClassDraft :=
  match draft.waiting, draft.ranges.getLast? with
  | true, some (low, _) =>
    if c < low then .error (.invalidRange low c)
    else .ok { draft with ranges := draft.ranges.dropLast ++ [(low, c)], waiting := false }
  | _, _ => .ok { draft with ranges := draft.ranges ++ [(c, c)], waiting := false }

def hyphen (draft : ClassDraft) : Except GlobFault ClassDraft :=
  if draft.waiting then draft.push '-' else .ok { draft with waiting := true }

def part (draft : ClassDraft) : Part :=
  .oneOf draft.negated (draft.ranges ++ if draft.waiting then [('-', '-')] else [])

end ClassDraft

/-- Whether two stars behind a character can cover folders. -/
def joinsFolders (draft : Draft) (previous : Option Char) : Bool :=
  previous == some '/' || (draft.inGroup && (previous == some ',' || previous == some '\x7b'))

mutual

def scan (draft : Draft) (previous : Option Char) : List Char → Except GlobFault Draft
  | [] => .ok draft
  | '*' :: '*' :: '/' :: rest =>
    if draft.parts.isEmpty then scan (draft.push .deepFront) (some '/') rest
    else if joinsFolders draft previous then scan (draft.deepen .deepMiddle) (some '/') rest
    else scan (draft.pushStars.push (.literal '/')) (some '/') rest
  | ['*', '*'] =>
    if draft.parts.isEmpty then .ok (draft.push .deepFront)
    else if joinsFolders draft previous then .ok (draft.deepen .deepEnd)
    else .ok draft.pushStars
  | '*' :: '*' :: rest =>
    if !draft.parts.isEmpty && joinsFolders draft previous && draft.inGroup &&
        (rest.head? == some ',' || rest.head? == some '\x7d') then
      scan (draft.deepen .deepEnd) (some '*') rest
    else scan draft.pushStars (some '*') rest
  | '*' :: rest => scan (draft.push .many) (some '*') rest
  | '?' :: rest => scan (draft.push .one) (some '?') rest
  | '[' :: '!' :: rest => scanClass draft ⟨true, [], false⟩ true rest
  | '[' :: '^' :: rest => scanClass draft ⟨true, [], false⟩ true rest
  | '[' :: rest => scanClass draft ⟨false, [], false⟩ true rest
  | '\x7b' :: rest => scan draft.openGroup (some '\x7b') rest
  | '\x7d' :: rest => draft.closeGroup >>= fun closed => scan closed (some '\x7d') rest
  | ',' :: rest => scan draft.nextAlternative (some ',') rest
  | ['\\'] => .error .danglingEscape
  | '\\' :: c :: rest => scan (draft.push (.literal c)) (some c) rest
  | c :: rest => scan (draft.push (.literal c)) (some c) rest

/-- Reads the rest of a class. A bracket or a hyphen that comes first stands for itself. -/
def scanClass (draft : Draft) (classDraft : ClassDraft) (first : Bool) :
    List Char → Except GlobFault Draft
  | [] => .error .unclosedClass
  | c :: rest =>
    if c == ']' && !first then scan (draft.push classDraft.part) (some ']') rest
    else
      (if c == '-' && !first then classDraft.hyphen
        else classDraft.push c) >>= fun next => scanClass draft next false rest

end

def parse (text : String) : Except GlobFault Pattern := do
  let draft ← scan {} none text.toList
  if draft.inGroup then .error .unclosedGroup else .ok draft.parts

end JavaOutline.Glob
