import JavaOutline.Proofs.Grammar.Woven
import JavaOutline.Proofs.Text.Boundaries

/-!
Every node of the tree of a text starts and stops between whole characters. Tokens and comments are
cut out of the text character by character; where a shape takes only some characters off a token,
each of them is one byte, so that the rest of the token starts between characters again. The nodes
of names are words of the text as they stand.
-/
namespace JavaOutline.Tree

open JavaOutline.Text

def Token.Shown (chars : List Char) (t : Token) : Prop :=
  ∃ front rest, chars = front ++ (t.text.toList ++ rest) ∧ t.start = byteSize front ∧
    t.stop = byteSize front + byteSize t.text.toList

/-- The token stands in the text, and it has no blanks if it is a word. -/
structure Token.Fits (chars : List Char) (t : Token) : Prop where
  shown : t.Shown chars
  solid : t.isWord = true → ∀ c ∈ t.text.toList, isBlank c = false

def Node.Bounded (chars : List Char) (n : Node) : Prop :=
  Boundary chars n.start ∧ Boundary chars n.stop

def Comment.Bounded (chars : List Char) (c : Comment) : Prop :=
  Boundary chars c.start ∧ Boundary chars c.stop

def simpleNames : List Rule := [.identifier, .underscorePattern]

def Node.Named (chars : List Char) (n : Node) : Prop :=
  ∀ r ∈ simpleNames, n.kind = .rule r → ∃ front name rest, chars = front ++ (name ++ rest) ∧
    n.start = byteSize front ∧ n.stop = byteSize front + byteSize name ∧
    ∀ c ∈ name, isBlank c = false

structure Node.Fits (chars : List Char) (n : Node) : Prop where
  bounded : n.Bounded chars
  named : n.Named chars

section
variable {chars : List Char}

theorem Token.Shown.starts {t : Token} (shown : t.Shown chars) : Boundary chars t.start := by
  obtain ⟨front, rest, rfl, start, _⟩ := shown
  exact ⟨front, _, rfl, start⟩

theorem Token.Shown.stops {t : Token} (shown : t.Shown chars) : Boundary chars t.stop := by
  obtain ⟨front, rest, rfl, _, stop⟩ := shown
  exact ⟨front ++ t.text.toList, rest, by simp, by rw [stop, byte_size_append]⟩

theorem Token.Shown.rest {t : Token} {wanted left : List Char} (shown : t.Shown chars)
    (ascii : ∀ c ∈ wanted, c.utf8Size = 1) (text : t.text.toList = wanted ++ left) :
    ({ t with text := String.ofList left, start := t.start + wanted.length } : Token).Shown
      chars := by
  have width : byteSize wanted = wanted.length := by
    clear text
    induction wanted with
    | nil => rfl
    | cons c wanted ih =>
        obtain ⟨first, others⟩ := List.forall_mem_cons.mp ascii
        rw [byte_size_cons, first, ih others, List.length_cons, Nat.add_comm]
  obtain ⟨front, rest, rfl, start, stop⟩ := shown
  refine ⟨front ++ wanted, rest, by simp [text], ?_, ?_⟩
  · rw [byte_size_append, width, start]
  · rw [stop, text, byte_size_append, byte_size_append, String.toList_ofList, Nat.add_assoc]

theorem scan_shown (fuel : Nat) (modes : List Mode) (front rest : List Char) (tokens : List Token)
    (comments : List Comment)
    (scanned : scan fuel modes (byteSize front) rest = some (tokens, comments)) :
    (∀ t ∈ tokens, t.Shown (front ++ rest)) ∧ ∀ c ∈ comments, c.Bounded (front ++ rest) := by
  refine scan_induction (motive := fun offset rest tokens comments =>
    ∀ front, offset = byteSize front →
      (∀ t ∈ tokens, t.Shown (front ++ rest)) ∧ ∀ c ∈ comments, c.Bounded (front ++ rest))
    ?_ ?_ scanned front rfl
  · exact fun _ _ _ => ⟨List.forall_mem_nil _, List.forall_mem_nil _⟩
  · intro _ offset whole piece tokens comments _ _ inner
    -- What is behind the piece stands in the same text, with the piece in front of it.
    have behind (front : List Char) (here : offset = byteSize front) :
        (∀ t ∈ tokens, t.Shown (front ++ whole)) ∧ ∀ c ∈ comments, c.Bounded (front ++ whole) := by
      obtain ⟨shown, bounded⟩ := inner (front ++ whole.take piece.size)
        (by rw [here, byte_size_append])
      rw [List.append_assoc, List.take_append_drop] at shown bounded
      exact ⟨shown, bounded⟩
    refine ⟨fun _ => behind, fun r _ front here => ?_, fun shape _ front here => ?_⟩
    · obtain ⟨shown, bounded⟩ := behind front here
      refine ⟨shown, List.forall_mem_cons.mpr ⟨⟨⟨front, whole, rfl, here⟩, ?_⟩, bounded⟩⟩
      refine ⟨front ++ whole.take piece.size, whole.drop piece.size, by simp, ?_⟩
      rw [here, byte_size_append]
    · obtain ⟨shown, bounded⟩ := behind front here
      refine ⟨List.forall_mem_cons.mpr ⟨⟨front, whole.drop piece.size, ?_, here, ?_⟩, shown⟩,
        bounded⟩
      · rw [String.toList_ofList, List.take_append_drop]
      · rw [String.toList_ofList, here]

theorem tokens_fit (tokens : List Token) (comments : List Comment)
    (found : tokens? chars = some (tokens, comments)) :
    (∀ t ∈ tokens, t.Fits chars) ∧ ∀ c ∈ comments, c.Bounded chars := by
  have words := tokens_solid chars tokens comments found
  have shown : (∀ t ∈ tokens, t.Shown chars) ∧ ∀ c ∈ comments, c.Bounded chars := by
    unfold tokens? at found
    split at found
    · rename_i c rest
      split at found
      · exact scan_shown _ _ [c] rest tokens comments found
      · exact scan_shown _ _ [] (c :: rest) tokens comments found
    · cases found
      exact ⟨List.forall_mem_nil _, List.forall_mem_nil _⟩
  exact ⟨fun t member => ⟨shown.1 t member, words t member⟩, shown.2⟩

end

end JavaOutline.Tree

namespace JavaOutline.Grammar

open JavaOutline.Text JavaOutline.Tree

/-- Whether the characters that are cut off tokens are one byte each, and names are words. -/
def spelled : Form → Bool
  | .cut text => text.toList.all fun c => c.utf8Size == 1
  | .lexeme admits => simpleNames.all fun r => !admits r
  | .seq first second => spelled first && spelled second
  | .pick _ yes no => spelled yes && spelled no
  | .many _ item => spelled item
  | .node r body => !simpleNames.contains r && spelled body
  | .field _ body => spelled body
  | .chain base _ step => spelled base && spelled step
  | _ => true

section
variable {chars : List Char}

/-- What was read of tokens of a text: nodes between its characters, and tokens of the text. -/
def Bounds (chars : List Char) (made : List Node) (rest : List Token) : Prop :=
  (∀ n ∈ made, n.Throughout (Node.Fits chars)) ∧ ∀ t ∈ rest, t.Fits chars

theorem unnamed {n : Node} (kind : ∀ r ∈ simpleNames, n.kind ≠ .rule r) : n.Named chars :=
  fun r among same => absurd same (kind r among)

theorem fitting_leaf {kind : Kind} (other : ∀ r ∈ simpleNames, kind ≠ .rule r)
    (label : Option Field) {start stop : Nat} (starts : Boundary chars start)
    (stops : Boundary chars stop) :
    (Node.mk kind label start stop []).Throughout (Node.Fits chars) :=
  .intro ⟨⟨starts, stops⟩, unnamed other⟩ (List.forall_mem_nil _)

theorem Bounds.leaf {t : Token} {rest : List Token} (kind : Kind)
    (fits : ∀ t' ∈ t :: rest, t'.Fits chars)
    (word : ∀ r ∈ simpleNames, kind = .rule r → t.isWord = true) :
    Bounds chars [.mk kind none t.start t.stop []] rest := by
  obtain ⟨own, others⟩ := List.forall_mem_cons.mp fits
  refine ⟨List.forall_mem_singleton.mpr (.intro ⟨⟨own.shown.starts, own.shown.stops⟩,
    fun r among same => ?_⟩ (List.forall_mem_nil _)), others⟩
  obtain ⟨front, rest, whole, start, stop⟩ := own.shown
  exact ⟨front, t.text.toList, rest, whole, start, stop, own.solid (word r among same)⟩

theorem fitting_labelled (f : Field) {n : Node} (fits : n.Throughout (Node.Fits chars)) :
    (n.labelled f).Throughout (Node.Fits chars) := by
  obtain ⟨bounded, named⟩ := fits.here
  cases n
  exact .intro ⟨bounded, named⟩ fun child inside => fits.child inside

/-- The node of a rule takes its ends from its children; without any it stands at the start. -/
theorem fitting_rule {r : Rule} (other : r ∉ simpleNames) {nodes : List Node}
    (fits : ∀ n ∈ nodes, n.Throughout (Node.Fits chars)) :
    (Node.ofRule r nodes).Throughout (Node.Fits chars) := by
  have bounded (n : Node) (member : n ∈ nodes) : n.Bounded chars :=
    (fits n member).here.bounded
  refine .intro ⟨⟨?_, ?_⟩, unnamed fun name among same => ?_⟩ fits
  on_goal 3 =>
    cases same
    exact other among
  · show Boundary chars ((nodes.head?.map Node.start).getD 0)
    cases first : nodes.head? with
    | none => exact Boundary.first chars
    | some n => exact (bounded n (List.mem_of_head? first)).1
  · show Boundary chars ((nodes.getLast?.map Node.stop).getD 0)
    cases last : nodes.getLast? with
    | none => exact Boundary.first chars
    | some n => exact (bounded n (List.mem_of_getLast? last)).2

theorem cut_bounded (tokens : List Token) (at? : Option Nat) (wanted : List Char) (stop : Nat)
    (rest : List Token) (ascii : ∀ c ∈ wanted, c.utf8Size = 1)
    (fits : ∀ t ∈ tokens, t.Fits chars) (begun : ∀ s ∈ at?, Boundary chars s)
    (found : cutFrom? at? wanted tokens = some (stop, rest)) :
    Boundary chars stop ∧ ∀ t ∈ rest, t.Fits chars := by
  -- A token is taken as a whole, or the rest of it starts behind characters of one byte each.
  fun_induction cutFrom? at? wanted tokens with
  | case1 at? tokens =>
      obtain ⟨s, same, end'⟩ := Option.map_eq_some_iff.mp found
      cases end'
      exact ⟨begun _ same, fits⟩
  | case2 => cases found
  | case3 => cases found
  | case4 at? c wanted t tokens own touching whole ih =>
      obtain ⟨first, others⟩ := List.forall_mem_cons.mp fits
      refine ih (fun d member => ascii d (List.mem_of_mem_drop member)) others ?_ found
      rintro _ ⟨⟩
      exact first.shown.stops
  | case5 => cases found
  | case6 at? c wanted t tokens own touching longer shorter left stop' =>
      obtain ⟨first, others⟩ := List.forall_mem_cons.mp fits
      obtain ⟨more, text⟩ : ∃ more, c :: wanted ++ more = t.text.toList :=
        List.isPrefixOf_iff_prefix.mp shorter
      have behind : left = more := by
        simp only [left, own, ← text]
        exact List.drop_left
      have taken := first.shown.rest ascii text.symm
      obtain ⟨rfl, rfl⟩ : stop' = stop ∧ _ = rest := by simpa using found
      rw [behind]
      refine ⟨taken.starts, List.forall_mem_cons.mpr ⟨⟨taken, fun word d member => ?_⟩, others⟩⟩
      refine first.solid word d ?_
      rw [String.toList_ofList] at member
      exact text ▸ List.mem_append_right _ member
  | case7 => cases found

theorem closing_suffix (tokens : List Token) (depth : Nat) (rest : List Token)
    (found : closing? depth tokens = some rest) : rest <:+ tokens := by
  induction tokens generalizing depth with
  | nil => cases found
  | cons t tokens ih =>
      have behind (depth : Nat) (found : closing? depth tokens = some rest) :
          rest <:+ t :: tokens := (ih depth found).trans (List.suffix_cons t tokens)
      simp only [closing?] at found
      split at found
      · split at found
        · exact behind _ found
        · split at found
          · split at found
            · cases found
              exact List.suffix_cons t _
            · exact behind _ found
          · exact behind _ found
      · exact behind _ found

variable {goal : Goal → List Token → Reading}

def Bounding (chars : List Char) (goal : Goal → List Token → Reading) : Prop :=
  ∀ g tokens made rest, (∀ t ∈ tokens, t.Fits chars) → goal g tokens = some (made, rest) →
    Bounds chars made rest

theorem form_bounded (goals : Bounding chars goal) (form : Form) (ascii : spelled form = true)
    (built : List Node) (tokens : List Token) (made : List Node) (rest : List Token)
    (bounds : Bounds chars built tokens) (read : form.read goal built tokens = some (made, rest)) :
    Bounds chars made rest := by
  obtain ⟨held, fits⟩ := bounds
  -- A shape that looks at the next token either fails or leaves the tokens behind it.
  induction form generalizing built tokens made rest with
  | done =>
      cases read
      exact ⟨List.forall_mem_nil _, fits⟩
  | never => cases read
  | held =>
      cases read
      exact ⟨held, fits⟩
  | heldIs admits =>
      obtain ⟨rfl, rfl⟩ := Shape.read_held_is read
      exact ⟨List.forall_mem_nil _, fits⟩
  | peek admits =>
      obtain ⟨rfl, rfl⟩ := Shape.read_peek read
      exact ⟨List.forall_mem_nil _, fits⟩
  | stop =>
      obtain ⟨rfl, rfl⟩ := Shape.read_stop read
      exact ⟨List.forall_mem_nil _, fits⟩
  | keyword texts =>
      obtain ⟨t, rfl, -, rfl⟩ := Shape.read_keyword read
      exact Bounds.leaf _ fits nofun
  | symbol texts =>
      obtain ⟨t, rfl, -, rfl⟩ := Shape.read_symbol read
      exact Bounds.leaf _ fits nofun
  | cut text =>
      obtain ⟨t, behind, last, rfl, cut, rfl⟩ := Shape.read_cut read
      have narrow : ∀ c ∈ text.toList, c.utf8Size = 1 := by simpa [spelled] using ascii
      obtain ⟨stops, left⟩ := cut_bounded _ none _ _ _ narrow fits (by rintro _ ⟨⟩) cut
      have starts := (fits t List.mem_cons_self).shown.starts
      refine ⟨List.forall_mem_singleton.mpr (fitting_leaf ?_ none starts stops), left⟩
      nofun
  | word r admits =>
      obtain ⟨t, rfl, word, rfl⟩ := Shape.read_word read
      exact Bounds.leaf _ fits fun _ _ _ => word
  | lexeme admits =>
      obtain ⟨t, r, rfl, admitted, rfl⟩ := Shape.read_lexeme read
      refine Bounds.leaf _ fits fun name among same => ?_
      cases same
      have refused := List.all_eq_true.mp ascii r among
      rw [admitted] at refused
      cases refused
  | skip =>
      obtain ⟨t, rfl, rfl⟩ := Shape.read_skip read
      exact ⟨List.forall_mem_nil _, (List.forall_mem_cons.mp fits).2⟩
  | group =>
      obtain ⟨t, behind, rfl, closed, rfl⟩ := Shape.read_group read
      refine ⟨List.forall_mem_nil _, fun other member => fits other ?_⟩
      exact List.mem_cons_of_mem t ((closing_suffix _ _ _ closed).subset member)
  | seq first second one two =>
      simp only [spelled, Bool.and_eq_true] at ascii
      obtain ⟨nodes, behind, others, before, after, rfl⟩ := Shape.read_seq read
      obtain ⟨front, left⟩ := one ascii.1 built tokens nodes behind before held fits
      obtain ⟨back, done⟩ := two ascii.2 built behind others rest after held left
      exact ⟨List.forall_mem_append.mpr ⟨front, back⟩, done⟩
  | pick probe yes no _ one two =>
      simp only [spelled, Bool.and_eq_true] at ascii
      rcases Shape.read_pick read with read | read
      · exact one ascii.1 built tokens made rest read held fits
      · exact two ascii.2 built tokens made rest read held fits
  | many probe item _ one =>
      refine Shape.read_many (motive := fun tokens made rest =>
        (∀ t ∈ tokens, t.Fits chars) → Bounds chars made rest) ?_ ?_ read fits
      · exact fun _ fits => ⟨List.forall_mem_nil _, fits⟩
      · intro tokens nodes behind others rest inner ih fits
        obtain ⟨front, left⟩ := one ascii built tokens nodes behind inner held fits
        obtain ⟨back, done⟩ := ih left
        exact ⟨List.forall_mem_append.mpr ⟨front, back⟩, done⟩
  | node r body one =>
      simp only [spelled, Bool.and_eq_true, Bool.not_eq_true', List.contains_eq_mem,
        decide_eq_false_iff_not] at ascii
      obtain ⟨nodes, before, rfl⟩ := Shape.read_node read
      obtain ⟨inside, left⟩ := one ascii.2 built tokens nodes rest before held fits
      exact ⟨List.forall_mem_singleton.mpr (fitting_rule ascii.1 inside), left⟩
  | field f body one =>
      obtain ⟨nodes, before, rfl⟩ := Shape.read_field read
      obtain ⟨inside, left⟩ := one ascii built tokens nodes rest before held fits
      exact ⟨List.forall_mem_map.mpr fun n member => fitting_labelled f (inside n member), left⟩
  | chain base probe step one _ two =>
      simp only [spelled, Bool.and_eq_true] at ascii
      refine Shape.read_chain (motive := Bounds chars) ?_ ?_ read
      · exact fun nodes behind before => one ascii.1 built tokens nodes behind before held fits
      · exact fun held tokens nodes behind bounds inner =>
          two ascii.2 held tokens nodes behind inner bounds.1 bounds.2
  | call g => exact goals g tokens made rest fits read

theorem read_goal_bounded (passes : ∀ g, spelled (java g) = true) (fuel : Nat) :
    Bounding chars (readGoal java fuel) := by
  refine Shape.read_goal_induction (motive := Bounding chars) ?_ (fun goal ih => ?_) fuel
  · intro g tokens made rest _ read
    cases read
  · intro g tokens made rest fits read
    exact form_bounded ih (java g) (passes g) [] tokens made rest ⟨List.forall_mem_nil _, fits⟩
      read

theorem choose_spelled (alternatives : List (Form × Form))
    (each : ∀ entry ∈ alternatives, spelled entry.2 = true) :
    spelled (Shape.choose alternatives .never) = true := by
  induction alternatives with
  | nil => rfl
  | cons entry rest ih =>
      obtain ⟨own, others⟩ := List.forall_mem_cons.mp each
      simp only [Shape.choose, List.foldr_cons, spelled, Bool.and_eq_true]
      exact ⟨own, ih others⟩

set_option maxRecDepth 100000 in
theorem links_spelled (place : Place) :
    ∀ entry ∈ links 0 place, spelled entry.2 = true := by
  obtain ⟨inSum, inLabel⟩ := place
  rw [← List.all_eq_true]
  revert inSum inLabel
  decide

set_option maxRecDepth 100000 in
theorem java_spelled (g : Goal) : spelled (java g) = true := by
  cases g with
  | expression level place =>
      have step := choose_spelled (links level place) fun entry member =>
        links_spelled place entry (links_first level place entry member)
      simp [java, expressionForm, spelled, step]
  | operand place =>
      obtain ⟨inSum, inLabel⟩ := place
      revert inSum inLabel
      decide
  | castValue place =>
      obtain ⟨inSum, inLabel⟩ := place
      revert inSum inLabel
      decide
  | primary place => exact (show spelled (java (.primary {})) = true by decide)
  | statement opens =>
      revert opens
      decide
  | anyType spot => cases spot <;> decide
  | plainType spot => cases spot <;> decide
  | simpleType spot => cases spot <;> decide
  | _ => decide

-- The recursion is that of putting a comment in: down a node and along its siblings.
mutual

theorem weave_into_fitting {c : Comment} (own : c.Bounded chars) (rule : c.rule ∈ commentRules)
    (n : Node) (fits : n.Throughout (Node.Fits chars)) :
    (weaveInto c n).Throughout (Node.Fits chars) := by
  match n with
  | .mk kind label start stop children =>
      rw [weaveInto]
      obtain ⟨bounded, named⟩ := fits.here
      exact .intro ⟨bounded, named⟩
        (weave_in_fitting own rule children fun child member => fits.child member)

theorem weave_in_fitting {c : Comment} (own : c.Bounded chars) (rule : c.rule ∈ commentRules)
    (nodes : List Node) (fits : ∀ n ∈ nodes, n.Throughout (Node.Fits chars)) :
    ∀ n ∈ weaveIn c nodes, n.Throughout (Node.Fits chars) := by
  have apart : ∀ r ∈ simpleNames, r ∉ commentRules := by decide
  have comment : (commentNode c).Throughout (Node.Fits chars) := by
    refine fitting_leaf (fun r among same => ?_) none own.1 own.2
    cases same
    exact apart _ among rule
  match nodes with
  | [] =>
      rw [weaveIn]
      exact List.forall_mem_singleton.mpr comment
  | n :: rest =>
      obtain ⟨first, others⟩ := List.forall_mem_cons.mp fits
      rw [weaveIn]
      split
      · exact List.forall_mem_cons.mpr ⟨comment, fits⟩
      · split
        · exact List.forall_mem_cons.mpr ⟨weave_into_fitting own rule n first, others⟩
        · exact List.forall_mem_cons.mpr ⟨first, weave_in_fitting own rule rest others⟩

end

theorem weave_all_fitting (comments : List Comment)
    (own : ∀ c ∈ comments, c.Bounded chars ∧ c.rule ∈ commentRules) (nodes : List Node)
    (fits : ∀ n ∈ nodes, n.Throughout (Node.Fits chars)) :
    ∀ n ∈ comments.foldl (fun nodes c => weaveIn c nodes) nodes,
      n.Throughout (Node.Fits chars) := by
  induction comments generalizing nodes with
  | nil => exact fits
  | cons c later ih =>
      obtain ⟨⟨bounded, rule⟩, others⟩ := List.forall_mem_cons.mp own
      exact ih others (weaveIn c nodes) (weave_in_fitting bounded rule nodes fits)

theorem tree_fits (root : Node) (found : tree? chars = some root) :
    root.Throughout (Node.Fits chars) ∧ root.stop = byteSize chars := by
  have kind := (tree_well_laid chars root found).2
  simp only [tree?, Option.bind_eq_bind, Option.bind_eq_some_iff, Prod.exists] at found
  obtain ⟨tokens, comments, cut, made, rest, read, built⟩ := found
  obtain ⟨fits, own⟩ := tokens_fit tokens comments cut
  have rules := tokens_comments chars tokens comments cut
  have whole := (read_goal_bounded java_spelled _ .program tokens made rest fits read).1
  split at built
  · rename_i top same
    cases same
    cases built
    have inside : ∀ child ∈ top.children, child.Throughout (Node.Fits chars) :=
      fun child member => (whole top List.mem_cons_self).child member
    have woven := weave_all_fitting comments (fun c member => ⟨own c member, rules c member⟩)
      top.children inside
    refine ⟨.intro ⟨⟨?_, Boundary.last chars⟩, unnamed fun r among same => ?_⟩ woven, rfl⟩
    on_goal 2 =>
      have apart : Rule.program ∉ simpleNames := by decide
      cases kind.symm.trans same
      exact apart among
    -- The root starts with its first child, or at the end of a text without tokens and comments.
    simp only [Node.start]
    cases first : (comments.foldl (fun nodes c => weaveIn c nodes) top.children).head? with
    | none => exact Boundary.last chars
    | some n => exact (woven n (List.mem_of_head? first)).here.bounded.1
  · cases built

/-- Every node of a tree stands between whole characters. -/
theorem tree_bounded (root : Node) (found : tree? chars = some root) :
    root.Throughout (Node.Bounded chars) ∧ root.stop = byteSize chars :=
  (tree_fits root found).imp_left fun fits n has => (fits n has).bounded

end

end JavaOutline.Grammar
