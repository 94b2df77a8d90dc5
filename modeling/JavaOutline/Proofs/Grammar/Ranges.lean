import JavaOutline.Proofs.Grammar.Conformance
import JavaOutline.Proofs.Grammar.Tokens

/-!
Ranges of the nodes that are read. Shapes take tokens from the front and make nodes in the order of
the tokens; what a chain holds lies before the tokens, so it must come first in what is made of it.
Hence siblings lie one behind the other, and a node reaches from its first child to its last. Nodes
are never empty, since every node is made of at least one token, and no comment reaches into a leaf.
-/
namespace JavaOutline.Tree

/-- The nodes lie one behind the other between two bytes, and none is empty. -/
def Lies : Nat → List Node → Nat → Prop
  | low, [], high => low ≤ high
  | low, n :: rest, high => low ≤ n.start ∧ n.start < n.stop ∧ Lies n.stop rest high

def Node.range (n : Node) : Nat × Nat :=
  (n.start, n.stop)

section
variable {low between high : Nat} {nodes others : List Node}

theorem Lies.order (lies : Lies low nodes high) : low ≤ high := by
  induction nodes generalizing low with
  | nil => exact lies
  | cons n rest ih =>
      have behind := ih lies.2.2
      have order := lies.1
      have filled := lies.2.1
      omega

theorem Lies.weaken {lower : Nat} (order : lower ≤ low) (lies : Lies low nodes high) :
    Lies lower nodes high := by
  cases nodes with
  | nil => exact Nat.le_trans order lies
  | cons n rest => exact ⟨Nat.le_trans order lies.1, lies.2⟩

theorem Lies.widen {higher : Nat} (order : high ≤ higher) (lies : Lies low nodes high) :
    Lies low nodes higher := by
  induction nodes generalizing low with
  | nil => exact Nat.le_trans lies order
  | cons n rest ih => exact ⟨lies.1, lies.2.1, ih lies.2.2⟩

theorem Lies.append (first : Lies low nodes between) (second : Lies between others high) :
    Lies low (nodes ++ others) high := by
  induction nodes generalizing low with
  | nil => exact second.weaken first
  | cons n rest ih => exact ⟨first.1, first.2.1, ih first.2.2⟩

theorem Lies.split (lies : Lies low (nodes ++ others) high) :
    ∃ between, Lies low nodes between ∧ Lies between others high := by
  induction nodes generalizing low with
  | nil => exact ⟨low, Nat.le_refl low, lies⟩
  | cons n rest ih =>
      obtain ⟨between, first, second⟩ := ih lies.2.2
      exact ⟨between, ⟨lies.1, lies.2.1, first⟩, second⟩

theorem Lies.sublist (some : others.Sublist nodes) (lies : Lies low nodes high) :
    Lies low others high := by
  induction some generalizing low with
  | slnil => exact lies
  | cons n _ ih =>
      have order := lies.1
      have filled := lies.2.1
      exact (ih lies.2.2).weaken (by omega)
  | cons_cons n _ ih => exact ⟨lies.1, lies.2.1, ih lies.2.2⟩

theorem Lies.member {n : Node} (lies : Lies low nodes high) (inside : n ∈ nodes) :
    low ≤ n.start ∧ n.start < n.stop ∧ n.stop ≤ high := by
  obtain ⟨front, back, rfl⟩ := List.append_of_mem inside
  obtain ⟨between, before, own⟩ := lies.split
  exact ⟨Nat.le_trans before.order own.1, own.2.1, own.2.2.order⟩

theorem Lies.trim (lies : Lies low nodes high) (wide : low < high) :
    low < (nodes.getLast?.map Node.stop).getD high ∧
      (nodes.getLast?.map Node.stop).getD high ≤ high ∧
      Lies low nodes ((nodes.getLast?.map Node.stop).getD high) := by
  induction nodes generalizing low with
  | nil => exact ⟨wide, Nat.le_refl high, Nat.le_of_lt wide⟩
  | cons n rest ih =>
      obtain ⟨first, filled, behind⟩ := lies
      cases rest with
      | nil =>
          refine ⟨?_, behind, first, filled, Nat.le_refl n.stop⟩
          exact Nat.lt_of_le_of_lt first filled
      | cons m further =>
          have order := behind.2.2.order
          have wider : n.stop < high :=
            Nat.lt_of_le_of_lt behind.1 (Nat.lt_of_lt_of_le behind.2.1 order)
          obtain ⟨after, within, inner⟩ := ih behind wider
          rw [List.getLast?_cons_cons]
          exact ⟨by omega, within, first, filled, inner⟩

theorem Lies.ranges (same : others.map Node.range = nodes.map Node.range)
    (lies : Lies low nodes high) : Lies low others high := by
  induction nodes generalizing low others with
  | nil =>
      rw [List.map_eq_nil_iff.mp same]
      exact lies
  | cons n rest ih =>
      obtain ⟨other, behind, rfl, alike, further⟩ := List.map_eq_cons_iff.mp same
      have starts : other.start = n.start := congrArg Prod.fst alike
      have stops : other.stop = n.stop := congrArg Prod.snd alike
      refine ⟨starts ▸ lies.1, ?_, ?_⟩
      · rw [starts, stops]
        exact lies.2.1
      · rw [stops]
        exact ih further lies.2.2

theorem Lies.rule (r : Rule) (some : nodes ≠ []) (lies : Lies low nodes high) :
    Lies low [Node.ofRule r nodes] high ∧
      Lies (Node.ofRule r nodes).start nodes (Node.ofRule r nodes).stop := by
  suffices inner : Lies (Node.ofRule r nodes).start nodes (Node.ofRule r nodes).stop ∧
      low ≤ (Node.ofRule r nodes).start ∧ (Node.ofRule r nodes).stop ≤ high ∧
      (Node.ofRule r nodes).start < (Node.ofRule r nodes).stop by
    exact ⟨⟨inner.2.1, inner.2.2.2, inner.2.2.1⟩, inner.1⟩
  induction nodes generalizing low with
  | nil => exact absurd rfl some
  | cons n rest ih =>
      obtain ⟨first, filled, behind⟩ := lies
      by_cases last : rest = []
      · subst last
        exact ⟨⟨Nat.le_refl _, filled, Nat.le_refl _⟩, first, behind, filled⟩
      · obtain ⟨inner, order, end', _⟩ := ih last behind
        have stop : (Node.ofRule r (n :: rest)).stop = (Node.ofRule r rest).stop := by
          cases rest with
          | nil => exact absurd rfl last
          | cons m further => simp [Node.ofRule, Node.stop, List.getLast?_cons_cons]
        have inside := inner.weaken order
        rw [stop]
        refine ⟨⟨Nat.le_refl _, filled, inside⟩, first, end', ?_⟩
        exact Nat.lt_of_lt_of_le filled inside.order

end

/-- How a node lies to its children and to comments that are not yet put into it: it starts with the
first child and ends with the last, which are no comments, and no comment reaches into a leaf. -/
structure Firm (comments : List Comment) (n : Node) : Prop where
  filled : n.start < n.stop
  ordered : Lies n.start n.solid n.stop
  front : ∀ child ∈ n.children.head?, child.start = n.start ∧ child.isComment = false
  back : ∀ child ∈ n.children.getLast?, child.stop = n.stop ∧ child.isComment = false
  apart : n.children = [] → ∀ c ∈ comments, c.Apart n.start n.stop

theorem Firm.settle {c : Comment} {later : List Comment} {n : Node} (firm : Firm (c :: later) n) :
    Firm later n where
  filled := firm.filled
  ordered := firm.ordered
  front := firm.front
  back := firm.back
  apart := fun leaf d member => firm.apart leaf d (List.mem_cons_of_mem c member)

theorem firm_leaf {comments : List Comment} (kind : Kind) (label : Option Field) {start stop : Nat}
    (filled : start < stop) (apart : ∀ c ∈ comments, c.Apart start stop) :
    (Node.mk kind label start stop []).Throughout (Firm comments) := by
  refine .intro ⟨filled, Nat.le_of_lt filled, ?_, ?_, fun _ => apart⟩ (List.forall_mem_nil _)
  · rintro child ⟨⟩
  · rintro child ⟨⟩

end JavaOutline.Tree

namespace JavaOutline.Grammar

open JavaOutline.Tree

/-! Shapes -/

def mentions : Form → Bool
  | .held => true
  | .seq first second => mentions first || mentions second
  | .pick _ yes no => mentions yes || mentions no
  | .many _ item => mentions item
  | .node _ body | .field _ body => mentions body
  | .chain base _ _ => mentions base
  | _ => false

def makes : Form → Bool
  | .done | .heldIs _ | .peek _ | .stop | .skip | .group | .many _ _ => false
  | .seq first second => makes first || makes second
  | .pick _ yes no => makes yes && makes no
  | .field _ body => makes body
  | .chain base _ step => makes base && makes step
  | _ => true

/-- Whether what is held comes first wherever it is used, every node has a child, and none is a
comment. -/
def orderly : Form → Bool
  | .seq first second => orderly first && orderly second && !mentions second
  | .pick _ yes no => orderly yes && orderly no
  | .many _ item => orderly item && !mentions item
  | .node r body => orderly body && makes body && !commentRules.contains r
  | .field _ body => orderly body
  | .chain base _ step =>
    orderly base && !mentions base && makes base && orderly step && makes step
  | .word r _ => !commentRules.contains r
  | .lexeme admits => !commentRules.any admits
  | .call goal => goal != .program
  | _ => true

def goalOrderly (goal : Goal) : Bool :=
  orderly (java goal) && !mentions (java goal) && makes (java goal)

section
variable (comments : List Comment)

structure Queued (low : Nat) (tokens : List Token) : Prop where
  lined : Lined low tokens
  apart : ∀ c ∈ comments, ∀ t ∈ tokens, c.Apart t.start t.stop

structure Made (low : Nat) (nodes : List Node) (high : Nat) : Prop where
  lies : Lies low nodes high
  firm : ∀ n ∈ nodes, n.Throughout (Firm comments)
  solid : ∀ n ∈ nodes, n.isComment = false

/-- Goals read from the front and make nodes. -/
def Forward (goal : Goal → List Token → Reading) : Prop :=
  ∀ g, g ≠ .program → ∀ low tokens made rest, Queued comments low tokens →
    goal g tokens = some (made, rest) →
    ∃ high, Made comments low made high ∧ Queued comments high rest ∧ made ≠ []

end

section
variable {comments : List Comment} {low : Nat}

theorem Queued.tail {t : Token} {rest : List Token} (queued : Queued comments low (t :: rest)) :
    Queued comments t.stop rest :=
  ⟨queued.lined.2.2.2, fun c member other inside =>
    queued.apart c member other (List.mem_cons_of_mem t inside)⟩

theorem Queued.weaken {lower : Nat} {tokens : List Token} (order : lower ≤ low)
    (queued : Queued comments low tokens) : Queued comments lower tokens :=
  ⟨queued.lined.weaken order, queued.apart⟩

theorem Queued.drop {t : Token} {rest : List Token} (queued : Queued comments low (t :: rest)) :
    Queued comments low rest := by
  have order := queued.lined.1
  have room := queued.lined.2.2.1
  exact queued.tail.weaken (by omega)

theorem Made.nothing : Made comments low [] low :=
  ⟨Nat.le_refl low, List.forall_mem_nil _, List.forall_mem_nil _⟩

theorem Made.append {between high : Nat} {nodes others : List Node}
    (first : Made comments low nodes between) (second : Made comments between others high) :
    Made comments low (nodes ++ others) high :=
  ⟨first.lies.append second.lies, List.forall_mem_append.mpr ⟨first.firm, second.firm⟩,
    List.forall_mem_append.mpr ⟨first.solid, second.solid⟩⟩

theorem Made.weaken {lower high : Nat} {nodes : List Node} (order : lower ≤ low)
    (made : Made comments low nodes high) : Made comments lower nodes high :=
  ⟨made.lies.weaken order, made.firm, made.solid⟩

theorem Made.leaf {t : Token} {rest : List Token} (queued : Queued comments low (t :: rest))
    (kind : Kind) (solid : (Node.mk kind none t.start t.stop []).isComment = false) :
    Made comments low [.mk kind none t.start t.stop []] t.stop := by
  obtain ⟨⟨order, long, room, _⟩, apart⟩ := queued
  have filled : t.start < t.stop := by omega
  refine ⟨⟨order, filled, Nat.le_refl _⟩, ?_, List.forall_mem_singleton.mpr solid⟩
  refine List.forall_mem_singleton.mpr (firm_leaf kind none filled fun c member => ?_)
  exact apart c member t List.mem_cons_self

theorem Made.labelled {high : Nat} {nodes : List Node} (f : Field)
    (made : Made comments low nodes high) :
    Made comments low (nodes.map (Node.labelled f)) high := by
  have same (n : Node) : (n.labelled f).range = n.range := by
    cases n
    rfl
  refine ⟨made.lies.ranges (by simp [same]), ?_, ?_⟩
  · refine List.forall_mem_map.mpr fun n member => ?_
    have firm := made.firm n member
    obtain ⟨filled, ordered, front, back, apart⟩ := firm.here
    cases n
    exact .intro ⟨filled, ordered, front, back, apart⟩ fun child inside => firm.child inside
  · refine List.forall_mem_map.mpr fun n member => ?_
    have solid := made.solid n member
    cases n
    exact solid

theorem Made.node {high : Nat} {nodes : List Node} (r : Rule) (some : nodes ≠ [])
    (solid : commentRules.contains r = false) (made : Made comments low nodes high) :
    Made comments low [Node.ofRule r nodes] high := by
  obtain ⟨own, inside⟩ := made.lies.rule r some
  have whole : (Node.ofRule r nodes).solid = nodes :=
    List.filter_eq_self.mpr fun n member => by simp [made.solid n member]
  refine ⟨own, List.forall_mem_singleton.mpr ?_, List.forall_mem_singleton.mpr ?_⟩
  · refine .intro ⟨own.2.1, ?_, ?_, ?_, fun none => absurd none some⟩ made.firm
    · rw [whole]
      exact inside
    · intro child found
      refine ⟨?_, made.solid child (List.mem_of_head? found)⟩
      have first : nodes.head? = Option.some child := found
      simp [Node.ofRule, Node.start, first]
    · intro child found
      refine ⟨?_, made.solid child (List.mem_of_getLast? found)⟩
      have last : nodes.getLast? = Option.some child := found
      simp [Node.ofRule, Node.stop, last]
  · simpa [commentRules, Node.ofRule, Node.isComment, Node.is, Node.kind] using solid

/-! Reading -/

/-- A cut that goes on with a token that touches. -/
theorem touching_apart (filled : ∀ c ∈ comments, c.start < c.stop) {t : Token}
    {tokens : List Token} {at? : Option Nat} {first : Nat}
    (queued : Queued comments low (t :: tokens)) (fresh : at? = none → t.start = first)
    (begun : ∀ s ∈ at?, first < s ∧ ∀ c ∈ comments, c.Apart first s)
    (touching : ¬ at?.any (· != t.start) = true) :
    first ≤ t.start ∧ ∀ c ∈ comments, c.Apart first t.stop := by
  have own (c : Comment) (member : c ∈ comments) := queued.apart c member t List.mem_cons_self
  cases here : at? with
  | none =>
      have same := fresh here
      exact ⟨Nat.le_of_eq same.symm, same ▸ own⟩
  | some s =>
      obtain ⟨long, apart⟩ := begun s here
      have same : s = t.start := by simpa [here] using touching
      subst same
      exact ⟨Nat.le_of_lt long, fun c member => (apart c member).join (filled c member)
        (own c member)⟩

theorem cut_forward (filled : ∀ c ∈ comments, c.start < c.stop) (tokens : List Token)
    (at? : Option Nat) (wanted : List Char) (first last : Nat) (rest : List Token)
    (queued : Queued comments low tokens)
    (fresh : at? = none → ∀ t ∈ tokens.head?, t.start = first)
    (begun : ∀ s ∈ at?, s = low ∧ first < s ∧ ∀ c ∈ comments, c.Apart first s)
    (found : cutFrom? at? wanted tokens = some (last, rest)) :
    first < last ∧ (∀ c ∈ comments, c.Apart first last) ∧ Queued comments last rest := by
  -- What is cut so far reaches up to the next token, which starts where it stops.
  fun_induction cutFrom? at? wanted tokens generalizing low with
  | case1 at? tokens =>
      obtain ⟨s, same, end'⟩ := Option.map_eq_some_iff.mp found
      cases end'
      obtain ⟨rfl, long, apart⟩ := begun _ same
      exact ⟨long, apart, queued⟩
  | case2 => cases found
  | case3 => cases found
  | case4 at? c wanted t tokens chars touching whole =>
      rename_i ih
      obtain ⟨order, apart⟩ := touching_apart filled queued (fun none => fresh none t rfl)
        (fun s here => (begun s here).2) touching
      obtain ⟨_, long, room, _⟩ := queued.lined
      refine ih queued.tail (by rintro ⟨⟩) ?_ found
      rintro _ ⟨⟩
      exact ⟨rfl, by omega, apart⟩
  | case5 => cases found
  | case6 at? c wanted t tokens chars touching longer shorter left stop =>
      obtain ⟨order, apart⟩ := touching_apart filled queued (fun none => fresh none t rfl)
        (fun s here => (begun s here).2) touching
      obtain ⟨_, _, room, _⟩ := queued.lined
      have long : left.length = t.text.length - (wanted.length + 1) := by
        simp [left, chars, String.length_toList]
      -- Something is left of the token, since its text does not start what is wanted.
      have some' : wanted.length + 1 < t.text.length := by
        obtain ⟨more, same⟩ : ∃ more, c :: wanted ++ more = t.text.toList :=
          List.isPrefixOf_iff_prefix.mp shorter
        have size : t.text.length = wanted.length + 1 + more.length := by
          rw [← String.length_toList, ← same, List.length_append, List.length_cons]
        cases more with
        | nil =>
            rw [List.append_nil] at same
            exact absurd (by simp [chars, ← same]) longer
        | cons d more =>
            rw [size, List.length_cons]
            omega
      obtain ⟨rfl, rfl⟩ : stop = last ∧ _ = rest := by simpa using found
      have inside : t.start + wanted.length + 1 < t.stop := by omega
      refine ⟨by simp only [stop]; omega, fun c member => ?_, ⟨?_, ?_⟩⟩
      · rcases apart c member with before | behind
        · exact .inl before
        · exact .inr (by simp only [stop]; omega)
      · refine ⟨Nat.le_refl _, ?_, ?_, queued.tail.lined⟩
        · simp only [String.length_ofList]
          omega
        · simp only [String.length_ofList, stop]
          omega
      · intro c member
        refine List.forall_mem_cons.mpr
          ⟨?_, fun other inner => queued.tail.apart c member other inner⟩
        rcases queued.apart c member t List.mem_cons_self with before | behind
        · exact .inl (by simp only [stop]; omega)
        · exact .inr behind
  | case7 => cases found

theorem closing_queued (tokens : List Token) (depth : Nat) (rest : List Token)
    (queued : Queued comments low tokens) (found : closing? depth tokens = some rest) :
    Queued comments low rest := by
  induction tokens generalizing depth with
  | nil => cases found
  | cons t tokens ih =>
      have behind := queued.drop
      simp only [closing?] at found
      split at found
      · split at found
        · exact ih _ behind found
        · split at found
          · split at found
            · cases found
              exact behind
            · exact ih _ behind found
          · exact ih _ behind found
      · exact ih _ behind found

variable {goal : Goal → List Token → Reading}

/-- Where the nodes of a shape begin: with what is held, or with the tokens. -/
def begins (form : Form) (low between : Nat) : Nat :=
  if mentions form then low else between

theorem begins_le (form : Form) {between : Nat} (order : low ≤ between) :
    low ≤ begins form low between := by
  unfold begins
  split
  · exact Nat.le_refl _
  · exact order

theorem begins_plain {form : Form} {between : Nat} (plain : mentions form = false) :
    begins form low between = between :=
  if_neg (by simp [plain])

def Advances (comments : List Comment) (goal : Goal → List Token → Reading) (form : Form) : Prop :=
  orderly form = true → ∀ low between built tokens made rest, low ≤ between →
    (mentions form = true → built ≠ [] ∧ Made comments low built between) →
    Queued comments between tokens → form.read goal built tokens = some (made, rest) →
    ∃ high, Made comments (begins form low between) made high ∧ Queued comments high rest ∧
      (makes form = true → made ≠ [])

theorem advances_nothing {form : Form} (plain : mentions form = false) (empty : makes form = false)
    (skips : ∀ low built tokens made rest, Queued comments low tokens →
      form.read goal built tokens = some (made, rest) → made = [] ∧ Queued comments low rest) :
    Advances comments goal form := by
  intro _ low between built tokens made rest _ _ queued read
  obtain ⟨rfl, behind⟩ := skips between built tokens made rest queued read
  refine ⟨between, ?_, behind, by simp [empty]⟩
  rw [begins_plain plain]
  exact Made.nothing

theorem leaf_solid (r : Rule) (t : Token) (solid : commentRules.contains r = false) :
    (leafNode r t).isComment = false := by
  simpa [commentRules, leafNode, Node.isComment, Node.is, Node.kind] using solid

def isLeaf : Form → Bool
  | .keyword _ | .symbol _ | .word _ _ | .lexeme _ => true
  | _ => false

theorem leaf_read {form : Form} (leaf : isLeaf form = true) (ok : orderly form = true)
    {built : List Node} {tokens rest : List Token} {made : List Node}
    (read : form.read goal built tokens = some (made, rest)) :
    ∃ t kind, tokens = t :: rest ∧ made = [.mk kind none t.start t.stop []] ∧
      (Node.mk kind none t.start t.stop []).isComment = false := by
  cases form with
  | keyword texts =>
      obtain ⟨t, rfl, -, rfl⟩ := Shape.read_keyword read
      exact ⟨t, _, rfl, rfl, rfl⟩
  | symbol texts =>
      obtain ⟨t, rfl, -, rfl⟩ := Shape.read_symbol read
      exact ⟨t, _, rfl, rfl, rfl⟩
  | word r admits =>
      obtain ⟨t, rfl, -, rfl⟩ := Shape.read_word read
      exact ⟨t, _, rfl, rfl, leaf_solid r t (by simpa [orderly] using ok)⟩
  | lexeme admits =>
      obtain ⟨t, r, rfl, admitted, rfl⟩ := Shape.read_lexeme read
      refine ⟨t, _, rfl, rfl, leaf_solid r t ?_⟩
      cases comment : commentRules.contains r with
      | false => rfl
      | true =>
          have none : commentRules.any admits = false := by simpa [orderly] using ok
          have fails := List.any_eq_false.mp none r (List.contains_iff_mem.mp comment)
          exact absurd admitted fails
  | _ => cases leaf

theorem advances_leaf {form : Form} (leaf : isLeaf form = true) (plain : mentions form = false) :
    Advances comments goal form := by
  intro ok low between built tokens made rest _ _ queued read
  obtain ⟨t, kind, rfl, rfl, solid⟩ := leaf_read leaf ok read
  refine ⟨t.stop, ?_, queued.tail, fun _ => List.cons_ne_nil _ _⟩
  rw [begins_plain plain]
  exact Made.leaf queued kind solid

theorem advances_held : Advances comments goal .held := by
  intro _ low between built tokens made rest _ holds queued read
  cases read
  obtain ⟨some, before⟩ := holds rfl
  exact ⟨between, before, queued, fun _ => some⟩

theorem advances_cut (filled : ∀ c ∈ comments, c.start < c.stop) (text : String) :
    Advances comments goal (.cut text) := by
  intro ok low between built tokens made rest order holds queued read
  obtain ⟨t, behind, last, rfl, cut, rfl⟩ := Shape.read_cut read
  obtain ⟨long, apart, left⟩ := cut_forward filled _ none _ t.start _ _ queued
    (by rintro _ _ ⟨⟩; rfl) (by rintro _ ⟨⟩) cut
  refine ⟨last, ⟨⟨queued.lined.1, long, Nat.le_refl _⟩, ?_, ?_⟩, left,
    fun _ => List.cons_ne_nil _ _⟩
  · exact List.forall_mem_singleton.mpr (firm_leaf _ none long apart)
  · exact List.forall_mem_singleton.mpr rfl

section
variable {first second probe yes no item body base step : Form}

theorem advances_seq (one : Advances comments goal first) (two : Advances comments goal second) :
    Advances comments goal (.seq first second) := by
  intro ok low between built tokens made rest order holds queued read
  change (orderly first && orderly second && !mentions second) = true at ok
  simp only [Bool.and_eq_true, Bool.not_eq_true'] at ok
  obtain ⟨⟨ok, also⟩, plain⟩ := ok
  have same : mentions (.seq first second) = mentions first := by
    change (mentions first || mentions second) = mentions first
    rw [plain, Bool.or_false]
  rw [same] at holds
  obtain ⟨nodes, behind, others, before, after, rfl⟩ := Shape.read_seq read
  obtain ⟨middle, front, left, some⟩ := one ok low between _ _ _ _ order holds queued before
  obtain ⟨high, back, done, more⟩ := two also middle middle built _ _ _ (Nat.le_refl _)
    (by simp [plain]) left after
  rw [begins_plain plain] at back
  refine ⟨high, ?_, done, fun full none => ?_⟩
  · rw [begins, same]
    exact front.append back
  · rcases (Bool.or_eq_true _ _).mp full with own | other
    · exact some own (List.append_eq_nil_iff.mp none).1
    · exact more other (List.append_eq_nil_iff.mp none).2

/-- A shape begins no later than a part of it, as it mentions what the part mentions. -/
theorem begins_part {whole part : Form} {between : Nat} (order : low ≤ between)
    (own : mentions part = true → mentions whole = true) :
    begins whole low between ≤ begins part low between := by
  unfold begins
  split
  · exact begins_le part order
  · exact Nat.le_of_eq (if_neg fun held => ‹¬_› (own held)).symm

theorem advances_pick (one : Advances comments goal yes) (two : Advances comments goal no) :
    Advances comments goal (.pick probe yes no) := by
  intro ok low between built tokens made rest order holds queued read
  obtain ⟨okYes, okNo⟩ := (Bool.and_eq_true _ _).mp ok
  have ofYes (held : mentions yes = true) : mentions (.pick probe yes no) = true :=
    (Bool.or_eq_true _ _).mpr (.inl held)
  have ofNo (held : mentions no = true) : mentions (.pick probe yes no) = true :=
    (Bool.or_eq_true _ _).mpr (.inr held)
  rcases Shape.read_pick read with read | read
  · obtain ⟨high, own, left, some⟩ := one okYes low between _ _ _ _ order
      (fun held => holds (ofYes held)) queued read
    refine ⟨high, own.weaken (begins_part order ofYes), left, fun full => ?_⟩
    exact some ((Bool.and_eq_true _ _).mp full).1
  · obtain ⟨high, own, left, some⟩ := two okNo low between _ _ _ _ order
      (fun held => holds (ofNo held)) queued read
    refine ⟨high, own.weaken (begins_part order ofNo), left, fun full => ?_⟩
    exact some ((Bool.and_eq_true _ _).mp full).2

theorem advances_many (one : Advances comments goal item) :
    Advances comments goal (.many probe item) := by
  intro ok low between built tokens made rest order holds queued read
  change (orderly item && !mentions item) = true at ok
  simp only [Bool.and_eq_true, Bool.not_eq_true'] at ok
  obtain ⟨ok, plain⟩ := ok
  -- Items do not mention what is held, so each begins where the one before it ends.
  have each : ∀ low, Queued comments low tokens →
      ∃ high, Made comments low made high ∧ Queued comments high rest := by
    refine Shape.read_many (motive := fun tokens made rest => ∀ low, Queued comments low tokens →
      ∃ high, Made comments low made high ∧ Queued comments high rest) ?_ ?_ read
    · exact fun tokens low queued => ⟨low, Made.nothing, queued⟩
    · intro tokens nodes behind others rest inner ih low queued
      obtain ⟨between, front, left, _⟩ := one ok low low built tokens nodes behind (Nat.le_refl _)
        (by simp [plain]) queued inner
      rw [begins_plain plain] at front
      obtain ⟨high, back, done⟩ := ih between left
      exact ⟨high, front.append back, done⟩
  obtain ⟨high, own, left⟩ := each between queued
  have start : begins (.many probe item) low between = between := begins_plain plain
  refine ⟨high, ?_, left, fun full => nomatch full⟩
  rw [start]
  exact own

theorem advances_node (r : Rule) (one : Advances comments goal body) :
    Advances comments goal (.node r body) := by
  intro ok low between built tokens made rest order holds queued read
  change (orderly body && makes body && !commentRules.contains r) = true at ok
  simp only [Bool.and_eq_true, Bool.not_eq_true'] at ok
  obtain ⟨⟨ok, full⟩, solid⟩ := ok
  obtain ⟨nodes, inside, rfl⟩ := Shape.read_node read
  obtain ⟨high, own, left, some⟩ := one ok low between _ _ _ _ order holds queued inside
  exact ⟨high, own.node r (some full) solid, left, fun _ => List.cons_ne_nil _ _⟩

theorem advances_field (f : Field) (one : Advances comments goal body) :
    Advances comments goal (.field f body) := by
  intro ok low between built tokens made rest order holds queued read
  obtain ⟨nodes, inside, rfl⟩ := Shape.read_field read
  obtain ⟨high, own, left, some⟩ := one ok low between _ _ _ _ order holds queued inside
  exact ⟨high, own.labelled f, left, fun full none => some full (List.map_eq_nil_iff.mp none)⟩

theorem advances_chain (one : Advances comments goal base) (two : Advances comments goal step) :
    Advances comments goal (.chain base probe step) := by
  intro ok low between built tokens made rest order holds queued read
  change (orderly base && !mentions base && makes base && orderly step && makes step) = true at ok
  simp only [Bool.and_eq_true, Bool.not_eq_true'] at ok
  obtain ⟨⟨⟨⟨ok, plain⟩, full⟩, also⟩, wrapped⟩ := ok
  -- What the chain holds always begins where the chain does.
  obtain ⟨more, high, own, done⟩ : made ≠ [] ∧ ∃ high, Made comments between made high ∧
      Queued comments high rest := by
    refine Shape.read_chain (motive := fun held tokens => held ≠ [] ∧
      ∃ high, Made comments between held high ∧ Queued comments high tokens) ?_ ?_ read
    · intro nodes behind before
      obtain ⟨middle, first, left, some⟩ := one ok low between _ _ _ _ order
        (by simp [plain]) queued before
      rw [begins_plain plain] at first
      exact ⟨some full, middle, first, left⟩
    · rintro held tokens nodes behind ⟨some, middle, front, queued⟩ inner
      obtain ⟨high, own, left, more⟩ := two also between middle held tokens nodes behind
        front.lies.order (fun _ => ⟨some, front⟩) queued inner
      exact ⟨more wrapped, high, own.weaken (begins_le step front.lies.order), left⟩
  have start : begins (.chain base probe step) low between = between := begins_plain plain
  refine ⟨high, ?_, done, fun _ => more⟩
  rw [start]
  exact own

end

theorem advances_call (goals : Forward comments goal) (g : Goal) :
    Advances comments goal (.call g) := by
  intro ok low between built tokens made rest order holds queued read
  have other : g ≠ .program := bne_iff_ne.mp ok
  obtain ⟨high, own, left, some⟩ := goals g other between tokens made rest queued read
  exact ⟨high, own, left, fun _ => some⟩

theorem form_advances (goals : Forward comments goal) (filled : ∀ c ∈ comments, c.start < c.stop)
    (form : Form) : Advances comments goal form := by
  induction form with
  | done =>
      refine advances_nothing rfl rfl fun _ _ _ _ _ queued read => ?_
      cases read
      exact ⟨rfl, queued⟩
  | never =>
      intro _ _ _ _ _ _ _ _ _ _ read
      cases read
  | held => exact advances_held
  | heldIs admits =>
      refine advances_nothing rfl rfl fun _ _ _ _ _ queued read => ?_
      obtain ⟨none, rfl⟩ := Shape.read_held_is read
      exact ⟨none, queued⟩
  | peek admits =>
      refine advances_nothing rfl rfl fun _ _ _ _ _ queued read => ?_
      obtain ⟨none, rfl⟩ := Shape.read_peek read
      exact ⟨none, queued⟩
  | stop =>
      refine advances_nothing rfl rfl fun _ _ _ _ _ queued read => ?_
      obtain ⟨none, rfl⟩ := Shape.read_stop read
      exact ⟨none, queued⟩
  | keyword texts => exact advances_leaf rfl rfl
  | symbol texts => exact advances_leaf rfl rfl
  | cut text => exact advances_cut filled text
  | word r admits => exact advances_leaf rfl rfl
  | lexeme admits => exact advances_leaf rfl rfl
  | skip =>
      refine advances_nothing rfl rfl fun _ _ _ _ _ queued read => ?_
      obtain ⟨t, rfl, none⟩ := Shape.read_skip read
      exact ⟨none, queued.drop⟩
  | group =>
      refine advances_nothing rfl rfl fun _ _ _ _ _ queued read => ?_
      obtain ⟨t, behind, rfl, closed, none⟩ := Shape.read_group read
      exact ⟨none, closing_queued _ _ _ queued.drop closed⟩
  | seq _ _ one two => exact advances_seq one two
  | pick _ _ _ _ one two => exact advances_pick one two
  | many _ _ _ one => exact advances_many one
  | node r _ one => exact advances_node r one
  | field f _ one => exact advances_field f one
  | chain _ _ _ one _ two => exact advances_chain one two
  | call g => exact advances_call goals g

theorem read_goal_forward (filled : ∀ c ∈ comments, c.start < c.stop)
    (passes : ∀ g, g ≠ .program → goalOrderly g = true) (fuel : Nat) :
    Forward comments (readGoal java fuel) := by
  refine Shape.read_goal_induction (motive := Forward comments) ?_ (fun goal ih => ?_) fuel
  · intro g _ low tokens made rest _ read
    cases read
  · intro g other low tokens made rest queued read
    have passed := passes g other
    simp only [goalOrderly, Bool.and_eq_true, Bool.not_eq_true'] at passed
    obtain ⟨⟨ok, plain⟩, full⟩ := passed
    obtain ⟨high, own, left, some⟩ := form_advances ih filled (java g) ok low low [] tokens made
      rest (Nat.le_refl _) (by simp [plain]) queued read
    rw [begins_plain plain] at own
    exact ⟨high, own, left, some full⟩

end

/-! The goals of the grammar -/

theorem choose_orderly (alternatives : List (Form × Form))
    (each : ∀ entry ∈ alternatives, (orderly entry.2 && makes entry.2) = true) :
    (orderly (Shape.choose alternatives .never) && makes (Shape.choose alternatives .never)) =
      true := by
  induction alternatives with
  | nil => rfl
  | cons entry rest ih =>
      have own := each entry List.mem_cons_self
      have others := ih fun other member => each other (List.mem_cons_of_mem _ member)
      simp only [Bool.and_eq_true] at own others
      simp only [Shape.choose, List.foldr_cons, orderly, makes, Bool.and_eq_true]
      exact ⟨⟨own.1, others.1⟩, own.2, others.2⟩

set_option maxRecDepth 100000 in
theorem links_orderly (place : Place) :
    ∀ entry ∈ links 0 place, (orderly entry.2 && makes entry.2) = true := by
  obtain ⟨inSum, inLabel⟩ := place
  rw [← List.all_eq_true]
  revert inSum inLabel
  decide

theorem expression_orderly (level : Nat) (place : Place) :
    goalOrderly (.expression level place) = true := by
  have step := choose_orderly (links level place) fun entry member =>
    links_orderly place entry (links_first level place entry member)
  simp only [Bool.and_eq_true] at step
  simp [goalOrderly, java, expressionForm, orderly, mentions, makes, step.1, step.2]

set_option maxRecDepth 100000 in
theorem java_orderly (g : Goal) (other : g ≠ .program) : goalOrderly g = true := by
  cases g with
  | program => exact absurd rfl other
  | expression level place => exact expression_orderly level place
  | operand place =>
      obtain ⟨inSum, inLabel⟩ := place
      revert inSum inLabel
      decide
  | castValue place =>
      obtain ⟨inSum, inLabel⟩ := place
      revert inSum inLabel
      decide
  | primary place => exact (show goalOrderly (.primary {}) = true by decide)
  | statement opens =>
      revert opens
      decide
  | anyType spot => cases spot <;> decide
  | plainType spot => cases spot <;> decide
  | simpleType spot => cases spot <;> decide
  | _ => decide

theorem program_made {comments : List Comment} (filled : ∀ c ∈ comments, c.start < c.stop)
    (fuel low : Nat) (tokens : List Token) (made : List Node) (rest : List Token)
    (queued : Queued comments low tokens)
    (read : readGoal java fuel .program tokens = some (made, rest)) :
    ∃ nodes high, made = [Node.ofRule .program nodes] ∧ Made comments low nodes high := by
  cases fuel with
  | zero => cases read
  | succ fuel =>
      obtain ⟨inner, before, same⟩ := Option.map_eq_some_iff.mp read
      cases same
      have advances := form_advances (read_goal_forward filled java_orderly fuel) filled
      obtain ⟨high, own, _, _⟩ := advances _ (by decide) low low [] tokens _ _ (Nat.le_refl _)
        (fun held => absurd held (by decide)) queued before
      exact ⟨inner.1, high, rfl, own⟩

end JavaOutline.Grammar
