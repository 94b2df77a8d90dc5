import JavaOutline.Proofs.Grammar.Spacing

/-!
Nothing that is written is lost. Every character of a text that is not blank is part of a token or of
a comment, reading keeps the bytes of all tokens it takes in leaves, and putting comments in adds
leaves and takes none away.
-/
namespace JavaOutline.Tree

def HasByte (tokens : List Token) (p : Nat) : Prop :=
  ∃ t ∈ tokens, t.start ≤ p ∧ p < t.stop

/-- A leaf at or below the node has the byte. -/
def Node.Owns (n : Node) (p : Nat) : Prop :=
  ∃ leaf, n.Has leaf ∧ leaf.children = [] ∧ leaf.start ≤ p ∧ p < leaf.stop

def Owned (nodes : List Node) (p : Nat) : Prop :=
  ∃ n ∈ nodes, n.Owns p

def Node.Plain (n : Node) : Prop :=
  n.Throughout fun m => m.isComment = false

def Roomy (tokens : List Token) : Prop :=
  ∀ t ∈ tokens, t.start + t.text.length ≤ t.stop

section
variable {p : Nat} {n : Node} {nodes others : List Node}

theorem Owned.left (owned : Owned nodes p) : Owned (nodes ++ others) p := by
  obtain ⟨n, member, owns⟩ := owned
  exact ⟨n, List.mem_append_left _ member, owns⟩

theorem Owned.right (owned : Owned others p) : Owned (nodes ++ others) p := by
  obtain ⟨n, member, owns⟩ := owned
  exact ⟨n, List.mem_append_right _ member, owns⟩

theorem owned_cons : Owned (n :: nodes) p ↔ n.Owns p ∨ Owned nodes p := by
  simp [Owned]

theorem Owned.above (owned : Owned n.children p) : n.Owns p := by
  obtain ⟨child, member, leaf, has, rest⟩ := owned
  exact ⟨leaf, .deeper member has, rest⟩

theorem Node.Owns.below (owns : n.Owns p) (inner : n.children ≠ []) : Owned n.children p := by
  obtain ⟨leaf, has, bare, inside⟩ := owns
  cases has with
  | self => exact absurd bare inner
  | deeper member has => exact ⟨_, member, leaf, has, bare, inside⟩

theorem leaf_owns (kind : Kind) (label : Option Field) {start stop : Nat} (low : start ≤ p)
    (high : p < stop) : (Node.mk kind label start stop []).Owns p :=
  ⟨_, .self _, rfl, low, high⟩

theorem owns_labelled (f : Field) (owns : n.Owns p) : (n.labelled f).Owns p := by
  obtain ⟨kind, label, start, stop, children⟩ := n
  cases children with
  | nil =>
      obtain ⟨leaf, has, _, inside⟩ := owns
      cases has with
      | self => exact leaf_owns kind (some f) inside.1 inside.2
      | deeper member => cases member
  | cons child rest =>
      exact Owned.above (n := .mk kind (some f) start stop (child :: rest))
        (owns.below (List.cons_ne_nil child rest))

theorem plain_labelled (f : Field) (plain : n.Plain) : (n.labelled f).Plain := by
  have own := plain.here
  cases n
  exact .intro own fun child member => plain.child member

theorem plain_leaf {kind : Kind} {start stop : Nat}
    (solid : (Node.mk kind none start stop []).isComment = false) :
    (Node.mk kind none start stop []).Plain :=
  .intro solid (List.forall_mem_nil _)

end

end JavaOutline.Tree

namespace JavaOutline.Grammar

open JavaOutline.Tree

/-- Whether what a chain holds is among the nodes that a shape makes, whichever way it goes. -/
def carries : Form → Bool
  | .never | .held => true
  | .seq first _ => carries first
  | .pick _ yes no => carries yes && carries no
  | .node _ body | .field _ body => carries body
  | _ => false

/-- The goals that are only looked ahead for. -/
def lookaheads : List Goal :=
  [.emptyCall, .skippedChoice]

/-- Whether a shape keeps the tokens it takes: it skips none, and its chains keep what they hold. -/
def keepsTokens : Form → Bool
  | .skip | .group => false
  | .seq first second => keepsTokens first && keepsTokens second
  | .pick _ yes no => keepsTokens yes && keepsTokens no
  | .many _ item => keepsTokens item
  | .node _ body | .field _ body => keepsTokens body
  | .chain base _ step => keepsTokens base && keepsTokens step && carries step
  | .call goal => !lookaheads.contains goal
  | _ => true

structure Kept (tokens : List Token) (made : List Node) (rest : List Token) : Prop where
  roomy : Roomy rest
  plain : ∀ n ∈ made, n.Plain
  bytes : ∀ p, HasByte tokens p → Owned made p ∨ HasByte rest p

theorem Kept.nothing {tokens : List Token} (roomy : Roomy tokens) : Kept tokens [] tokens :=
  ⟨roomy, List.forall_mem_nil _, fun _ => .inr⟩

theorem Kept.append {tokens behind rest : List Token} {nodes others : List Node}
    (first : Kept tokens nodes behind) (second : Kept behind others rest) :
    Kept tokens (nodes ++ others) rest := by
  refine ⟨second.roomy, List.forall_mem_append.mpr ⟨first.plain, second.plain⟩, fun p has => ?_⟩
  rcases first.bytes p has with owned | later
  · exact .inl owned.left
  · exact (second.bytes p later).imp_left Owned.right

theorem Kept.leaf {t : Token} {rest : List Token} (roomy : Roomy (t :: rest)) (kind : Kind)
    (solid : (Node.mk kind none t.start t.stop []).isComment = false) :
    Kept (t :: rest) [.mk kind none t.start t.stop []] rest := by
  obtain ⟨_, later⟩ := List.forall_mem_cons.mp roomy
  refine ⟨later, List.forall_mem_singleton.mpr (plain_leaf solid), fun p has => ?_⟩
  obtain ⟨u, member, low, high⟩ := has
  rcases List.mem_cons.mp member with rfl | behind
  · exact .inl ⟨_, List.mem_singleton_self _, leaf_owns kind none low high⟩
  · exact .inr ⟨u, behind, low, high⟩

/-- What is read beside the goals that are only looked ahead for keeps its tokens. -/
def Keeping (goal : Goal → List Token → Reading) : Prop :=
  ∀ g, lookaheads.contains g = false → g ≠ .program → ∀ tokens made rest, Roomy tokens →
    goal g tokens = some (made, rest) → Kept tokens made rest

theorem touching_start {at? : Option Nat} {t : Token} {tokens : List Token} {first : Nat}
    (fresh : at? = none → ∀ u ∈ (t :: tokens).head?, u.start = first)
    (begun : ∀ s ∈ at?, first ≤ s) (touching : ¬ at?.any (· != t.start) = true) :
    first ≤ t.start ∧ ∀ s ∈ at?, s = t.start := by
  cases here : at? with
  | none => exact ⟨Nat.le_of_eq (fresh here t rfl).symm, by rintro _ ⟨⟩⟩
  | some s =>
      have same : s = t.start := by simpa [here] using touching
      refine ⟨same ▸ begun s here, ?_⟩
      rintro _ ⟨⟩
      exact same

theorem cut_kept (tokens : List Token) (at? : Option Nat) (wanted : List Char) (first last : Nat)
    (rest : List Token) (roomy : Roomy tokens)
    (fresh : at? = none → ∀ t ∈ tokens.head?, t.start = first) (begun : ∀ s ∈ at?, first ≤ s)
    (found : cutFrom? at? wanted tokens = some (last, rest)) :
    Roomy rest ∧ (∀ s ∈ at?, s ≤ last) ∧
      ∀ p, HasByte tokens p → first ≤ p ∧ p < last ∨ HasByte rest p := by
  fun_induction cutFrom? at? wanted tokens with
  | case1 at? tokens =>
      obtain ⟨s, same, end'⟩ := Option.map_eq_some_iff.mp found
      cases end'
      refine ⟨roomy, fun other here => ?_, fun _ => .inr⟩
      rw [same] at here
      exact Nat.le_of_eq (Option.some.inj here).symm
  | case2 => cases found
  | case3 => cases found
  | case4 at? c wanted t tokens chars touching whole =>
      rename_i ih
      obtain ⟨order, meets⟩ := touching_start fresh begun touching
      obtain ⟨own, others⟩ := List.forall_mem_cons.mp roomy
      obtain ⟨left, reaches, bytes⟩ := ih others (by rintro ⟨⟩)
        (by rintro _ ⟨⟩; omega) found
      have far := reaches t.stop rfl
      refine ⟨left, fun s here => ?_, fun p has => ?_⟩
      · have same := meets s here
        omega
      · obtain ⟨u, member, low, high⟩ := has
        rcases List.mem_cons.mp member with rfl | behind
        · exact .inl ⟨by omega, by omega⟩
        · exact bytes p ⟨u, behind, low, high⟩
  | case5 => cases found
  | case6 at? c wanted t tokens chars touching longer shorter left stop =>
      obtain ⟨order, meets⟩ := touching_start fresh begun touching
      obtain ⟨own, others⟩ := List.forall_mem_cons.mp roomy
      obtain ⟨rfl, rfl⟩ : stop = last ∧ _ = rest := by simpa using found
      have size : wanted.length + 1 + left.length = t.text.length := by
        obtain ⟨more, same⟩ : ∃ more, c :: wanted ++ more = chars :=
          List.isPrefixOf_iff_prefix.mp shorter
        have whole : t.text.length = (c :: wanted ++ more).length := by
          rw [same, String.length_toList]
        simp [left, ← same, whole]
        omega
      refine ⟨List.forall_mem_cons.mpr ⟨?_, others⟩, fun s here => ?_, fun p has => ?_⟩
      · simp only [String.length_ofList, stop]
        omega
      · have same := meets s here
        simp only [stop]
        omega
      · obtain ⟨u, member, low, high⟩ := has
        rcases List.mem_cons.mp member with rfl | behind
        -- The rest of a token that is cut stays in front of the others.
        · by_cases before : p < stop
          · exact .inl ⟨by omega, before⟩
          · exact .inr ⟨_, List.mem_cons_self, Nat.not_lt.mp before, high⟩
        · exact .inr ⟨u, List.mem_cons_of_mem _ behind, low, high⟩
  | case7 => cases found

section
variable {goal : Goal → List Token → Reading}

/-- What is read while nodes are held keeps the bytes of these too. -/
structure Wrapped (held : List Node) (tokens : List Token) (made : List Node) (rest : List Token) :
    Prop extends Kept tokens made rest where
  held : ∀ p, Owned held p → Owned made p

theorem Kept.wrapped {tokens between rest : List Token} {held made : List Node}
    (kept : Kept tokens held between) (wraps : Wrapped held between made rest) :
    Kept tokens made rest := by
  refine ⟨wraps.roomy, wraps.plain, fun p has => ?_⟩
  rcases kept.bytes p has with owned | later
  · exact .inl (wraps.held p owned)
  · exact wraps.bytes p later

def Conserves (goal : Goal → List Token → Reading) (form : Form) : Prop :=
  orderly form = true → keepsTokens form = true → ∀ built tokens made rest,
    (∀ n ∈ built, n.Plain) → Roomy tokens → form.read goal built tokens = some (made, rest) →
    Kept tokens made rest ∧ (carries form = true → ∀ p, Owned built p → Owned made p)

theorem conserves_nothing {form : Form} (loses : carries form = false)
    (stays : ∀ built tokens made rest, form.read goal built tokens = some (made, rest) →
      made = [] ∧ rest = tokens) :
    Conserves goal form := by
  intro _ _ built tokens made rest _ roomy read
  obtain ⟨rfl, rfl⟩ := stays built tokens made rest read
  exact ⟨.nothing roomy, by simp [loses]⟩

theorem conserves_leaf {form : Form} (leaf : isLeaf form = true) (loses : carries form = false) :
    Conserves goal form := by
  intro ok _ built tokens made rest _ roomy read
  obtain ⟨t, kind, rfl, rfl, solid⟩ := leaf_read leaf ok read
  exact ⟨.leaf roomy kind solid, by simp [loses]⟩

theorem node_kept {r : Rule} (solid : commentRules.contains r = false) {tokens rest : List Token}
    {nodes : List Node} (kept : Kept tokens nodes rest) :
    Kept tokens [Node.ofRule r nodes] rest := by
  refine ⟨kept.roomy, List.forall_mem_singleton.mpr (.intro ?_ kept.plain), fun p has => ?_⟩
  · simpa [commentRules, Node.ofRule, Node.isComment, Node.is, Node.kind] using solid
  · refine (kept.bytes p has).imp_left fun owned => ⟨_, List.mem_singleton_self _, ?_⟩
    exact Owned.above (n := Node.ofRule r nodes) owned

theorem owned_labelled (f : Field) {nodes : List Node} {p : Nat} (owned : Owned nodes p) :
    Owned (nodes.map (Node.labelled f)) p := by
  obtain ⟨n, member, owns⟩ := owned
  exact ⟨_, List.mem_map_of_mem member, owns_labelled f owns⟩

theorem conserves_held : Conserves goal .held := by
  intro _ _ built tokens made rest plain roomy read
  cases read
  exact ⟨⟨roomy, plain, fun _ => .inr⟩, fun _ _ => id⟩

theorem conserves_cut (text : String) : Conserves goal (.cut text) := by
  intro _ _ built tokens made rest _ roomy read
  obtain ⟨t, behind, last, rfl, cut, rfl⟩ := Shape.read_cut read
  obtain ⟨left, _, bytes⟩ := cut_kept _ none _ t.start _ _ roomy
    (by rintro _ _ ⟨⟩; rfl) (by rintro _ ⟨⟩) cut
  refine ⟨⟨left, List.forall_mem_singleton.mpr (plain_leaf rfl), fun p has => ?_⟩,
    fun carried => nomatch carried⟩
  exact (bytes p has).imp_left fun inside =>
    ⟨_, List.mem_singleton_self _, leaf_owns _ none inside.1 inside.2⟩

section
variable {first second probe yes no item body base step : Form}

theorem conserves_seq (one : Conserves goal first) (two : Conserves goal second) :
    Conserves goal (.seq first second) := by
  intro ok keeps built tokens made rest plain roomy read
  obtain ⟨both, _⟩ := (Bool.and_eq_true _ _).mp ok
  obtain ⟨okFirst, okSecond⟩ := (Bool.and_eq_true _ _).mp both
  obtain ⟨keepsFirst, keepsSecond⟩ := (Bool.and_eq_true _ _).mp keeps
  obtain ⟨nodes, behind, others, before, after, rfl⟩ := Shape.read_seq read
  obtain ⟨front, held⟩ := one okFirst keepsFirst _ _ _ _ plain roomy before
  obtain ⟨back, _⟩ := two okSecond keepsSecond _ _ _ _ plain front.roomy after
  exact ⟨front.append back, fun carried p owned => (held carried p owned).left⟩

theorem conserves_pick (one : Conserves goal yes) (two : Conserves goal no) :
    Conserves goal (.pick probe yes no) := by
  intro ok keeps built tokens made rest plain roomy read
  obtain ⟨okYes, okNo⟩ := (Bool.and_eq_true _ _).mp ok
  obtain ⟨keepsYes, keepsNo⟩ := (Bool.and_eq_true _ _).mp keeps
  rcases Shape.read_pick read with read | read
  · obtain ⟨kept, held⟩ := one okYes keepsYes _ _ _ _ plain roomy read
    exact ⟨kept, fun both => held ((Bool.and_eq_true _ _).mp both).1⟩
  · obtain ⟨kept, held⟩ := two okNo keepsNo _ _ _ _ plain roomy read
    exact ⟨kept, fun both => held ((Bool.and_eq_true _ _).mp both).2⟩

theorem conserves_many (one : Conserves goal item) : Conserves goal (.many probe item) := by
  intro ok keeps built tokens made rest plain roomy read
  obtain ⟨ok, _⟩ := (Bool.and_eq_true _ _).mp ok
  refine ⟨Shape.read_many (motive := fun tokens made rest => Roomy tokens → Kept tokens made rest)
    (fun _ => .nothing) ?_ read roomy, fun carried => nomatch carried⟩
  intro tokens nodes behind others rest inner ih roomy
  obtain ⟨kept, _⟩ := one ok keeps built tokens nodes behind plain roomy inner
  exact kept.append (ih kept.roomy)

theorem conserves_node (r : Rule) (one : Conserves goal body) : Conserves goal (.node r body) := by
  intro ok keeps built tokens made rest plain roomy read
  change (orderly body && makes body && !commentRules.contains r) = true at ok
  simp only [Bool.and_eq_true, Bool.not_eq_true'] at ok
  obtain ⟨⟨ok, _⟩, solid⟩ := ok
  obtain ⟨nodes, inside, rfl⟩ := Shape.read_node read
  obtain ⟨kept, held⟩ := one ok keeps _ _ _ _ plain roomy inside
  refine ⟨node_kept solid kept, fun carried p owned => ⟨_, List.mem_singleton_self _, ?_⟩⟩
  exact Owned.above (n := Node.ofRule r nodes) (held carried p owned)

theorem conserves_field (f : Field) (one : Conserves goal body) :
    Conserves goal (.field f body) := by
  intro ok keeps built tokens made rest plain roomy read
  obtain ⟨nodes, inside, rfl⟩ := Shape.read_field read
  obtain ⟨kept, held⟩ := one ok keeps _ _ _ _ plain roomy inside
  refine ⟨⟨kept.roomy, ?_, fun p has => ?_⟩, fun carried p owned => ?_⟩
  · exact List.forall_mem_map.mpr fun n member => plain_labelled f (kept.plain n member)
  · exact (kept.bytes p has).imp_left (owned_labelled f)
  · exact owned_labelled f (held carried p owned)

-- What a chain holds reaches the result only through its steps, so these must carry it.
theorem conserves_chain (one : Conserves goal base) (two : Conserves goal step) :
    Conserves goal (.chain base probe step) := by
  intro ok keeps built tokens made rest plain roomy read
  change (orderly base && !mentions base && makes base && orderly step && makes step) = true at ok
  change (keepsTokens base && keepsTokens step && carries step) = true at keeps
  simp only [Bool.and_eq_true] at ok keeps
  obtain ⟨⟨⟨⟨ok, _⟩, _⟩, also⟩, _⟩ := ok
  obtain ⟨⟨keeps, further⟩, carried⟩ := keeps
  refine ⟨Shape.read_chain (motive := fun made rest => Kept tokens made rest) ?_ ?_ read,
    fun carried => nomatch carried⟩
  · exact fun nodes behind before => (one ok keeps _ _ _ _ plain roomy before).1
  · intro held between nodes behind kept inner
    obtain ⟨more, wraps⟩ := two also further held between nodes behind kept.plain kept.roomy inner
    exact kept.wrapped ⟨more, wraps carried⟩

end

theorem conserves_call (goals : Keeping goal) (g : Goal) : Conserves goal (.call g) := by
  intro ok keeps built tokens made rest _ roomy read
  have other : g ≠ .program := bne_iff_ne.mp ok
  have ahead : lookaheads.contains g = false := (Bool.not_eq_true' _).mp keeps
  exact ⟨goals g ahead other tokens made rest roomy read, fun carried => nomatch carried⟩

-- Nothing is asked of probes, as what they read is thrown away.
theorem form_conserves (goals : Keeping goal) (form : Form) : Conserves goal form := by
  induction form with
  | done => exact conserves_nothing rfl fun _ _ _ _ read => by cases read; exact ⟨rfl, rfl⟩
  | never =>
      intro _ _ _ _ _ _ _ _ read
      cases read
  | held => exact conserves_held
  | heldIs admits => exact conserves_nothing rfl fun _ _ _ _ => Shape.read_held_is
  | peek admits => exact conserves_nothing rfl fun _ _ _ _ => Shape.read_peek
  | stop => exact conserves_nothing rfl fun _ _ _ _ => Shape.read_stop
  | keyword texts => exact conserves_leaf rfl rfl
  | symbol texts => exact conserves_leaf rfl rfl
  | word r admits => exact conserves_leaf rfl rfl
  | lexeme admits => exact conserves_leaf rfl rfl
  | cut text => exact conserves_cut text
  | skip =>
      intro _ keeps
      cases keeps
  | group =>
      intro _ keeps
      cases keeps
  | seq _ _ one two => exact conserves_seq one two
  | pick _ _ _ _ one two => exact conserves_pick one two
  | many _ _ _ one => exact conserves_many one
  | node r _ one => exact conserves_node r one
  | field f _ one => exact conserves_field f one
  | chain _ _ _ one _ two => exact conserves_chain one two
  | call g => exact conserves_call goals g

theorem read_goal_keeping
    (passes : ∀ g, lookaheads.contains g = false → keepsTokens (java g) = true) (fuel : Nat) :
    Keeping (readGoal java fuel) := by
  refine Shape.read_goal_induction (motive := Keeping) ?_ (fun goal ih => ?_) fuel
  · intro g _ _ tokens made rest _ read
    cases read
  · intro g ahead other tokens made rest roomy read
    have passed := java_orderly g other
    simp only [goalOrderly, Bool.and_eq_true] at passed
    exact (form_conserves ih (java g) passed.1.1 (passes g ahead) [] tokens made rest
      (List.forall_mem_nil _) roomy read).1

end

theorem choose_keeps (alternatives : List (Form × Form))
    (each : ∀ entry ∈ alternatives, (keepsTokens entry.2 && carries entry.2) = true) :
    (keepsTokens (Shape.choose alternatives .never) && carries (Shape.choose alternatives .never)) =
      true := by
  induction alternatives with
  | nil => rfl
  | cons entry rest ih =>
      have own := each entry List.mem_cons_self
      have others := ih fun other member => each other (List.mem_cons_of_mem _ member)
      simp only [Bool.and_eq_true] at own others
      simp only [Shape.choose, List.foldr_cons, keepsTokens, carries, Bool.and_eq_true]
      exact ⟨⟨own.1, others.1⟩, own.2, others.2⟩

set_option maxRecDepth 100000 in
theorem links_keep (place : Place) :
    ∀ entry ∈ links 0 place, (keepsTokens entry.2 && carries entry.2) = true := by
  obtain ⟨inSum, inLabel⟩ := place
  rw [← List.all_eq_true]
  revert inSum inLabel
  decide

theorem expression_keeps (level : Nat) (place : Place) :
    keepsTokens (java (.expression level place)) = true := by
  have step := choose_keeps (links level place) fun entry member =>
    links_keep place entry (links_first level place entry member)
  simp only [Bool.and_eq_true] at step
  simp [java, expressionForm, keepsTokens, step.1, step.2, lookaheads]

set_option maxRecDepth 100000 in
theorem java_keeps (g : Goal) (taken : lookaheads.contains g = false) :
    keepsTokens (java g) = true := by
  cases g with
  | emptyCall => cases taken
  | skippedChoice => cases taken
  | expression level place => exact expression_keeps level place
  | operand place =>
      obtain ⟨inSum, inLabel⟩ := place
      revert inSum inLabel
      decide
  | castValue place =>
      obtain ⟨inSum, inLabel⟩ := place
      revert inSum inLabel
      decide
  | primary place => exact (show keepsTokens (java (.primary {})) = true by decide)
  | statement opens =>
      revert opens
      decide
  | anyType spot => cases spot <;> decide
  | plainType spot => cases spot <;> decide
  | simpleType spot => cases spot <;> decide
  | _ => decide

/-- A source that is read to its end has all bytes of its tokens in its leaves. -/
theorem program_kept (fuel : Nat) (tokens : List Token) (made : List Node) (roomy : Roomy tokens)
    (read : readGoal java fuel .program tokens = some (made, [])) :
    ∃ nodes, made = [Node.ofRule .program nodes] ∧ (∀ n ∈ nodes, n.Plain) ∧
      ∀ p, HasByte tokens p → Owned nodes p := by
  cases fuel with
  | zero => cases read
  | succ fuel =>
      obtain ⟨⟨nodes, rest⟩, before, same⟩ := Option.map_eq_some_iff.mp read
      obtain ⟨rfl, rfl⟩ : [Node.ofRule .program nodes] = made ∧ rest = [] := by simpa using same
      have conserves := form_conserves (read_goal_keeping java_keeps fuel)
      obtain ⟨kept, _⟩ := conserves _ (by decide) (by decide) [] tokens _ _ (List.forall_mem_nil _)
        roomy before
      refine ⟨nodes, rfl, kept.plain, fun p has => (kept.bytes p has).resolve_right ?_⟩
      rintro ⟨t, member, _⟩
      cases member

end JavaOutline.Grammar
