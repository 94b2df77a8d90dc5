import JavaOutline.Proofs.Grammar.Conformance
import JavaOutline.Proofs.Grammar.Tokens

/-!
The concrete tree of a text is laid out as its rules say. Comments are put into the tree after it
was read; they go by every layout, wherever they stand.
-/
namespace JavaOutline.Grammar

open JavaOutline.Tree

theorem scan_comments (fuel : Nat) (modes : List Mode) (offset : Nat) (chars : List Char)
    (tokens : List Token) (comments : List Comment)
    (scanned : scan fuel modes offset chars = some (tokens, comments)) :
    ∀ c ∈ comments, c.rule ∈ commentRules := by
  refine scan_induction (motive := fun _ _ _ comments => ∀ c ∈ comments, c.rule ∈ commentRules)
    (fun _ => List.forall_mem_nil _) ?_ scanned
  intro _ _ _ piece _ _ found _ inner
  refine ⟨fun _ => inner, fun r role => List.forall_mem_cons.mpr ⟨?_, inner⟩, fun _ _ => inner⟩
  exact (piece_known found).comment r role

theorem tokens_comments (chars : List Char) (tokens : List Token) (comments : List Comment)
    (found : tokens? chars = some (tokens, comments)) : ∀ c ∈ comments, c.rule ∈ commentRules := by
  unfold tokens? at found
  split at found
  · split at found
    · exact scan_comments _ _ _ _ _ _ found
    · exact scan_comments _ _ _ _ _ _ found
  · cases found
    exact List.forall_mem_nil _

/-- What layouts look at. -/
def stamp (n : Node) : Kind × Option Field :=
  (n.kind, n.label)

theorem Slot.admits_stamp (slot : Slot) {n m : Node} (same : stamp n = stamp m) :
    slot.admits n = slot.admits m := by
  have kinds : n.kind = m.kind := congrArg Prod.fst same
  have labels : n.label = m.label := congrArg Prod.snd same
  simp [Slot.admits, Node.isComment, Node.is, kinds, labels]

theorem accepts_stamp (layout : Layout) (nodes others : List Node)
    (same : others.map stamp = nodes.map stamp) (accepts : Accepts layout nodes) :
    Accepts layout others := by
  induction layout generalizing nodes others with
  | nil =>
      cases accepts
      exact List.map_eq_nil_iff.mp same
  | cons item rest ih =>
      cases item with
      | one slot =>
          obtain ⟨first, behind, rfl, admits, inner⟩ := accepts
          obtain ⟨other, after, rfl, alike, further⟩ := List.map_eq_cons_iff.mp same
          refine ⟨other, after, rfl, ?_, ih behind after further inner⟩
          rwa [slot.admits_stamp alike]
      | maybe slot =>
          obtain ⟨first, behind, rfl, admits, inner⟩ := accepts
          cases first with
          | none => exact ⟨none, others, rfl, by rintro _ ⟨⟩, ih behind others same inner⟩
          | some first =>
              obtain ⟨other, after, rfl, alike, further⟩ := List.map_eq_cons_iff.mp same
              refine ⟨some other, after, rfl, ?_, ih behind after further inner⟩
              rintro _ ⟨⟩
              rw [slot.admits_stamp alike]
              exact admits first rfl
      | several slots =>
          obtain ⟨front, behind, rfl, each, inner⟩ := accepts
          rw [List.map_append] at same
          obtain ⟨before, after, rfl, alike, further⟩ := List.map_eq_append_iff.mp same
          refine ⟨before, after, rfl, fun n member => ?_, ih behind after further inner⟩
          have among : stamp n ∈ front.map stamp := alike ▸ List.mem_map.mpr ⟨n, member, rfl⟩
          obtain ⟨m, inside, stamped⟩ := List.mem_map.mp among
          have admits := each m inside
          rwa [List.any_congr rfl fun slot => slot.admits_stamp stamped] at admits

theorem weave_into_stamp (c : Comment) (n : Node) : stamp (weaveInto c n) = stamp n := by
  cases n
  rw [weaveInto]
  rfl

theorem is_comment_stamp {n m : Node} (same : stamp n = stamp m) : n.isComment = m.isComment := by
  have kinds : n.kind = m.kind := congrArg Prod.fst same
  simp [Node.isComment, Node.is, kinds]

theorem comment_node (c : Comment) (rule : c.rule ∈ commentRules) :
    (commentNode c).isComment = true ∧ (commentNode c).label = none := by
  simpa [commentRules, commentNode, Node.isComment, Node.is, Node.kind, Node.label] using rule

theorem comment_laid (c : Comment) (rule : c.rule ∈ commentRules) : WellLaid (commentNode c) := by
  refine WellLaid.intro ⟨?_, ?_, List.forall_mem_nil _⟩ (List.forall_mem_nil _)
  · intro r same
    cases same
    rcases c with ⟨r, start, stop⟩
    have cases : r = .lineComment ∨ r = .blockComment := by simpa [commentRules] using rule
    rcases cases with rfl | rfl <;> exact ⟨[], List.mem_cons_self, rfl⟩
  · intro text same
    cases same

section
variable (c : Comment) (rule : c.rule ∈ commentRules)
include rule

theorem weave_solid {β : Type} (view : Node → β) (keeps : ∀ n, view (weaveInto c n) = view n)
    (nodes : List Node) :
    ((weaveIn c nodes).filter fun n => !n.isComment).map view =
      (nodes.filter fun n => !n.isComment).map view := by
  have comment := (comment_node c rule).1
  induction nodes with
  | nil => simp [weaveIn, comment]
  | cons n rest ih =>
      rw [weaveIn]
      split
      · simp [comment]
      · split
        · have same := is_comment_stamp (weave_into_stamp c n)
          by_cases own : n.isComment = true
          · simp [same, own]
          · simp [same, own, keeps]
        · simp [List.filter_cons, apply_ite (List.map view), ih]

theorem weave_labels (nodes : List Node)
    (bare : ∀ n ∈ nodes, n.isComment = true → n.label = none) :
    ∀ n ∈ weaveIn c nodes, n.isComment = true → n.label = none := by
  have own : (commentNode c).isComment = true → (commentNode c).label = none :=
    fun _ => (comment_node c rule).2
  induction nodes with
  | nil => simpa [weaveIn] using own
  | cons n rest ih =>
      obtain ⟨first, others⟩ := List.forall_mem_cons.mp bare
      rw [weaveIn]
      split
      · exact List.forall_mem_cons.mpr ⟨own, bare⟩
      · split
        · refine List.forall_mem_cons.mpr ⟨?_, others⟩
          have same := weave_into_stamp c n
          have labels : (weaveInto c n).label = n.label := congrArg Prod.snd same
          rwa [is_comment_stamp same, labels]
        · exact List.forall_mem_cons.mpr ⟨first, ih others⟩

theorem weave_into_own (n : Node) (laid : Laid n) : Laid (weaveInto c n) := by
  obtain ⟨kind, label, start, stop, children⟩ := n
  obtain ⟨byRule, byToken, bare⟩ := laid
  have same := weave_solid c rule stamp (weave_into_stamp c) children
  rw [weaveInto]
  refine ⟨?_, ?_, weave_labels c rule children bare⟩
  · intro r ofRule
    obtain ⟨layout, member, accepts⟩ := byRule r ofRule
    exact ⟨layout, member, accepts_stamp layout _ _ same accepts⟩
  · intro text ofToken
    have none : children.filter (fun n => !n.isComment) = [] := byToken text ofToken
    rw [none, List.map_nil] at same
    exact List.map_eq_nil_iff.mp same

-- The recursion is that of putting a comment in: down a node and along its siblings.
mutual

theorem weave_into_laid (n : Node) (laid : WellLaid n) : WellLaid (weaveInto c n) := by
  match n with
  | .mk kind label start stop children =>
      have own := weave_into_own c rule _ (laid _ (.self _))
      rw [weaveInto] at own ⊢
      refine WellLaid.intro own ?_
      exact weave_in_laid children fun child member => laid.below (.deeper member (.self child))

theorem weave_in_laid (nodes : List Node) (laid : ∀ n ∈ nodes, WellLaid n) :
    ∀ n ∈ weaveIn c nodes, WellLaid n := by
  match nodes with
  | [] =>
      rw [weaveIn]
      exact List.forall_mem_singleton.mpr (comment_laid c rule)
  | n :: rest =>
      obtain ⟨first, others⟩ := List.forall_mem_cons.mp laid
      rw [weaveIn]
      split
      · exact List.forall_mem_cons.mpr ⟨comment_laid c rule, laid⟩
      · split
        · exact List.forall_mem_cons.mpr ⟨weave_into_laid n first, others⟩
        · exact List.forall_mem_cons.mpr ⟨first, weave_in_laid rest others⟩

end

end

theorem weave_all_laid (comments : List Comment) (rules : ∀ c ∈ comments, c.rule ∈ commentRules)
    (kind : Kind) (label : Option Field) (start stop : Nat) (children : List Node)
    (laid : WellLaid (.mk kind label start stop children)) :
    WellLaid (.mk kind label start stop
      (comments.foldl (fun nodes c => weaveIn c nodes) children)) := by
  induction comments generalizing children with
  | nil => exact laid
  | cons c rest ih =>
      obtain ⟨first, others⟩ := List.forall_mem_cons.mp rules
      have woven := weave_into_laid c first _ laid
      rw [weaveInto] at woven
      exact ih others _ woven

/-- Where a node stands and under which field does not matter to what is below it. -/
theorem WellLaid.moved {n : Node} (laid : WellLaid n) (label : Option Field) (start stop : Nat) :
    WellLaid (.mk n.kind label start stop n.children) := by
  obtain ⟨byRule, byToken, bare⟩ := laid n (.self n)
  refine WellLaid.intro ⟨byRule, byToken, bare⟩ fun child member => ?_
  exact laid.below (.deeper member (.self child))

theorem tree_well_laid (chars : List Char) (root : Node) (found : tree? chars = some root) :
    WellLaid root ∧ root.kind = .rule .program := by
  simp only [tree?, Option.bind_eq_bind, Option.bind_eq_some_iff, Prod.exists] at found
  obtain ⟨tokens, comments, cut, made, rest, read, built⟩ := found
  have rules := tokens_comments chars tokens comments cut
  obtain ⟨top, rfl, _, sort, laid⟩ :=
    read_goal_keeps java_passes _ .program _ rfl tokens made rest read
  split at built
  · rename_i same
    cases same
    cases built
    refine ⟨weave_all_laid comments rules _ _ _ _ _ (laid.moved _ _ _), ?_⟩
    cases kind : top.kind with
    | token text =>
        rw [kind] at sort
        cases sort
    | rule r =>
        rw [kind] at sort
        have only : r = .program := by simpa [Sorts.admits] using sort
        exact congrArg Kind.rule only
  · cases built

end JavaOutline.Grammar
