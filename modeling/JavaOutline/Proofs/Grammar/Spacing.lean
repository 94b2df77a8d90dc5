import JavaOutline.Proofs.Grammar.Ranges
import JavaOutline.Proofs.Grammar.Uncommented
import JavaOutline.Proofs.Grammar.Woven

/-!
Comments in the tree of a text. A comment is put into the smallest node around it; it does not reach
over the start of any other node there, so it comes neither first nor last below that node, and the
other children lie as they lay before.
-/
namespace JavaOutline.Grammar

open JavaOutline.Tree

theorem weave_into_range (c : Comment) (n : Node) : (weaveInto c n).range = n.range := by
  cases n
  rw [weaveInto]
  rfl

section
variable {c : Comment} {later : List Comment}

-- The start of a node is the start of a leaf, and no comment reaches into a leaf.
theorem firm_dodges (n : Node) (firm : n.Throughout (Firm (c :: later))) :
    c.stop ≤ n.start ∨ n.start < c.start := by
  induction n using Node.induction with
  | step n below =>
      have own := firm.here
      cases same : n.children with
      | nil =>
          rcases own.apart same c List.mem_cons_self with before | behind
          · exact .inl before
          · exact .inr (Nat.lt_of_lt_of_le own.filled behind)
      | cons first rest =>
          have member : first ∈ n.children := by simp [same]
          rw [← (own.front first (by simp [same])).1]
          exact below first member (firm.child member)

theorem weave_back (nodes : List Node) (last : Node) (found : nodes.getLast? = some last)
    (before : c.stop < last.stop)
    (dodges : ∀ n ∈ nodes, c.stop ≤ n.start ∨ n.start < c.start) :
    ∃ other, (weaveIn c nodes).getLast? = some other ∧ other.range = last.range ∧
      other.isComment = last.isComment := by
  -- A comment in front of the end goes before the last node or into it, never behind it.
  induction nodes with
  | nil => cases found
  | cons n rest ih =>
      obtain ⟨own, others⟩ := List.forall_mem_cons.mp dodges
      have woven := is_comment_stamp (weave_into_stamp c n)
      rw [weaveIn]
      cases rest with
      | nil =>
          have only : n = last := by simpa using found
          subst only
          by_cases earlier : c.stop ≤ n.start
          · exact ⟨n, by simp [earlier], rfl, rfl⟩
          · have inside : n.start < c.start := own.resolve_left earlier
            refine ⟨weaveInto c n, ?_, weave_into_range c n, woven⟩
            simp [earlier, inside, before]
      | cons m further =>
          rw [List.getLast?_cons_cons] at found
          by_cases earlier : c.stop ≤ n.start
          · exact ⟨last, by simp [earlier, List.getLast?_cons_cons, found], rfl, rfl⟩
          · rw [if_neg earlier]
            split
            · exact ⟨last, by rw [List.getLast?_cons_cons, found], rfl, rfl⟩
            · obtain ⟨other, same, range, comment⟩ := ih found others
              refine ⟨other, ?_, range, comment⟩
              rw [List.getLast?_cons, same]
              rfl

variable (filled : c.start < c.stop)
include filled

theorem weave_front (first : Node) (rest : List Node) (order : first.start < c.start) :
    ∃ other behind, weaveIn c (first :: rest) = other :: behind ∧ other.range = first.range ∧
      other.isComment = first.isComment := by
  rw [weaveIn, if_neg (by omega)]
  split
  · exact ⟨_, _, rfl, weave_into_range c first, is_comment_stamp (weave_into_stamp c first)⟩
  · exact ⟨_, _, rfl, rfl, rfl⟩

theorem comment_firm (ordered : ∀ d ∈ later, c.stop ≤ d.start) :
    (commentNode c).Throughout (Firm later) :=
  firm_leaf _ none filled fun d member => .inr (ordered d member)

theorem weave_into_firm_own (rule : c.rule ∈ commentRules) (n : Node)
    (firm : n.Throughout (Firm (c :: later))) (inside : n.start < c.start ∧ c.stop < n.stop) :
    Firm later (weaveInto c n) := by
  have own := firm.here
  have dodges : ∀ m ∈ n.children, c.stop ≤ m.start ∨ m.start < c.start :=
    fun m member => firm_dodges m (firm.child member)
  have some : n.children ≠ [] := by
    intro leaf
    rcases own.apart leaf c List.mem_cons_self with before | behind <;> omega
  obtain ⟨kind, label, start, stop, children⟩ := n
  rw [weaveInto]
  refine ⟨own.filled, ?_, ?_, ?_, ?_⟩
  · exact own.ordered.ranges (weave_solid c rule Node.range (weave_into_range c) children)
  · cases children with
    | nil => exact absurd rfl some
    | cons first rest =>
        have front := own.front first rfl
        obtain ⟨other, behind, same, range, comment⟩ := weave_front filled first rest
          (front.1.symm ▸ inside.1)
        intro child found
        simp only [Node.children, same, List.head?_cons, Option.mem_def, Option.some.injEq] at found
        subst found
        exact ⟨(congrArg Prod.fst range).trans front.1, comment.trans front.2⟩
  · obtain ⟨last, found⟩ := Option.isSome_iff_exists.mp (List.getLast?_isSome.mpr some)
    have back := own.back last found
    obtain ⟨other, same, range, comment⟩ := weave_back children last found
      (back.1.symm ▸ inside.2) dodges
    intro child reached
    have only : other = child := Option.some.inj (same.symm.trans reached)
    subst only
    exact ⟨(congrArg Prod.snd range).trans back.1, comment.trans back.2⟩
  · intro none
    have same : weaveIn c children = [] := none
    cases children with
    | nil => exact absurd rfl some
    | cons first rest =>
        rw [weaveIn] at same
        split at same
        · cases same
        · split at same <;> cases same

-- The recursion is that of putting a comment in: down a node and along its siblings.
mutual

theorem weave_into_firm (rule : c.rule ∈ commentRules) (ordered : ∀ d ∈ later, c.stop ≤ d.start)
    (n : Node) (firm : n.Throughout (Firm (c :: later)))
    (inside : n.start < c.start ∧ c.stop < n.stop) :
    (weaveInto c n).Throughout (Firm later) := by
  match n with
  | .mk kind label start stop children =>
      have own := weave_into_firm_own filled rule _ firm inside
      rw [weaveInto] at own ⊢
      exact .intro own (weave_in_firm rule ordered children fun m member => firm.child member)

theorem weave_in_firm (rule : c.rule ∈ commentRules) (ordered : ∀ d ∈ later, c.stop ≤ d.start)
    (nodes : List Node) (firm : ∀ n ∈ nodes, n.Throughout (Firm (c :: later))) :
    ∀ n ∈ weaveIn c nodes, n.Throughout (Firm later) := by
  have settled (n : Node) (whole : n.Throughout (Firm (c :: later))) :
      n.Throughout (Firm later) := fun m has => (whole m has).settle
  match nodes with
  | [] =>
      rw [weaveIn]
      exact List.forall_mem_singleton.mpr (comment_firm filled ordered)
  | n :: rest =>
      obtain ⟨first, others⟩ := List.forall_mem_cons.mp firm
      rw [weaveIn]
      split
      · refine List.forall_mem_cons.mpr ⟨comment_firm filled ordered, fun m member => ?_⟩
        exact settled m (firm m member)
      · split
        · rename_i inside
          simp only [Bool.and_eq_true, decide_eq_true_eq] at inside
          refine List.forall_mem_cons.mpr ⟨weave_into_firm rule ordered n first inside, ?_⟩
          exact fun m member => settled m (others m member)
        · exact List.forall_mem_cons.mpr ⟨settled n first, weave_in_firm rule ordered rest others⟩

end

end

/-- Comments are put in one after the other, each behind those before it. -/
theorem weave_all_firm (comments : List Comment) (rules : ∀ c ∈ comments, c.rule ∈ commentRules)
    (filled : ∀ c ∈ comments, c.start < c.stop)
    (ordered : comments.Pairwise fun c later => c.stop ≤ later.start) (nodes : List Node)
    (firm : ∀ n ∈ nodes, n.Throughout (Firm comments)) :
    (∀ n ∈ comments.foldl (fun nodes c => weaveIn c nodes) nodes, n.Throughout (Firm [])) ∧
      ((comments.foldl (fun nodes c => weaveIn c nodes) nodes).filter fun n => !n.isComment).map
        Node.range = (nodes.filter fun n => !n.isComment).map Node.range := by
  induction comments generalizing nodes with
  | nil => exact ⟨firm, rfl⟩
  | cons c later ih =>
      obtain ⟨rule, rules⟩ := List.forall_mem_cons.mp rules
      obtain ⟨long, filled⟩ := List.forall_mem_cons.mp filled
      obtain ⟨first, ordered⟩ := List.pairwise_cons.mp ordered
      obtain ⟨all, ranges⟩ := ih rules filled ordered (weaveIn c nodes)
        (weave_in_firm long rule first nodes firm)
      exact ⟨all, ranges.trans (weave_solid c rule Node.range (weave_into_range c) nodes)⟩

theorem tree_firm (chars : List Char) (root : Node) (found : tree? chars = some root) :
    (∀ child ∈ root.children, child.Throughout (Firm [])) ∧ ∃ high, Lies 0 root.solid high := by
  simp only [tree?, Option.bind_eq_bind, Option.bind_eq_some_iff, Prod.exists] at found
  obtain ⟨tokens, comments, cut, made, rest, read, built⟩ := found
  have laid := tokens_cut chars tokens comments cut
  have filled : ∀ c ∈ comments, c.start < c.stop := fun c member => (laid.filled c member).2
  obtain ⟨nodes, high, rfl, own⟩ := program_made filled _ 0 tokens made rest
    ⟨laid.lined, laid.apart⟩ read
  split at built
  · rename_i same
    cases same
    cases built
    obtain ⟨firm, ranges⟩ := weave_all_firm comments (tokens_comments chars tokens comments cut)
      filled laid.ordered nodes own.firm
    refine ⟨firm, high, own.lies.ranges (ranges.trans ?_)⟩
    rw [List.filter_eq_self.mpr fun n member => by simp [own.solid n member]]
  · cases built

theorem tree_spaced (chars : List Char) (root : Node) (found : tree? chars = some root) :
    ∀ child ∈ root.children, child.Spaced := by
  intro child member m has
  have firm := (tree_firm chars root found).1 child member m has
  have laid := (tree_well_laid chars root found).1 m (.deeper member has)
  exact ⟨laid.comments, fun other first => (firm.front other first).2,
    fun other last => (firm.back other last).2⟩

end JavaOutline.Grammar
