import JavaOutline.Proofs.Grammar.Boundaries
import JavaOutline.Proofs.Grammar.Coverage
import JavaOutline.Text.Blank

/-!
What stands between the nodes of a tree. Comments become leaves among the others, all siblings lie
one behind the other, and since no character other than a blank is lost, there are only blanks
between a node and the next one.
-/
namespace JavaOutline.Tree

open JavaOutline.Text

def Commented (comments : List Comment) (p : Nat) : Prop :=
  ∃ c ∈ comments, c.start ≤ p ∧ p < c.stop

theorem scan_covers (fuel : Nat) (modes : List Mode) (offset : Nat) (chars : List Char)
    (tokens : List Token) (comments : List Comment)
    (scanned : scan fuel modes offset chars = some (tokens, comments)) (front : List Char) (c : Char)
    (back : List Char) (cut : chars = front ++ c :: back) (solid : isBlank c = false) :
    HasByte tokens (offset + byteSize front) ∨ Commented comments (offset + byteSize front) := by
  refine scan_induction (motive := fun offset chars tokens comments => ∀ front back,
    chars = front ++ c :: back →
      HasByte tokens (offset + byteSize front) ∨ Commented comments (offset + byteSize front))
    ?_ ?_ scanned front back cut
  · intro _ front back cut
    cases front <;> cases cut
  intro modes offset chars piece tokens comments found _ ih
  -- The piece takes in the character, or the character comes later.
  have split (front back : List Char) (cut : chars = front ++ c :: back) :
      (HasByte tokens (offset + byteSize front) ∨ Commented comments (offset + byteSize front)) ∨
        c ∈ chars.take piece.size ∧
          offset + byteSize front < offset + byteSize (chars.take piece.size) := by
    have parts := List.take_append_drop piece.size chars
    rcases List.append_eq_append_iff.mp (parts.trans cut) with
      ⟨inner, rfl, behind⟩ | ⟨inner, taken, behind⟩
    · have later := ih inner back behind
      rw [Nat.add_assoc, ← byte_size_append] at later
      exact .inl later
    · cases inner with
      | nil =>
          have later := ih [] back behind.symm
          rw [taken, List.append_nil] at later
          exact .inl later
      | cons d inner =>
          obtain ⟨rfl, _⟩ := List.cons.inj behind
          have wide := c.utf8Size_pos
          refine .inr ⟨by simp [taken], ?_⟩
          rw [taken, byte_size_append, byte_size_cons]
          omega
  refine ⟨fun role front back cut => ?_, fun r _ front back cut => ?_,
    fun shape _ front back cut => ?_⟩
  · refine (split front back cut).resolve_right fun ⟨among, _⟩ => ?_
    rw [space_blank ((piece_known found).blank role c among)] at solid
    cases solid
  · rcases split front back cut with later | ⟨_, room⟩
    · exact later.imp_right fun ⟨k, member, range⟩ => ⟨k, List.mem_cons_of_mem _ member, range⟩
    · exact .inr ⟨_, List.mem_cons_self, Nat.le_add_right _ _, room⟩
  · rcases split front back cut with later | ⟨_, room⟩
    · exact later.imp_left fun ⟨t, member, range⟩ => ⟨t, List.mem_cons_of_mem _ member, range⟩
    · exact .inl ⟨_, List.mem_cons_self, Nat.le_add_right _ _, room⟩

/-- All but the first character of a text, which may be a mark, is blank or written down. -/
theorem tokens_cover {chars : List Char} {tokens : List Token} {comments : List Comment}
    (found : tokens? chars = some (tokens, comments)) (front : List Char) (c : Char)
    (back : List Char) (cut : chars = front ++ c :: back) (later : front ≠ [])
    (solid : isBlank c = false) :
    HasByte tokens (byteSize front) ∨ Commented comments (byteSize front) := by
  unfold tokens? at found
  split at found
  · rename_i first rest
    split at found
    · obtain ⟨start, front, rfl⟩ := List.exists_cons_of_ne_nil later
      obtain ⟨rfl, same⟩ := List.cons.inj cut
      exact scan_covers _ _ _ _ _ _ found front c back same solid
    · have covered := scan_covers _ _ _ _ _ _ found front c back cut solid
      rwa [Nat.zero_add] at covered
  · cases front <;> cases cut

end JavaOutline.Tree

namespace JavaOutline.Tree

/-- The children of the node lie one behind the other within it. -/
def Node.Ranked (n : Node) : Prop :=
  Lies n.start n.children n.stop

section
variable {n m : Node} {p low high : Nat} {nodes : List Node}

theorem ranked_reach (ranked : n.Throughout Node.Ranked) (has : n.Has m) :
    n.start ≤ m.start ∧ m.stop ≤ n.stop := by
  induction has with
  | self => exact ⟨Nat.le_refl _, Nat.le_refl _⟩
  | @deeper n child m member _ ih =>
      obtain ⟨below, above⟩ := ih (ranked.child member)
      obtain ⟨first, _, last⟩ := ranked.here.member member
      exact ⟨Nat.le_trans first below, Nat.le_trans above last⟩

theorem owns_range (ranked : n.Throughout Node.Ranked) (owns : n.Owns p) :
    n.start ≤ p ∧ p < n.stop := by
  obtain ⟨leaf, has, _, start, stop⟩ := owns
  obtain ⟨below, above⟩ := ranked_reach ranked has
  omega

theorem Lies.apart (lies : Lies low nodes high) (member : n ∈ nodes) (other : m ∈ nodes) :
    n = m ∨ n.stop ≤ m.start ∨ m.stop ≤ n.start := by
  induction nodes generalizing low with
  | nil => cases member
  | cons first rest ih =>
      obtain ⟨_, _, behind⟩ := lies
      rcases List.mem_cons.mp member with rfl | later <;>
        rcases List.mem_cons.mp other with rfl | further
      · exact .inl rfl
      · exact .inr (.inl (behind.member further).1)
      · exact .inr (.inr (behind.member later).1)
      · exact ih behind later further

theorem leaf_apart {leaf : Node} (ranked : n.Throughout Node.Ranked) (has : n.Has m)
    (other : n.Has leaf) (bare : leaf.children = []) :
    m.Has leaf ∨ leaf.stop ≤ m.start ∨ m.stop ≤ leaf.start := by
  induction has with
  | self => exact .inl other
  | @deeper n child m member below ih =>
      cases other with
      | self => simp [bare] at member
      | @deeper _ sibling _ among inside =>
          have reach := ranked_reach (ranked.child member) below
          have also := ranked_reach (ranked.child among) inside
          rcases ranked.here.apart among member with rfl | before | behind
          · exact ih (ranked.child among) inside
          · exact .inr (.inl (by omega))
          · exact .inr (.inr (by omega))

/-- Only the node at the top may be empty. -/
theorem ranked_filled (ranked : n.Throughout Node.Ranked) (has : n.Has m) :
    m = n ∨ m.start < m.stop := by
  induction has with
  | self => exact .inl rfl
  | @deeper n child m member _ ih =>
      have own := (ranked.here.member member).2.1
      rcases ih (ranked.child member) with rfl | filled
      · exact .inr own
      · exact .inr filled

/-- No byte of a node that is in none of its children is in a leaf, wherever the leaf stands. -/
theorem gap_unowned (ranked : n.Throughout Node.Ranked) (has : n.Has m) (inner : m.children ≠ [])
    (inside : m.start ≤ p ∧ p < m.stop)
    (apart : ∀ child ∈ m.children, ¬ (child.start ≤ p ∧ p < child.stop)) : ¬ n.Owns p := by
  intro owns
  induction has with
  | self n =>
      obtain ⟨child, member, owned⟩ := owns.below inner
      exact apart child member (owns_range (ranked.child member) owned)
  | @deeper n child m member below ih =>
      obtain ⟨other, among, owned⟩ := owns.below (List.ne_nil_of_mem member)
      have own := owns_range (ranked.child among) owned
      have reach := ranked_reach (ranked.child member) below
      rcases ranked.here.apart among member with rfl | before | behind
      · exact ih (ranked.child among) inner inside apart owned
      · omega
      · omega

theorem Lies.narrow {bound : Nat} (lies : Lies low nodes high) (room : low ≤ bound)
    (each : ∀ n ∈ nodes, n.stop ≤ bound) : Lies low nodes bound := by
  induction nodes generalizing low with
  | nil => exact room
  | cons n rest ih =>
      obtain ⟨own, others⟩ := List.forall_mem_cons.mp each
      exact ⟨lies.1, lies.2.1, ih lies.2.2 own others⟩

theorem plain_ranked {comments : List Comment} (firm : n.Throughout (Firm comments))
    (plain : n.Plain) : n.Throughout Node.Ranked := by
  intro m has
  have whole : m.solid = m.children :=
    List.filter_eq_self.mpr fun child member => by
      simp [plain child (has.trans (.deeper member (.self child)))]
  have ordered := (firm m has).ordered
  rwa [whole] at ordered

end

end JavaOutline.Tree

namespace JavaOutline.Grammar

open JavaOutline.Text JavaOutline.Tree

section
variable {c : Comment} {later : List Comment} {p : Nat}

-- The end of a node is the end of a leaf, and no comment reaches into a leaf.
theorem firm_clears (n : Node) (firm : n.Throughout (Firm (c :: later))) :
    n.stop ≤ c.start ∨ c.stop < n.stop := by
  induction n using Node.induction with
  | step n below =>
      have own := firm.here
      cases same : n.children.getLast? with
      | none =>
          have leaf := List.getLast?_eq_none_iff.mp same
          rcases own.apart leaf c List.mem_cons_self with before | behind
          · exact .inr (Nat.lt_of_le_of_lt before own.filled)
          · exact .inl behind
      | some last =>
          have member := List.mem_of_getLast? same
          rw [← (own.back last same).1]
          exact below last member (firm.child member)

theorem around_filled {n : Node} (filled : c.start < c.stop) (firm : n.Throughout (Firm (c :: later)))
    (inside : n.start < c.start ∧ c.stop < n.stop) : n.children ≠ [] := by
  intro leaf
  rcases firm.here.apart leaf c List.mem_cons_self with before | behind <;> omega

-- The recursion is that of putting a comment in: down a node and along its siblings.
mutual

theorem weave_into_owns (filled : c.start < c.stop) (n : Node)
    (firm : n.Throughout (Firm (c :: later))) (inside : n.start < c.start ∧ c.stop < n.stop)
    (known : n.Owns p ∨ c.start ≤ p ∧ p < c.stop) : (weaveInto c n).Owns p := by
  have some := around_filled filled firm inside
  match n with
  | .mk kind label start stop children =>
      rw [weaveInto]
      refine Owned.above (n := .mk kind label start stop (weaveIn c children)) ?_
      exact weave_in_owns filled children (fun m member => firm.child member)
        (known.imp_left fun owns => owns.below some)

theorem weave_in_owns (filled : c.start < c.stop) (nodes : List Node)
    (firm : ∀ n ∈ nodes, n.Throughout (Firm (c :: later)))
    (known : Owned nodes p ∨ c.start ≤ p ∧ p < c.stop) : Owned (weaveIn c nodes) p := by
  match nodes with
  | [] =>
      rw [weaveIn]
      rcases known with ⟨n, member, _⟩ | ⟨low, high⟩
      · cases member
      · exact ⟨_, List.mem_singleton_self _, leaf_owns _ none low high⟩
  | n :: rest =>
      obtain ⟨first, others⟩ := List.forall_mem_cons.mp firm
      rw [owned_cons, or_assoc] at known
      rw [weaveIn]
      split
      · rw [owned_cons, owned_cons]
        rcases known with own | behind | ⟨low, high⟩
        · exact .inr (.inl own)
        · exact .inr (.inr behind)
        · exact .inl (leaf_owns _ none low high)
      · split
        · rename_i inside
          simp only [Bool.and_eq_true, decide_eq_true_eq] at inside
          rw [owned_cons]
          rcases known with own | behind | comment
          · exact .inl (weave_into_owns filled n first inside (.inl own))
          · exact .inr behind
          · exact .inl (weave_into_owns filled n first inside (.inr comment))
        · rw [owned_cons]
          exact known.imp_right (weave_in_owns filled rest others)

end

mutual

theorem weave_into_ranked (filled : c.start < c.stop) (n : Node)
    (firm : n.Throughout (Firm (c :: later))) (ranked : n.Throughout Node.Ranked)
    (inside : n.start < c.start ∧ c.stop < n.stop) :
    (weaveInto c n).Throughout Node.Ranked := by
  match n with
  | .mk kind label start stop children =>
      obtain ⟨lies, each⟩ := weave_in_ranked filled children (fun m member => firm.child member)
        (fun m member => ranked.child member) start stop ranked.here (Nat.le_of_lt inside.1)
        (Nat.le_of_lt inside.2)
      rw [weaveInto]
      exact .intro lies each

theorem weave_in_ranked (filled : c.start < c.stop) (nodes : List Node)
    (firm : ∀ n ∈ nodes, n.Throughout (Firm (c :: later)))
    (ranked : ∀ n ∈ nodes, n.Throughout Node.Ranked) (low high : Nat) (lies : Lies low nodes high)
    (starts : low ≤ c.start) (stops : c.stop ≤ high) :
    Lies low (weaveIn c nodes) high ∧ ∀ n ∈ weaveIn c nodes, n.Throughout Node.Ranked := by
  have comment : (commentNode c).Throughout Node.Ranked :=
    .intro (Nat.le_of_lt filled) (List.forall_mem_nil _)
  match nodes with
  | [] =>
      rw [weaveIn]
      exact ⟨⟨starts, filled, stops⟩, List.forall_mem_singleton.mpr comment⟩
  | n :: rest =>
      obtain ⟨first, others⟩ := List.forall_mem_cons.mp firm
      obtain ⟨own, later'⟩ := List.forall_mem_cons.mp ranked
      obtain ⟨order, room, behind⟩ := lies
      rw [weaveIn]
      split
      · rename_i before
        exact ⟨⟨starts, filled, before, room, behind⟩, List.forall_mem_cons.mpr ⟨comment, ranked⟩⟩
      · rename_i meets
        have begun := (firm_dodges n first).resolve_left meets
        split
        · rename_i inside
          simp only [Bool.and_eq_true, decide_eq_true_eq] at inside
          have woven := weave_into_ranked filled n first own inside
          have range := weave_into_range c n
          have starts' : (weaveInto c n).start = n.start := congrArg Prod.fst range
          have stops' : (weaveInto c n).stop = n.stop := congrArg Prod.snd range
          refine ⟨?_, List.forall_mem_cons.mpr ⟨woven, later'⟩⟩
          rw [Lies, starts', stops']
          exact ⟨order, room, behind⟩
        · rename_i outside
          simp only [Bool.and_eq_true, decide_eq_true_eq, not_and] at outside
          have ended := (firm_clears n first).resolve_right (outside begun)
          obtain ⟨further, each⟩ := weave_in_ranked filled rest others later' n.stop high behind
            ended stops
          exact ⟨⟨order, room, further⟩, List.forall_mem_cons.mpr ⟨own, each⟩⟩

end

end

theorem weave_all_ranked (comments : List Comment) (rules : ∀ c ∈ comments, c.rule ∈ commentRules)
    (filled : ∀ c ∈ comments, c.start < c.stop)
    (ordered : comments.Pairwise fun c later => c.stop ≤ later.start) (nodes : List Node)
    (firm : ∀ n ∈ nodes, n.Throughout (Firm comments))
    (ranked : ∀ n ∈ nodes, n.Throughout Node.Ranked) (high : Nat) (lies : Lies 0 nodes high) :
    ∃ wide, Lies 0 (comments.foldl (fun nodes c => weaveIn c nodes) nodes) wide ∧
      (∀ n ∈ comments.foldl (fun nodes c => weaveIn c nodes) nodes, n.Throughout Node.Ranked) ∧
      ∀ p, Owned nodes p ∨ Commented comments p →
        Owned (comments.foldl (fun nodes c => weaveIn c nodes) nodes) p := by
  -- Each comment lies before the later ones, so what it is put into stays firm for these.
  induction comments generalizing nodes high with
  | nil =>
      refine ⟨high, lies, ranked, fun p known => known.resolve_right ?_⟩
      rintro ⟨c, member, _⟩
      cases member
  | cons c later ih =>
      obtain ⟨rule, rules⟩ := List.forall_mem_cons.mp rules
      obtain ⟨long, filled⟩ := List.forall_mem_cons.mp filled
      obtain ⟨first, ordered⟩ := List.pairwise_cons.mp ordered
      have wider := lies.widen (Nat.le_max_left high c.stop)
      obtain ⟨woven, each⟩ := weave_in_ranked long nodes firm ranked 0 _ wider (Nat.zero_le _)
        (Nat.le_max_right high c.stop)
      obtain ⟨wide, lies, ranked, owned⟩ := ih rules filled ordered (weaveIn c nodes)
        (weave_in_firm long rule first nodes firm) each _ woven
      refine ⟨wide, lies, ranked, fun p known => owned p ?_⟩
      rcases known with inside | ⟨d, member, range⟩
      · exact .inl (weave_in_owns long nodes firm (.inl inside))
      · rcases List.mem_cons.mp member with rfl | further
        · exact .inl (weave_in_owns long nodes firm (.inr range))
        · exact .inr ⟨d, further, range⟩

theorem lined_roomy {low : Nat} {tokens : List Token} (lined : Lined low tokens) :
    Roomy tokens := by
  induction tokens generalizing low with
  | nil => exact List.forall_mem_nil _
  | cons t rest ih => exact List.forall_mem_cons.mpr ⟨lined.2.2.1, ih lined.2.2.2⟩

theorem root_ranked {kind : Kind} {nodes : List Node} {wide bound : Nat} (lies : Lies 0 nodes wide)
    (each : ∀ n ∈ nodes, n.stop ≤ bound) :
    (Node.mk kind none ((nodes.head?.map Node.start).getD bound) bound nodes).Ranked := by
  cases nodes with
  | nil => exact Nat.le_refl bound
  | cons n rest =>
      have stop := each n List.mem_cons_self
      have filled := lies.2.1
      have inner : Lies n.start (n :: rest) wide := ⟨Nat.le_refl _, lies.2⟩
      have room : n.start ≤ bound := by omega
      exact inner.narrow room each

theorem tree_fronts (chars : List Char) (root : Node) (found : tree? chars = some root) :
    root.Throughout fun n => ∀ child ∈ n.children.head?, child.start = n.start := by
  have firm := (tree_firm chars root found).1
  refine .intro ?_ fun child member m has first inside =>
    ((firm child member m has).front first inside).1
  simp only [tree?, Option.bind_eq_bind, Option.bind_eq_some_iff, Prod.exists] at found
  obtain ⟨_, _, _, _, _, _, built⟩ := found
  split at built
  · cases built
    intro child first
    exact (congrArg (fun found => (Option.map Node.start found).getD _) first).symm
  · cases built

/-- The tree of a text is ranked, and has the bytes of all but the blanks of the text. -/
theorem tree_keeps (chars : List Char) (root : Node) (found : tree? chars = some root) :
    root.Throughout Node.Ranked ∧ ∀ front c back, chars = front ++ c :: back → front ≠ [] →
      isBlank c = false → root.Owns (byteSize front) := by
  obtain ⟨bounded, last⟩ := tree_bounded root found
  simp only [tree?, Option.bind_eq_bind, Option.bind_eq_some_iff, Prod.exists] at found
  obtain ⟨tokens, comments, cut, made, rest, read, built⟩ := found
  have laid := tokens_cut chars tokens comments cut
  have filled : ∀ c ∈ comments, c.start < c.stop := fun c member => (laid.filled c member).2
  split at built
  · rename_i top same
    cases same
    cases built
    obtain ⟨nodes, high, only, own⟩ := program_made filled _ 0 tokens _ _
      ⟨laid.lined, laid.apart⟩ read
    obtain ⟨others, also, plain, bytes⟩ := program_kept _ tokens _ (lined_roomy laid.lined) read
    cases only
    obtain rfl : nodes = others := congrArg Node.children (List.cons.inj also).1
    -- A byte is one of a token, which has its leaf before the comments come in, or of a comment.
    obtain ⟨wide, lies, ranked, owned⟩ := weave_all_ranked comments
      (tokens_comments chars tokens comments cut) filled laid.ordered nodes own.firm
      (fun n member => plain_ranked (own.firm n member) (plain n member)) high own.lies
    refine ⟨.intro (root_ranked lies fun n member => ?_) ranked,
      fun front c back shape later solid => ?_⟩
    · exact (bounded n (.deeper member (.self n))).2.le
    · refine Owned.above (owned _ ?_)
      exact (tokens_cover cut front c back shape later solid).imp_left (bytes _)
  · cases built

structure Clear (chars : List Char) (low high : Nat) : Prop where
  order : low ≤ high
  blank : ∀ front c back, chars = front ++ c :: back → low ≤ byteSize front →
    byteSize front < high → isBlank c = true

/-- The nodes lie between two bytes, with nothing but blanks around them. -/
def Joined (chars : List Char) : Nat → List Node → Nat → Prop
  | low, [], high => Clear chars low high
  | low, n :: rest, high => Clear chars low n.start ∧ Joined chars n.stop rest high

section
variable {chars : List Char} {low between high : Nat} {nodes others : List Node}

theorem Clear.trans (first : Clear chars low between) (second : Clear chars between high) :
    Clear chars low high := by
  refine ⟨Nat.le_trans first.order second.order, fun front c back cut above below => ?_⟩
  by_cases early : byteSize front < between
  · exact first.blank front c back cut above early
  · exact second.blank front c back cut (Nat.not_lt.mp early) below

theorem Joined.behind {lower : Nat} (clear : Clear chars lower low)
    (joined : Joined chars low nodes high) :
    Joined chars lower nodes high := by
  cases nodes with
  | nil => exact clear.trans joined
  | cons n rest => exact ⟨clear.trans joined.1, joined.2⟩

theorem Joined.append (first : Joined chars low nodes between)
    (second : Joined chars between others high) : Joined chars low (nodes ++ others) high := by
  induction nodes generalizing low with
  | nil => exact second.behind first
  | cons n rest ih => exact ⟨first.1, ih first.2⟩

theorem Joined.flat (inner : Node → List Node) (joined : Joined chars low nodes high)
    (each : ∀ n ∈ nodes, Joined chars n.start (inner n) n.stop) :
    Joined chars low (nodes.flatMap inner) high := by
  induction nodes generalizing low with
  | nil => exact joined
  | cons n rest ih =>
      obtain ⟨own, later⟩ := List.forall_mem_cons.mp each
      rw [List.flatMap_cons]
      exact (own.behind joined.1).append (ih joined.2 later)

theorem Clear.shrink {from' upto : Nat} (clear : Clear chars low high) (above : low ≤ from')
    (order : from' ≤ upto) (below : upto ≤ high) : Clear chars from' upto :=
  ⟨order, fun front c back cut least most => clear.blank front c back cut (by omega) (by omega)⟩

theorem Joined.starts (joined : Joined chars low nodes high)
    (filled : ∀ n ∈ nodes, n.start < n.stop) : ∀ n ∈ nodes, low ≤ n.start := by
  induction nodes generalizing low with
  | nil => exact List.forall_mem_nil _
  | cons n rest ih =>
      obtain ⟨own, others⟩ := List.forall_mem_cons.mp filled
      have order := joined.1.order
      refine List.forall_mem_cons.mpr ⟨order, fun m member => ?_⟩
      have behind := ih joined.2 others m member
      omega

theorem Joined.drop (joined : Joined chars low nodes high) (above : low ≤ between)
    (below : between ≤ high) (filled : ∀ n ∈ nodes, n.start < n.stop)
    (apart : ∀ n ∈ nodes, n.stop ≤ between ∨ between ≤ n.start) :
    Joined chars between (nodes.filter fun n => between ≤ n.start) high := by
  induction nodes generalizing low with
  | nil => exact joined.shrink above below (Nat.le_refl _)
  | cons n rest ih =>
      obtain ⟨own, others⟩ := List.forall_mem_cons.mp filled
      obtain ⟨first, later⟩ := List.forall_mem_cons.mp apart
      rcases first with before | behind
      · rw [List.filter_cons_of_neg (by simpa using by omega)]
        exact ih joined.2 before others later
      · have all : rest.filter (fun m => between ≤ m.start) = rest := by
          refine List.filter_eq_self.mpr fun m member => ?_
          have further := joined.2.starts others m member
          simpa using by omega
        rw [List.filter_cons_of_pos (by simpa using behind), all]
        exact ⟨joined.1.shrink above behind (Nat.le_refl _), joined.2⟩

theorem Joined.take (joined : Joined chars low nodes high) (above : low ≤ between)
    (below : between ≤ high) (filled : ∀ n ∈ nodes, n.start < n.stop)
    (apart : ∀ n ∈ nodes, n.stop ≤ between ∨ between ≤ n.start) :
    Joined chars low (nodes.filter fun n => n.stop ≤ between) between := by
  induction nodes generalizing low with
  | nil => exact joined.shrink (Nat.le_refl _) above below
  | cons n rest ih =>
      obtain ⟨own, others⟩ := List.forall_mem_cons.mp filled
      obtain ⟨first, later⟩ := List.forall_mem_cons.mp apart
      rcases first with before | behind
      · rw [List.filter_cons_of_pos (by simpa using before)]
        exact ⟨joined.1, ih joined.2 before others later⟩
      · have none : rest.filter (fun m => m.stop ≤ between) = [] := by
          refine List.filter_eq_nil_iff.mpr fun m member => ?_
          have further := joined.2.starts others m member
          have long := others m member
          simpa using by omega
        rw [List.filter_cons_of_neg (by simpa using by omega), none]
        exact joined.1.shrink (Nat.le_refl _) above behind

theorem lies_joined (lies : Lies low nodes high)
    (blank : ∀ front c back, chars = front ++ c :: back → low ≤ byteSize front →
      byteSize front < high → (∀ n ∈ nodes, ¬ (n.start ≤ byteSize front ∧ byteSize front < n.stop)) →
      isBlank c = true) : Joined chars low nodes high := by
  induction nodes generalizing low with
  | nil => exact ⟨lies, fun front c back cut above below =>
      blank front c back cut above below (List.forall_mem_nil _)⟩
  | cons n rest ih =>
      obtain ⟨order, filled, behind⟩ := lies
      have reach := behind.order
      refine ⟨⟨order, fun front c back cut above below => ?_⟩, ih behind
        fun front c back cut above below apart => ?_⟩
      · refine blank front c back cut above (by omega) (List.forall_mem_cons.mpr ⟨by omega, ?_⟩)
        intro m member
        have further := (behind.member member).1
        omega
      · exact blank front c back cut (by omega) below (List.forall_mem_cons.mpr ⟨by omega, apart⟩)

end

/-- There are only blanks between the children of a node. -/
theorem children_joined (chars : List Char) (root n : Node) (found : tree? chars = some root)
    (has : root.Has n) (inner : n.children ≠ []) : Joined chars n.start n.children n.stop := by
  obtain ⟨ranked, owned⟩ := tree_keeps chars root found
  refine lies_joined (ranked n has) fun front c back cut low high apart => ?_
  by_contra solid
  -- The first character may be a mark that belongs to no token, but a node starts with a child.
  have inside : front ≠ [] := by
    rintro rfl
    obtain ⟨first, rest, shape⟩ := List.exists_cons_of_ne_nil inner
    have start := tree_fronts chars root found n has first (by simp [shape])
    have filled := (ranked n has).member (n := first) (by simp [shape])
    exact apart first (by simp [shape]) ⟨by simpa [start] using low, by simp at low ⊢; omega⟩
  exact gap_unowned ranked has inner ⟨low, high⟩ apart
    (owned front c back cut inside (Bool.not_eq_true _ ▸ solid))

end JavaOutline.Grammar
