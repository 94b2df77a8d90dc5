import JavaOutline.Proofs.Grammar.Gaps
import JavaOutline.Proofs.Grammar.Picks
import JavaOutline.Proofs.Lower.Origins
import JavaOutline.Proofs.Text.Blank

/-!
The one-line text of a node, told from its leaves. It is made of the texts of the leaves and of
which of them are separated; how much blank stands between two of them, and of which sort, does not
show.
-/
namespace JavaOutline.Text

def between (chars : List Char) (low high : Nat) : List Char :=
  (slice? chars low high).getD []

section
variable {chars : List Char} {low middle high : Nat}

theorem between_cut (order : low ≤ high) (starts : Boundary chars low) (ends : Boundary chars high) :
    ∃ front rest, chars = front ++ (between chars low high ++ rest) ∧ low = byteSize front ∧
      high = byteSize front + byteSize (between chars low high) := by
  obtain ⟨front, inside, rest, rfl, rfl, rfl⟩ := boundaries_cut order starts ends
  have same : between (front ++ (inside ++ rest)) (byteSize front)
      (byteSize front + byteSize inside) = inside := by
    rw [between, slice_inside, Option.getD_some]
  exact ⟨front, rest, by rw [same], rfl, by rw [same]⟩

theorem between_size (order : low ≤ high) (starts : Boundary chars low)
    (ends : Boundary chars high) : low + byteSize (between chars low high) = high := by
  obtain ⟨_, _, _, rfl, stop⟩ := between_cut order starts ends
  exact stop.symm

theorem front_unique {front rest first behind : List Char} (whole : front ++ rest = first ++ behind)
    (size : byteSize front = byteSize first) : front = first := by
  rcases List.append_eq_append_iff.mp whole with ⟨more, rfl, _⟩ | ⟨more, rfl, _⟩
  · rw [byte_size_append] at size
    rw [byte_size_zero more (by omega), List.append_nil]
  · rw [byte_size_append] at size
    rw [byte_size_zero more (by omega), List.append_nil]

theorem between_append (first : low ≤ middle) (second : middle ≤ high)
    (starts : Boundary chars low) (parts : Boundary chars middle) (ends : Boundary chars high) :
    between chars low high = between chars low middle ++ between chars middle high := by
  obtain ⟨front, rest, whole, start, stop⟩ :=
    between_cut (Nat.le_trans first second) starts ends
  obtain ⟨before, behind, left, start', cut⟩ := between_cut first starts parts
  obtain ⟨longer, last, right, cut', stop'⟩ := between_cut second parts ends
  obtain rfl : before = front := front_unique (left.symm.trans whole) (by omega)
  have inner : (before ++ between chars low middle) ++ behind =
      longer ++ (between chars middle high ++ last) := by
    rw [List.append_assoc, ← left, ← right]
  have joined := front_unique inner (by rw [byte_size_append]; omega)
  have same : before ++ (between chars low high ++ rest) =
      before ++ (between chars low middle ++ between chars middle high ++ last) := by
    refine whole.symm.trans (right.trans ?_)
    rw [← joined, List.append_assoc, List.append_assoc]
  exact front_unique (List.append_cancel_left same) (by rw [byte_size_append]; omega)

theorem between_member {c : Char} (order : low ≤ high) (starts : Boundary chars low)
    (ends : Boundary chars high) (member : c ∈ between chars low high) :
    ∃ front back, chars = front ++ c :: back ∧ low ≤ byteSize front ∧ byteSize front < high := by
  obtain ⟨front, rest, whole, start, stop⟩ := between_cut order starts ends
  obtain ⟨before, behind, shape⟩ := List.append_of_mem member
  have wide := c.utf8Size_pos
  refine ⟨front ++ before, behind ++ rest, ?_, ?_, ?_⟩
  · rw [whole, shape]
    simp
  · rw [byte_size_append]
    omega
  · rw [stop, shape, byte_size_append, byte_size_append, byte_size_cons]
    omega

end

end JavaOutline.Text

namespace JavaOutline.Tree.Node

mutual

def leaves : Node → List Node
  | .mk kind label start stop [] => [.mk kind label start stop []]
  | .mk _ _ _ _ (child :: rest) => leavesAll (child :: rest)

def leavesAll : List Node → List Node
  | [] => []
  | n :: rest => leaves n ++ leavesAll rest

end

theorem leaves_all (nodes : List Node) : leavesAll nodes = nodes.flatMap leaves := by
  induction nodes with
  | nil => rw [leavesAll, List.flatMap_nil]
  | cons n rest ih => rw [leavesAll, List.flatMap_cons, ih]

theorem leaves_inner {n : Node} (inner : n.children ≠ []) :
    n.leaves = n.children.flatMap leaves := by
  match n with
  | .mk _ _ _ _ [] => exact absurd rfl inner
  | .mk _ _ _ _ (child :: rest) => rw [leaves, leaves_all]; rfl

theorem leaves_bare {n : Node} (bare : n.children = []) : n.leaves = [n] := by
  match n with
  | .mk _ _ _ _ [] => rw [leaves]
  | .mk _ _ _ _ (_ :: _) => cases bare

end JavaOutline.Tree.Node

namespace JavaOutline.Lower

open JavaOutline.Grammar JavaOutline.Text JavaOutline.Tree

/-- The texts of nodes, each with whether it is separated from the next one. -/
def Source.layout (source : Source) : List Node → List (String × Bool)
  | [] => []
  | [n] => [(source.text n, false)]
  | n :: next :: rest => (source.text n, n.stop < next.start) :: source.layout (next :: rest)

def spread (layout : List (String × Bool)) : String :=
  String.join (layout.map fun part => if part.2 then part.1 ++ " " else part.1)

def told (layout : List (String × Bool)) : String :=
  oneLine (spread layout)

/-- The one-line text of a node, from its tokens and comments and from which are separated. -/
def Source.nodeLine (source : Source) (n : Node) : String :=
  told (source.layout n.leaves)

section
variable {chars : List Char} {low high : Nat}

theorem clear_blank (clear : Clear chars low high) (starts : Boundary chars low)
    (ends : Boundary chars high) : ∀ c ∈ between chars low high, isBlank c = true := by
  intro c member
  obtain ⟨front, back, cut, above, below⟩ := between_member clear.order starts ends member
  exact clear.blank front c back cut above below

theorem joined_order {nodes : List Node} (joined : Joined chars low nodes high)
    (ordered : ∀ n ∈ nodes, n.start ≤ n.stop) : low ≤ high := by
  induction nodes generalizing low with
  | nil => exact joined.order
  | cons n rest ih =>
      obtain ⟨own, others⟩ := List.forall_mem_cons.mp ordered
      have behind := ih joined.2 others
      have before := joined.1.order
      omega

theorem text_between (n : Node) :
    ((Source.mk chars).text n).toList = between chars n.start n.stop := by
  rw [Source.text, String.toList_ofList]
  rfl

theorem spread_cons (part : String × Bool) (rest : List (String × Bool)) :
    (spread (part :: rest)).toList =
      part.1.toList ++ (if part.2 then [' '] else []) ++ (spread rest).toList := by
  cases part with
  | mk text apart => cases apart <;> simp [spread]

theorem words_of_layout (front : List Char) (n : Node) (rest : List Node)
    (joined : Joined chars n.stop rest high) (bounded : ∀ m ∈ n :: rest, m.Bounded chars)
    (ordered : ∀ m ∈ n :: rest, m.start ≤ m.stop) (ends : Boundary chars high) :
    words (front ++ between chars n.start high) =
      words (front ++ (spread (Source.layout ⟨chars⟩ (n :: rest))).toList) := by
  induction rest generalizing front n with
  | nil =>
      have own := bounded n List.mem_cons_self
      have order := ordered n List.mem_cons_self
      rw [Source.layout, spread_cons, between_append order joined.order own.1 own.2 ends,
        ← List.append_assoc, words_trail (clear_blank joined own.2 ends), text_between]
      simp [spread]
  | cons m rest ih =>
      obtain ⟨own, others⟩ := List.forall_mem_cons.mp bounded
      obtain ⟨order, later⟩ := List.forall_mem_cons.mp ordered
      have next := others m List.mem_cons_self
      have further : m.start ≤ high := by
        have inner := joined_order joined.2 fun k member => later k (List.mem_cons_of_mem _ member)
        have filled := later m List.mem_cons_self
        omega
      have gap := clear_blank joined.1 own.2 next.1
      have size := between_size joined.1.order own.2 next.1
      have behind := joined.1.order
      rw [Source.layout, spread_cons, text_between,
        between_append order (Nat.le_trans behind further) own.1 own.2 ends,
        between_append behind further own.2 next.1 ends]
      by_cases apart : n.stop < m.start
      -- Blanks in the text and the space in the layout both end a word, so the rest starts anew.
      · have filled : between chars n.stop m.start ≠ [] := by
          intro none
          rw [none, byte_size_nil] at size
          omega
        have space : ∀ c ∈ [' '], isBlank c = true := List.forall_mem_singleton.mpr rfl
        have inner := ih [] m joined.2 others later
        rw [List.nil_append, List.nil_append] at inner
        simp only [apart, decide_true, if_true]
        rw [← List.append_assoc, ← List.append_assoc, ← List.append_assoc, ← List.append_assoc,
          words_gap filled gap, words_gap (List.cons_ne_nil _ _) space, inner]
      -- Without blanks a word may go on, so the leaf is kept in front of the rest.
      · have none : between chars n.stop m.start = [] := byte_size_zero _ (by omega)
        rw [none]
        simp only [apart, decide_false, List.nil_append]
        rw [← List.append_assoc, ih (front ++ between chars n.start n.stop) m joined.2 others later]
        simp

theorem one_line_told {nodes : List Node} (joined : Joined chars low nodes high)
    (bounded : ∀ n ∈ nodes, n.Bounded chars) (ordered : ∀ n ∈ nodes, n.start ≤ n.stop)
    (starts : Boundary chars low) (ends : Boundary chars high) :
    oneLine (String.ofList (between chars low high)) = told (Source.layout ⟨chars⟩ nodes) := by
  rw [told, oneLine, oneLine, String.toList_ofList]
  cases nodes with
  | nil => rw [words_none (clear_blank joined starts ends)]; rfl
  | cons n rest =>
      have own := bounded n List.mem_cons_self
      have further : n.start ≤ high := by
        have inner := joined_order joined.2 fun m member => ordered m (List.mem_cons_of_mem _ member)
        have order := ordered n List.mem_cons_self
        omega
      have same := words_of_layout [] n rest joined.2 bounded ordered ends
      rw [List.nil_append, List.nil_append] at same
      rw [between_append joined.1.order further starts own.1 ends,
        words_lead (clear_blank joined.1 starts own.1), same]

end

theorem leaves_below (n : Node) : ∀ leaf ∈ n.leaves, n.Has leaf ∧ leaf.children = [] := by
  induction n using Node.induction with
  | step n below =>
      by_cases bare : n.children = []
      · rw [Node.leaves_bare bare]
        exact List.forall_mem_singleton.mpr ⟨.self n, bare⟩
      · rw [Node.leaves_inner bare]
        intro leaf member
        obtain ⟨child, inside, among⟩ := List.mem_flatMap.mp member
        obtain ⟨has, last⟩ := below child inside leaf among
        exact ⟨.deeper inside has, last⟩

section
variable {chars : List Char} {root n : Node} (found : tree? chars = some root) (has : root.Has n)
include found has

/-- The leaves of a node reach over it, with nothing but blanks between. -/
theorem leaves_joined : Joined chars n.start n.leaves n.stop := by
  induction n using Node.induction with
  | step n below =>
      by_cases bare : n.children = []
      · have none (p : Nat) : Clear chars p p := ⟨Nat.le_refl p, fun _ _ _ _ above under =>
          absurd under (by omega)⟩
        rw [Node.leaves_bare bare]
        exact ⟨none _, none _⟩
      · rw [Node.leaves_inner bare]
        exact (children_joined chars root n found has bare).flat Node.leaves fun child member =>
          below child member (has.trans (.deeper member (.self child)))

theorem leaves_fit : ∀ leaf ∈ n.leaves, leaf.Bounded chars ∧ leaf.start ≤ leaf.stop := by
  intro leaf member
  have inside := has.trans (leaves_below n leaf member).1
  have ranked := (tree_keeps chars root found).1 leaf inside
  exact ⟨(tree_bounded root found).1 leaf inside, ranked.order⟩

/-- What is shown of a node depends on its tokens and comments and on which are separated. -/
theorem compact_told : (Source.mk chars).compact n = Source.nodeLine ⟨chars⟩ n := by
  have bounded := (tree_bounded root found).1 n has
  have fit := leaves_fit found has
  exact one_line_told (leaves_joined found has) (fun leaf member => (fit leaf member).1)
    (fun leaf member => (fit leaf member).2) bounded.1 bounded.2

end

def leavesWithin (root : Node) (low high : Nat) : List Node :=
  root.leaves.filter fun leaf => low ≤ leaf.start && leaf.stop ≤ high

/-- The one-line text of a span, from the tokens and comments of a tree in it. -/
def Source.spanLine (source : Source) (root : Node) (span : Span) : String :=
  told (source.layout (leavesWithin root span.startByte span.endByte))

section
variable {chars : List Char} {root n m : Node} (found : tree? chars = some root)
include found

theorem range_joined (inner : root.children ≠ []) (has : root.Has n) (also : root.Has m)
    (order : n.start ≤ m.stop) : Joined chars n.start (leavesWithin root n.start m.stop) m.stop := by
  have ranked := (tree_keeps chars root found).1
  have filled : ∀ leaf ∈ root.leaves, leaf.start < leaf.stop := by
    intro leaf member
    obtain ⟨below, bare⟩ := leaves_below root leaf member
    rcases ranked_filled ranked below with rfl | filled
    · exact absurd bare inner
    · exact filled
  have apart (k : Node) (has : root.Has k) : ∀ leaf ∈ root.leaves,
      (leaf.stop ≤ k.start ∨ k.start ≤ leaf.start) ∧ (leaf.stop ≤ k.stop ∨ k.stop ≤ leaf.start) := by
    intro leaf member
    obtain ⟨below, bare⟩ := leaves_below root leaf member
    have order := (ranked k has).order
    rcases leaf_apart ranked has below bare with inside | before | behind
    · have reach := ranked_reach (ranked.below has) inside
      exact ⟨.inr reach.1, .inl reach.2⟩
    · exact ⟨.inl before, .inl (Nat.le_trans before order)⟩
    · exact ⟨.inr (Nat.le_trans order behind), .inr behind⟩
  have whole := leaves_joined found (.self root)
  have first := ranked_reach ranked has
  have last := ranked_reach ranked also
  have front := whole.take (Nat.le_trans first.1 order) last.2 filled fun leaf member =>
    (apart m also leaf member).2
  have both := front.drop first.1 order
    (fun leaf member => filled leaf (List.mem_of_mem_filter member))
    (fun leaf member => (apart n has leaf (List.mem_of_mem_filter member)).1)
  rwa [List.filter_filter] at both

/-- What is shown of a range depends on the tokens and comments in it and on which are separated. -/
theorem range_told (has : root.Has n) (also : root.Has m) (order : n.start ≤ m.stop) :
    oneLine (String.ofList (between chars n.start m.stop)) =
      told (Source.layout ⟨chars⟩ (leavesWithin root n.start m.stop)) := by
  have bounded := (tree_bounded root found).1
  have fit : ∀ leaf ∈ leavesWithin root n.start m.stop,
      leaf.Bounded chars ∧ leaf.start ≤ leaf.stop := fun leaf member =>
    leaves_fit found (.self root) leaf (List.mem_of_mem_filter member)
  have joined : Joined chars n.start (leavesWithin root n.start m.stop) m.stop := by
    by_cases inner : root.children = []
    · -- A tree of a single node has only that one to start and to end with.
      have only (k : Node) (has : root.Has k) : k = root := by
        cases has with
        | self => rfl
        | deeper member => simp [inner] at member
      rw [only n has, only m also]
      have all : leavesWithin root root.start root.stop = root.leaves := by
        simp [leavesWithin, Node.leaves_bare inner]
      rw [all]
      exact leaves_joined found (.self root)
    · exact range_joined found inner has also order
  exact one_line_told joined (fun leaf member => (fit leaf member).1)
    (fun leaf member => (fit leaf member).2) (bounded n has).1 (bounded m also).2

theorem taken_told {span : Span} (taken : Taken ⟨chars⟩ root.Has span) :
    oneLine (span.snippet chars) = Source.spanLine ⟨chars⟩ root span := by
  have ranked := (tree_keeps chars root found).1
  obtain ⟨n, has, rfl | ⟨_, last, member, rfl⟩⟩ := taken
  · exact range_told found has has (ranked n has).order
  · have child := List.mem_of_mem_filter member
    have inside := (ranked n has).member child
    exact range_told found has (has.trans (.deeper child (.self last))) (by omega)

end

theorem names_simple : ∀ r ∈ .variableDeclarator :: bearerRules,
    hasSorts (layouts r) (.under .name) ⟨simpleNames, some []⟩ = true := by
  decide

section
variable {chars : List Char} {root n m : Node} (found : tree? chars = some root)
include found

theorem bearer_name (bearer : Bearer root.Has n) (called : n.get? .name = some m) :
    root.Has m ∧ ∃ r ∈ simpleNames, m.kind = .rule r := by
  have laid := (tree_well_laid chars root found).1
  obtain ⟨has, r, known, kind⟩ :
      root.Has n ∧ ∃ r ∈ .variableDeclarator :: bearerRules, n.kind = .rule r := by
    cases bearer with
    | rule here r known kind => exact ⟨here, r, List.mem_cons_of_mem _ known, kind⟩
    | declarator parent here sort member =>
        have own := laid parent here
        rw [all_picked own] at member
        have declarator : n.kind = .rule .variableDeclarator := by
          rcases sort with kind | kind | kind <;>
            exact only_rule _ _ (picked_sorted (own.rule _ kind) (.under .declarator) _ (by decide)
              n member)
        exact ⟨here.trans (.deeper (mem_picked member).1 (.self n)), _, List.mem_cons_self,
          declarator⟩
  have own := laid n has
  have member : m ∈ picked n (.under .name) := List.mem_of_head? (get_picked own .name ▸ called)
  refine ⟨has.trans (.deeper (mem_picked member).1 (.self m)), ?_⟩
  exact of_rules (picked_sorted (own.rule r kind) _ _ (names_simple r known) m member)

/-- A name is a word of the source. -/
theorem named_after_told {text : String} (named : NamedAfter ⟨chars⟩ root.Has text) :
    Word text.toList ∧ ∃ n, root.Has n ∧ text = Source.nodeLine ⟨chars⟩ n := by
  obtain ⟨n, bearer, m, called, rfl⟩ := named
  obtain ⟨has, r, simple, kind⟩ := bearer_name found bearer called
  obtain ⟨front, name, rest, whole, start, stop, unbroken⟩ :=
    ((tree_fits root found).1 m has).named r simple kind
  have shown : ((Source.mk chars).text m).toList = name := by
    rw [text_between, between, start, stop, whole, slice_inside, Option.getD_some]
  have filled : m.start < m.stop := by
    refine (ranked_filled (tree_keeps chars root found).1 has).resolve_left ?_
    rintro rfl
    obtain rfl : r = .program := Kind.rule.inj (kind.symm.trans (tree_well_laid chars m found).2)
    exact absurd simple (by decide)
  have word : Word ((Source.mk chars).text m).toList := by
    rw [shown]
    refine ⟨?_, unbroken⟩
    rintro rfl
    rw [byte_size_nil] at stop
    omega
  refine ⟨word, m, has, ?_⟩
  rw [← compact_told found has, Source.compact, one_line_word word]

end

end JavaOutline.Lower
