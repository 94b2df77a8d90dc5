import JavaOutline.Proofs.Lower.Spans

/-!
Class bodies replay their members in the order of the source. The nodes of the members lie one
behind the other in the tree, those behind the constants of an enumeration in the node around them,
and every member starts with its node and ends within it.
-/
namespace JavaOutline

open Walk

def Member.span : Member → Span
  | .constant c => c.span
  | .field f => f.span
  | .initializer b => b.span
  | .constructor m => m.span
  | .method m => m.span
  | .type t => t.span

namespace Lower

open JavaOutline.Grammar JavaOutline.Tree

variable {source : Source} {n m : Node}

theorem member_node_lies (firm : Firm [] n) : Lies n.start (memberNode? n).toList n.stop := by
  have itself : Lies n.start [n] n.stop := ⟨Nat.le_refl _, firm.filled, Nat.le_refl _⟩
  unfold memberNode?
  split
  case h_9 =>
    -- The block of an initializer stands in for the node around it.
    cases found : n.ofKind? .block with
    | none => exact Nat.le_of_lt firm.filled
    | some b =>
        have block : b.kind = .rule .block := by simpa [Node.is] using List.find?_some found
        have solid : b ∈ n.solid := List.mem_filter.mpr
          ⟨List.mem_of_find?_eq_some found, by simp [Node.isComment, Node.is, block]⟩
        exact firm.ordered.member solid
  case h_10 =>
    split
    · exact itself
    · exact Nat.le_of_lt firm.filled
  all_goals exact itself

theorem comment_no_member (comment : n.isComment = true) : memberNode? n = none := by
  rcases Node.comment_kind comment with kind | kind <;> simp [memberNode?, typeKind?, kind]

theorem member_nodes_lie (nodes : List Node) (low high : Nat)
    (firm : ∀ n ∈ nodes, n.Throughout (Firm []))
    (lies : Lies low (nodes.filter fun n => !n.isComment) high) :
    Lies low (memberNodes nodes) high := by
  match nodes with
  | [] =>
      rw [memberNodes]
      exact lies
  | .mk kind label start stop children :: rest =>
      obtain ⟨own, others⟩ := List.forall_mem_cons.mp firm
      rw [memberNodes]
      by_cases comment : (Node.mk kind label start stop children).isComment = true
      · have other : ¬ (kind == .rule .enumBodyDeclarations) = true := by
          rcases Node.comment_kind comment with same | same <;> cases same <;> decide
        rw [if_neg other, comment_no_member comment]
        exact member_nodes_lie rest low high others (by simpa [comment] using lies)
      · rw [List.filter_cons, if_pos (by simpa using comment)] at lies
        obtain ⟨first, _, behind⟩ := lies
        refine Lies.append (Lies.weaken first ?_) (member_nodes_lie rest _ high others behind)
        split
        · exact member_nodes_lie children _ _ (fun child inside => own.child inside)
            own.here.ordered
        · exact member_node_lies own.here

theorem member_nodes_below (nodes : List Node) (member : m ∈ memberNodes nodes) :
    ∃ n ∈ nodes, n.Has m := by
  match nodes with
  | [] =>
      rw [memberNodes] at member
      cases member
  | .mk kind label start stop children :: rest =>
      rw [memberNodes] at member
      rcases List.mem_append.mp member with own | later
      · refine ⟨_, List.mem_cons_self, ?_⟩
        split at own
        · obtain ⟨child, inside, has⟩ := member_nodes_below children own
          exact .deeper inside has
        · rw [Option.mem_toList] at own
          unfold memberNode? at own
          split at own
          case h_9 => exact .deeper (List.mem_of_find?_eq_some own) (.self m)
          case h_10 =>
            split at own <;> cases own
            exact .self _
          all_goals
            cases own
            exact .self _
      · obtain ⟨n, inside, has⟩ := member_nodes_below rest later
        exact ⟨n, List.mem_cons_of_mem _ inside, has⟩

theorem stems_within {member : Member} (laid : Laid n) (firm : Firm [] n)
    (stems : Stems source member n) :
    member.span.startByte = n.start ∧ member.span.endByte ≤ n.stop := by
  cases member with
  | field f =>
      obtain ⟨_, span⟩ := stems
      refine ⟨congrArg Span.startByte span, ?_⟩
      rw [show (Member.field f).span = _ from span]
      show ((n.all .declarator).getLast?.map Node.stop).getD n.stop ≤ n.stop
      cases last : (n.all .declarator).getLast? with
      | none => exact Nat.le_refl _
      | some d =>
          have inside := List.mem_of_getLast? last
          rw [all_picked laid] at inside
          exact (firm.ordered.member (List.mem_of_mem_filter inside)).2.2
  | _ =>
      obtain ⟨_, span⟩ := stems
      exact ⟨congrArg Span.startByte span, Nat.le_of_eq (congrArg Span.endByte span)⟩

theorem stems_ordered {members : List Member} {nodes : List Node} {low high : Nat}
    (listed : List.Forall₂ (Stems source) members nodes)
    (sound : ∀ n ∈ nodes, Laid n ∧ Firm [] n) (lies : Lies low nodes high) :
    (∀ member ∈ members, low ≤ member.span.startByte) ∧
      members.Pairwise fun first second => first.span.endByte ≤ second.span.startByte := by
  induction listed generalizing low with
  | nil => exact ⟨List.forall_mem_nil _, List.Pairwise.nil⟩
  | @cons member n members nodes stems _ ih =>
      obtain ⟨⟨laid, firm⟩, others⟩ := List.forall_mem_cons.mp sound
      obtain ⟨order, filled, behind⟩ := lies
      obtain ⟨starts, ends⟩ := stems_within laid firm stems
      obtain ⟨above, ordered⟩ := ih others behind
      refine ⟨List.forall_mem_cons.mpr ⟨by omega, fun other inside => ?_⟩,
        List.pairwise_cons.mpr ⟨fun other inside => ?_, ordered⟩⟩
      · have later := above other inside
        omega
      · exact Nat.le_trans ends (above other inside)

theorem listing_ordered {chars : List Char} {root : Node} (follows : tree? chars = some root)
    (has : root.Has n) {members : List Member}
    (listed : List.Forall₂ (Stems ⟨chars⟩) members (memberNodes n.children)) :
    members.Pairwise fun first second => first.span.endByte ≤ second.span.startByte := by
  obtain ⟨laid, _⟩ := tree_well_laid chars root follows
  obtain ⟨firm, high, top⟩ := tree_firm chars root follows
  -- Whatever stands below a node stands below a child of the root.
  have below (child : Node) (inside : child ∈ n.children) : child.Throughout (Firm []) := by
    cases has with
    | self => exact firm child inside
    | deeper member further => exact (firm _ member).below (further.trans (.deeper inside (.self _)))
  obtain ⟨low, high, lies⟩ : ∃ low high, Lies low n.solid high := by
    rcases node_firm follows has with rfl | own
    · exact ⟨0, high, top⟩
    · exact ⟨_, _, own.ordered⟩
  refine (stems_ordered listed (fun m member => ?_)
    (member_nodes_lie n.children low high below lies)).2
  obtain ⟨child, inside, further⟩ := member_nodes_below n.children member
  exact ⟨laid m (has.trans (.deeper inside further)), below child inside m further⟩

end Lower

/-- The body gives its members back one after the other and sort by sort, and these are the members
of a body in the tree, each where it stands in the source. -/
structure ClassBody.Faithful (chars : List Char) (root : Tree.Node) (b : ClassBody) : Prop where
  replays : b.Replays b.members
  listed : ∃ nodes, (nodes = [] ∨ ∃ n, root.Has n ∧ n.children = nodes) ∧
    List.Forall₂ (Lower.Stems ⟨chars⟩) b.members (Lower.memberNodes nodes)
  ordered : b.members.Pairwise fun first second => first.span.endByte ≤ second.span.startByte

/-- Nothing is lost in a class body, whatever is pushed, and what lowering pushes are the members of
the tree in the order of the source. -/
theorem class_bodies_replay :
    (∀ members : List Member, (members.foldl ClassBody.push ClassBody.empty).Replays members ∧
      (ClassBody.ofMembers members).Replays members) ∧
    ∀ path chars limit u, CompilationUnit.read path chars limit = .ok u →
      ∃ root, Grammar.tree? chars = some root ∧
        ∀ place b, (Visit.unit u).at? place = some (.classBody b) → b.Faithful chars root := by
  refine ⟨fun members => ?_, fun path chars limit u accepted => ?_⟩
  · have replays := (ClassBody.fold_replays members).2
    exact ⟨replays, replays⟩
  · obtain ⟨root, follows, sound⟩ := read_sound path chars limit u accepted
    refine ⟨root, follows, fun place b stands => ?_⟩
    have made := sound place _ stands
    obtain ⟨nodes, here, listed⟩ := made.listing
    refine ⟨?_, ⟨nodes, here, listed⟩, ?_⟩
    · have whole : b = ClassBody.ofMembers b.members := made.particulars.1
      have replays := (ClassBody.fold_replays b.members).2
      rwa [← ClassBody.ofMembers, ← whole] at replays
    · rcases here with rfl | ⟨n, has, rfl⟩
      · rw [Lower.memberNodes, List.forall₂_nil_right_iff] at listed
        rw [listed]
        exact List.Pairwise.nil
      · exact Lower.listing_ordered follows has listed

set_option maxRecDepth 100000 in
/-- A constant with a body of its own, and members of all other sorts behind the constants. -/
theorem enumeration_replayed :
    ∃ u b root, CompilationUnit.read "T.java"
        "enum E{A{int i;};int f,g;static{}E(){}class C{}void m(){}int h;}".toList 8 = .ok u ∧
      (Visit.unit u).at? [0, 0] = some (.classBody b) ∧
      b.order = [.constant 0, .field 0, .initializer 0, .constructor 0, .type 0, .method 0,
        .field 1] ∧
      b.Faithful "enum E{A{int i;};int f,g;static{}E(){}class C{}void m(){}int h;}".toList root := by
  obtain ⟨u, visit, accepted, stands, passes⟩ := read_place
    "enum E{A{int i;};int f,g;static{}E(){}class C{}void m(){}int h;}" 8 [0, 0] (fun visit =>
      match visit with
      | .classBody b => b.order == [.constant 0, .field 0, .initializer 0, .constructor 0, .type 0,
        .method 0, .field 1]
      | _ => false) (by decide +kernel)
  split at passes
  · rename_i b
    obtain ⟨root, _, bodies⟩ := class_bodies_replay.2 "T.java" _ 8 u accepted
    exact ⟨u, b, root, accepted, stands, beq_iff_eq.mp passes, bodies [0, 0] b stands⟩
  · cases passes

end JavaOutline
