import JavaOutline.Proofs.Lower.Runs
import JavaOutline.Proofs.Lower.SourceOrder

/-!
The statements of bodies. A walk over a body lists the statements that the tree has in it, each one
once and in the order of the source: whatever starts first comes first, and of two that start
together the outer one. The one sort of statement that is left out is a lone semicolon in a list of
statements; as a branch or as the body of a loop it is kept.
-/
namespace JavaOutline.Lower

open JavaOutline.Tree
open JavaOutline.Grammar

variable {source : Source}

theorem comment_apart (lone : Bool) (n child : Node) (laid : Laid n) (member : child ∈ n.children)
    (comment : child.isComment = true) : (n.states child || lone && n.idles child) = false := by
  have token : n.idles child = false := by
    rcases Node.comment_kind comment with kind | kind <;> simp [Node.idles, kind]
  rw [Source.comment_states n child laid member comment, token, Bool.and_false, Bool.or_false]

theorem comment_told (lone : Bool) (n : Node) (laid : WellLaid n) (comment : n.isComment = true) :
    source.told lone n = [] := by
  induction n using Node.induction with
  | step n below =>
      have plain : n.annotates = false := by
        rcases Node.comment_kind comment with kind | kind <;> simp [Node.annotates, Node.is, kind]
      have leaf : n.solid = [] := by
        rcases Node.comment_kind comment with kind | kind <;>
          (obtain ⟨layout, among, accepts⟩ := (laid n (.self n)).rule _ kind
           rw [List.mem_singleton.mp among] at accepts
           exact accepts)
      rw [source.told_children lone n plain]
      refine List.flatMap_eq_nil_iff.mpr fun child member => ?_
      have other : child.isComment = true := by
        by_contra solid
        have inside : child ∈ n.solid := List.mem_filter.mpr ⟨member, by simpa using solid⟩
        rw [leaf] at inside
        cases inside
      rw [comment_apart lone n child (laid n (.self n)) member other,
        below child member (laid.below (.deeper member (.self child))) other]
      rfl

theorem told_runs (lone : Bool) (n : Node) (laid : WellLaid n) (firm : n.Throughout (Firm [])) :
    Runs source n.start (source.told lone n) n.stop := by
  induction n using Node.induction with
  | step n below =>
      by_cases annotating : n.annotates = true
      · rw [source.annotating_told lone n annotating]
        exact Runs.nil
      · rw [source.told_children lone n (by simpa using annotating),
          Source.flat_map_filter (fun child => !child.isComment)]
        · refine Runs.flat_map _ n.solid firm.here.ordered fun child inside => ?_
          have member : child ∈ n.children := List.mem_of_mem_filter inside
          have inner := below child member (laid.below (.deeper member (.self child)))
            (firm.child member)
          split
          · exact inner.cons child (firm.child member).here.filled
          · exact inner
        · intro child member comment
          have marked : child.isComment = true := by simpa using comment
          rw [comment_apart lone n child (laid n (.self n)) member marked,
            comment_told lone child (laid.below (.deeper member (.self child))) marked]
          rfl

end JavaOutline.Lower

namespace JavaOutline

open Walk

theorem statements_listed (limit : Nat) (whole : Visit)
    (room : whole.tree.height Visit.levels ≤ limit) :
    ∃ found, statements limit whole.tree = .ok found ∧ found.map Statement.span =
      ((whole.tree.listed Join.before).map Prod.snd).filterMap
        fun visit => visit.statement?.map Statement.span := by
  have complete := trace_complete limit whole.tree room
  refine ⟨_, (Trail.within_ok ..).mpr ⟨complete.reached, rfl⟩, ?_⟩
  rw [complete.entered, List.map_filterMap]

theorem bodies_keep_statements (path : String) (chars : List Char) (limit : Nat)
    (u : CompilationUnit) (accepted : CompilationUnit.read path chars limit = .ok u) (place : Place)
    (b : Block) (stands : (Visit.unit u).at? place = some (.block b)) :
    ∃ root m, Grammar.tree? chars = some root ∧ root.Has m ∧
      (m.is .block = true ∨ m.is .constructorBody = true) ∧ Lower.Source.span ⟨chars⟩ m = b.span ∧
      (Lower.Source.told ⟨chars⟩ true m).Pairwise Span.Leads ∧
      (Lower.Source.told ⟨chars⟩ false m).Sublist (Lower.Source.told ⟨chars⟩ true m) ∧
      (m.Busy → Lower.Source.told ⟨chars⟩ false m = Lower.Source.told ⟨chars⟩ true m) ∧
      (Lower.Source.Unveiled ⟨chars⟩ m → ∀ room, b.tree.height Visit.levels ≤ room →
        ∃ found, statements room b.tree = .ok found ∧
          found.map Statement.span = Lower.Source.told ⟨chars⟩ false m) := by
  obtain ⟨root, follows, mirrors⟩ := read_mirrors path chars limit u accepted
  obtain ⟨m, has, sort, span, same⟩ := mirrors.blocks place b stands
  obtain ⟨laid, top⟩ := Grammar.tree_well_laid chars root follows
  have firm : m.Throughout (Tree.Firm []) := by
    cases has with
    | self => rcases sort with block | block <;> simp [Tree.Node.is, top] at block
    | deeper member inside =>
        exact ((Grammar.tree_firm chars root follows).1 _ member).below inside
  have runs (lone : Bool) :
      Lower.Runs ⟨chars⟩ m.start (Lower.Source.told ⟨chars⟩ lone m) m.stop :=
    Lower.told_runs lone m (laid.below has) firm
  obtain ⟨fewer, all⟩ := Lower.Source.told_lone ⟨chars⟩ m
  refine ⟨root, m, follows, has, sort, span, (runs true).ordered, fewer, all,
    fun unveiled room wide => ?_⟩
  obtain ⟨found, ok, spans⟩ := statements_listed room (.block b) wide
  -- The walk and the tree have the same statements, and both list them in the order of the source.
  refine ⟨found, ok, spans.trans ((runs false).unique ?_ ?_)⟩
  · obtain ⟨high, nests⟩ := read_nests path chars limit u accepted
    have inUnit : partAmong? Visit.parts [.unit u] (0 :: place) = some (.block b) := by
      simpa [partAmong?] using stands
    exact (nests.here _ inUnit).listed
  · have order := (Visit.block b).tree.postorder_perm_preorder
    exact ((order.symm.map Prod.snd).filterMap _).trans (same .statement unveiled)

set_option maxRecDepth 100000 in
-- The branch is told in any case, the semicolon behind it only among all statements.
example : ((Grammar.tree? "class T{void m(){if(a);;}}".toList).map fun root =>
    [false, true].map fun lone => (Lower.Source.told ⟨[]⟩ lone root).map Span.startByte) =
      some [[17, 22], [17, 22, 23]] := by
  decide +kernel

set_option maxRecDepth 100000 in
/-- Branches with and without braces, and a loop whose body is a lone semicolon. -/
theorem branches_kept :
    ∃ u b m found,
      CompilationUnit.read "T.java" "class T{void m(){if(a)f();else{g();}while(b);}}".toList 8 =
          .ok u ∧
        (Visit.unit u).at? [0, 0, 0, 0] = some (.block b) ∧
        (m.is .block = true ∨ m.is .constructorBody = true) ∧
        statements 8 b.tree = .ok found ∧
        found.map Statement.span = Lower.Source.told
          ⟨"class T{void m(){if(a)f();else{g();}while(b);}}".toList⟩ true m ∧
        found.length = 6 := by
  obtain ⟨u, b, accepted, stands, shallow⟩ := read_block
    "class T{void m(){if(a)f();else{g();}while(b);}}" 8 [0, 0, 0, 0]
    (fun b => decide (b.tree.height Visit.levels ≤ 8) &&
      (statements 8 b.tree).toOption.any (·.length == 6)) (by decide +kernel)
  have plain : ((Grammar.tree? "class T{void m(){if(a)f();else{g();}while(b);}}".toList).all
      fun root => decide (Lower.Source.Unveiled
          ⟨"class T{void m(){if(a)f();else{g();}while(b);}}".toList⟩ root) &&
        decide root.Busy) = true := by decide +kernel
  obtain ⟨root, m, follows, has, sort, _, _, _, all, keeps⟩ :=
    bodies_keep_statements "T.java" _ 8 u accepted _ b stands
  simp only [Bool.and_eq_true, decide_eq_true_eq] at shallow
  simp only [follows, Option.all_some, Bool.and_eq_true, decide_eq_true_eq] at plain
  obtain ⟨room, six⟩ := shallow
  obtain ⟨found, ok, spans⟩ := keeps (fun other inside => plain.1 other (has.trans inside)) 8 room
  refine ⟨u, b, m, found, accepted, stands, sort, ok, spans.trans (all ?_), ?_⟩
  · exact fun other inside => plain.2 other (has.trans inside)
  · simpa [ok, Except.toOption] using six

set_option maxRecDepth 100000 in
/-- A lone semicolon in a block is left out. -/
theorem lone_semicolon_dropped :
    ∃ u b root m,
      CompilationUnit.read "T.java" "class T{void m(){;}}".toList 128 = .ok u ∧
        (Visit.unit u).at? [0, 0, 0, 0] = some (.block b) ∧
        Grammar.tree? "class T{void m(){;}}".toList = some root ∧ root.Has m ∧
        (m.is .block = true ∨ m.is .constructorBody = true) ∧
        Lower.Source.span ⟨"class T{void m(){;}}".toList⟩ m = b.span ∧
        Lower.Source.told ⟨"class T{void m(){;}}".toList⟩ true m =
          [⟨17, 18, ⟨1, 18⟩, ⟨1, 19⟩⟩] ∧
        statements 128 b.tree = .ok [] := by
  obtain ⟨u, b, accepted, stands, none⟩ := read_block "class T{void m(){;}}" 128 [0, 0, 0, 0]
    (fun b => (statements 128 b.tree).toOption.any List.isEmpty) (by decide +kernel)
  obtain ⟨root, follows, anchored⟩ := read_anchored "T.java" _ 128 u accepted
  obtain ⟨m, has, sort, span, _⟩ := anchored _ b stands
  -- The text has one body, and the semicolon stands in it.
  have only : ((Grammar.tree? "class T{void m(){;}}".toList).all fun root =>
      root.everywhere fun m => !(m.is .block || m.is .constructorBody) ||
        decide (Lower.Source.told ⟨"class T{void m(){;}}".toList⟩ true m =
          [⟨17, 18, ⟨1, 18⟩, ⟨1, 19⟩⟩])) = true := by decide +kernel
  rw [follows, Option.all_some, Tree.Node.everywhere_iff] at only
  have inside := only m has
  have body : (!(m.is .block || m.is .constructorBody)) = false := by
    rcases sort with block | block <;> simp [block]
  rw [body, Bool.false_or] at inside
  refine ⟨u, b, root, m, accepted, stands, follows, has, sort, span, of_decide_eq_true inside, ?_⟩
  cases found : statements 128 b.tree with
  | error reason => simp [found, Except.toOption] at none
  | ok listed =>
      have empty : listed = [] := by simpa [found, Except.toOption] using none
      rw [empty]

end JavaOutline
