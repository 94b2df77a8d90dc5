import JavaOutline.Proofs.Grammar.Spacing
import JavaOutline.Proofs.Lower.Echo.Statements
import JavaOutline.Proofs.Lower.Layers
import JavaOutline.SourceFile

/-!
Outlines are faithful to concrete trees. A text that follows the grammar has an outline, unless the
limit is too small or a label stands before a lone semicolon. The bodies in the outline hold the
calls and assignments of the bodies in the tree, wherever nothing hides them there.
-/
namespace JavaOutline.Lower

open JavaOutline.Tree
open JavaOutline.Grammar
open JavaOutline.Walk

variable {source : Source} {root : Node}

theorem answer_echo (laid : WellLaid root) (request : Ask)
    (asked : (echoing source root).asks request) :
    Yields (echoing source root) ((echoing source root).answers request)
      (answer source request) := by
  cases request with
  | expression n =>
      exact Yields.map _ ((expression_kind_echo laid asked.1).mono fun _ inner => inner.expression)
  | statement n =>
      exact Yields.map _ ((statement_kind_echo laid asked.1 asked.2).mono
        fun _ inner => inner.statement)
  | type n kind =>
      exact type_declaration_echo ⟨asked.1, laid, fun _ exposed => exposed⟩ kind asked.2

def Faulty (source : Source) (root : Node) (reason : Fault) : Prop :=
  reason = .tooDeep ∨ (echoing source root).faults reason

theorem levels_echo (laid : WellLaid root) (left : Nat) (request : Ask)
    (asked : (echoing source root).asks request) :
    (levels source left request).Has ((echoing source root).answers request)
      (Faulty source root) := by
  induction left generalizing request with
  | zero => exact Or.inl rfl
  | succ left ih =>
      exact (answer_echo laid request asked).run _ _ ih fun _ => Or.inr

theorem top_type_echo (n : Node) (stands : Stands source root (fun _ => False) n) :
    Yields (echoing source root)
      (fun found => Echoes source root (fun _ => False) (found.toList.map Visit.type) [n])
      (topType n) := by
  unfold topType
  split
  · exact Yields.map _ (type_echo stands _ ‹_›)
  · exact Yields.ok none (Stands.silent fun _ => False.elim)

/-- The blocks of the unit come from the tree, and its spans nest where the parts of the tree
lie. -/
structure Mirrors (source : Source) (root : Node) (u : CompilationUnit) : Prop where
  blocks : ∀ place b, (Visit.unit u).at? place = some (.block b) → Anchored source root b
  nests : ∀ low high, Lies low root.parts high → Nests low [.unit u] high

theorem outline_echo (laid : WellLaid root)
    (firm : ∀ child ∈ root.children, child.Throughout (Firm [])) :
    Yields (echoing source root) (Mirrors source root) (outline source root) := by
  -- Nothing is claimed about subjects here: a unit is no body.
  have stands (n : Node) (member : n ∈ root.parts) : Stands source root (fun _ => False) n := by
    obtain ⟨inside, part⟩ := List.mem_filter.mp member
    simp only [Bool.and_eq_true, Bool.not_eq_true'] at part
    exact ⟨⟨.deeper inside (.self n), firm n inside, part.2⟩, laid, fun _ => False.elim⟩
  refine (map_echo Echoes.joins root.parts fun n member => top_type_echo n (stands n member)).bind
    fun found inner => ?_
  have types : (found.filterMap id).map Visit.type =
      found.flatMap fun type => type.toList.map Visit.type := by
    rw [List.filterMap_eq_flatMap_toList, List.map_flatMap]
    rfl
  rw [← types] at inner
  refine Yields.ok _ ⟨fun place b inUnit => ?_, fun low high lies => ?_⟩
  · refine Echoes.block_places _ (by rintro _ ⟨⟩) ?_ place b inUnit
    exact inner.blocks
  · exact Echoes.free_nests rfl inner low high lies

theorem unit_echo (laid : WellLaid root)
    (firm : ∀ child ∈ root.children, child.Throughout (Firm [])) (chars : List Char)
    (limit : Nat) : (unit chars limit root).Has (Mirrors ⟨chars⟩ root) (Faulty ⟨chars⟩ root) :=
  (outline_echo laid firm).run _ _ (levels_echo laid limit) fun _ => Or.inr

end JavaOutline.Lower

namespace JavaOutline

open Walk

theorem read_grammatical (path : String) (chars : List Char) (limit : Nat) (root : Tree.Node)
    (follows : Grammar.tree? chars = some root) :
    (∃ u, CompilationUnit.read path chars limit = .ok u) ∨
      CompilationUnit.read path chars limit = .error (.depthExceeded (min limit largestDepth)) ∨
      ∃ n, root.Has n ∧ Lower.BareLabel n ∧ CompilationUnit.read path chars limit =
        .error (.parse path (.missing "labeled_statement" "statement"
          (Lower.Source.span ⟨chars⟩ n).start)) := by
  obtain ⟨laid, _⟩ := Grammar.tree_well_laid chars root follows
  obtain ⟨firm, _⟩ := Grammar.tree_firm chars root follows
  have has := Lower.unit_echo laid firm chars (min limit largestDepth)
  simp only [CompilationUnit.read, follows]
  cases lowered : Lower.unit chars (min limit largestDepth) root with
  | ok u => exact Or.inl ⟨u, rfl⟩
  | error reason =>
      rw [lowered] at has
      refine Or.inr ?_
      rcases has with rfl | ⟨n, inside, bare, rfl⟩
      · exact Or.inl rfl
      · refine Or.inr ⟨n, inside, bare, ?_⟩
        have kind : n.kind = .rule .labeledStatement := by simpa [Tree.Node.is] using bare.1
        simp [Lower.Source.missing, kind, Tree.Kind.text, Tree.Rule.text]

set_option maxRecDepth 100000 in
-- A label with nothing behind it does not follow the grammar in the first place.
example : (Grammar.tree? "class T{void m(){a:}}".toList).isNone = true := by
  decide +kernel

set_option maxRecDepth 100000 in
theorem labelled_block_read :
    ∃ root u, Grammar.tree? "class T{void m(){a:{}}}".toList = some root ∧
      CompilationUnit.read "T.java" "class T{void m(){a:{}}}".toList 4 = .ok u := by
  have some : (Grammar.tree? "class T{void m(){a:{}}}".toList).isSome = true := by decide +kernel
  have accepted : (CompilationUnit.read "T.java" "class T{void m(){a:{}}}".toList 4).toBool =
    true := by decide +kernel
  obtain ⟨root, follows⟩ := Option.isSome_iff_exists.mp some
  rcases read_grammatical "T.java" _ 4 root follows with ⟨u, ok⟩ | deep | ⟨_, _, _, missing⟩
  · exact ⟨root, u, follows, ok⟩
  · rw [deep] at accepted
    cases accepted
  · rw [missing] at accepted
    cases accepted

set_option maxRecDepth 100000 in
theorem bare_label_refused :
    (Grammar.tree? "class T{void m(){a:;}}".toList).isSome = true ∧
      CompilationUnit.read "T.java" "class T{void m(){a:;}}".toList 128 =
        .error (.parse "T.java" (.missing "labeled_statement" "statement" ⟨1, 18⟩)) := by
  refine ⟨by decide +kernel, ?_⟩
  have run : (match CompilationUnit.read "T.java" "class T{void m(){a:;}}".toList 128 with
      | .ok _ => false
      | .error reason =>
        reason == .parse "T.java" (.missing "labeled_statement" "statement" ⟨1, 18⟩)) = true := by
    decide +kernel
  split at run
  · cases run
  · rename_i refused
    rw [refused, beq_iff_eq.mp run]

theorem read_mirrors (path : String) (chars : List Char) (limit : Nat) (u : CompilationUnit)
    (accepted : CompilationUnit.read path chars limit = .ok u) :
    ∃ root, Grammar.tree? chars = some root ∧ Lower.Mirrors ⟨chars⟩ root u := by
  obtain ⟨root, follows, lowered⟩ := read_lowered path chars limit u accepted
  have has := Lower.unit_echo (Grammar.tree_well_laid chars root follows).1
    (Grammar.tree_firm chars root follows).1 chars (min limit largestDepth)
  rw [lowered] at has
  exact ⟨root, follows, has⟩

theorem read_anchored (path : String) (chars : List Char) (limit : Nat) (u : CompilationUnit)
    (accepted : CompilationUnit.read path chars limit = .ok u) :
    ∃ root, Grammar.tree? chars = some root ∧ ∀ place b,
      (Visit.unit u).at? place = some (.block b) → Lower.Anchored ⟨chars⟩ root b := by
  obtain ⟨root, follows, mirrors⟩ := read_mirrors path chars limit u accepted
  exact ⟨root, follows, mirrors.blocks⟩

theorem read_nests (path : String) (chars : List Char) (limit : Nat) (u : CompilationUnit)
    (accepted : CompilationUnit.read path chars limit = .ok u) :
    ∃ high, Nests 0 [.unit u] high := by
  obtain ⟨root, follows, mirrors⟩ := read_mirrors path chars limit u accepted
  obtain ⟨_, high, lies⟩ := Grammar.tree_firm chars root follows
  refine ⟨high, mirrors.nests 0 high ?_⟩
  rw [Grammar.parts_picked]
  exact lies.sublist List.filter_sublist

theorem bodies_keep_deeds (path : String) (chars : List Char) (limit : Nat) (u : CompilationUnit)
    (accepted : CompilationUnit.read path chars limit = .ok u) (place : Place) (b : Block)
    (stands : (Visit.unit u).at? place = some (.block b)) :
    ∃ root m, Grammar.tree? chars = some root ∧ root.Has m ∧
      (m.is .block = true ∨ m.is .constructorBody = true) ∧ Lower.Source.span ⟨chars⟩ m = b.span ∧
      ∀ room, b.tree.height Visit.levels ≤ room →
        (Lower.Source.Clear ⟨chars⟩ .call m → ∃ found, calls room b.tree = .ok found ∧
          (found.map MethodCall.span).Perm (Lower.Source.deeds ⟨chars⟩ .call m)) ∧
        (Lower.Source.Clear ⟨chars⟩ .assignment m → ∃ found, assignments room b.tree = .ok found ∧
          (found.map Assignment.span).Perm (Lower.Source.deeds ⟨chars⟩ .assignment m)) := by
  obtain ⟨root, follows, anchored⟩ := read_anchored path chars limit u accepted
  obtain ⟨m, has, sort, span, same⟩ := anchored place b stands
  refine ⟨root, m, follows, has, sort, span, fun room wide => ⟨fun clear => ?_, fun clear => ?_⟩⟩
  · obtain ⟨found, ok, spans⟩ := calls_deeds room (.block b) wide
    exact ⟨found, ok, spans ▸ same .call clear⟩
  · obtain ⟨found, ok, spans⟩ := assignments_deeds room (.block b) wide
    exact ⟨found, ok, spans ▸ same .assignment clear⟩

set_option maxRecDepth 100000 in
-- Of two calls the one inside an annotation does not count.
example : ((Grammar.tree? "class T{void m(){@A(f()) int i=g();}}".toList).map fun root =>
    (Lower.Source.deeds ⟨[]⟩ .call root).map Span.startByte) = some [31] := by
  decide +kernel

/-- Reads a fixed text whose outline has a node at a place that passes a test. -/
theorem read_place (text : String) (limit : Nat) (place : Place) (test : Visit → Bool)
    (run : ((CompilationUnit.read "T.java" text.toList limit).toOption.any fun u =>
      ((Visit.unit u).at? place).any test) = true) :
    ∃ u visit, CompilationUnit.read "T.java" text.toList limit = .ok u ∧
      (Visit.unit u).at? place = some visit ∧ test visit = true := by
  obtain ⟨u, found, inside⟩ := (Option.any_eq_true _ _).mp run
  obtain ⟨visit, stands, passes⟩ := (Option.any_eq_true _ _).mp inside
  exact ⟨u, visit, ok_of_option found, stands, passes⟩

theorem read_method (text : String) (limit : Nat) (place : Place) (test : MethodDeclaration → Bool)
    (run : ((CompilationUnit.read "T.java" text.toList limit).toOption.any fun u =>
      ((Visit.unit u).at? place).any fun part =>
        match part with
        | .method method => test method
        | _ => false) = true) :
    ∃ u method, CompilationUnit.read "T.java" text.toList limit = .ok u ∧
      (Visit.unit u).at? place = some (.method method) ∧ test method = true := by
  obtain ⟨u, part, accepted, stands, passes⟩ := read_place text limit place _ run
  split at passes
  · exact ⟨u, _, accepted, stands, passes⟩
  · cases passes

theorem read_block (text : String) (limit : Nat) (place : Place) (test : Block → Bool)
    (run : ((CompilationUnit.read "T.java" text.toList limit).toOption.any fun u =>
      ((Visit.unit u).at? place).any fun part =>
        match part with
        | .block b => test b
        | _ => false) = true) :
    ∃ u b, CompilationUnit.read "T.java" text.toList limit = .ok u ∧
      (Visit.unit u).at? place = some (.block b) ∧ test b = true := by
  obtain ⟨u, part, accepted, stands, passes⟩ := read_place text limit place _ run
  split at passes
  · exact ⟨u, _, accepted, stands, passes⟩
  · cases passes

set_option maxRecDepth 100000 in
/-- A call and an assignment inside another call. -/
theorem nested_deeds_kept :
    ∃ u b m called assigned,
      CompilationUnit.read "T.java" "class T{int m(int i){return f(i=g());}}".toList 8 = .ok u ∧
        (Visit.unit u).at? [0, 0, 0, 0] = some (.block b) ∧
        (m.is .block = true ∨ m.is .constructorBody = true) ∧
        calls 8 b.tree = .ok called ∧
        (called.map MethodCall.span).Perm (Lower.Source.deeds
          ⟨"class T{int m(int i){return f(i=g());}}".toList⟩ .call m) ∧
        assignments 8 b.tree = .ok assigned ∧
        (assigned.map Assignment.span).Perm (Lower.Source.deeds
          ⟨"class T{int m(int i){return f(i=g());}}".toList⟩ .assignment m) ∧
        called.length = 2 ∧ assigned.length = 1 := by
  obtain ⟨u, b, accepted, stands, shallow⟩ := read_block
    "class T{int m(int i){return f(i=g());}}" 8 [0, 0, 0, 0]
    (fun b => decide (b.tree.height Visit.levels ≤ 8) &&
      (calls 8 b.tree).toOption.any (·.length == 2) &&
      (assignments 8 b.tree).toOption.any (·.length == 1)) (by decide +kernel)
  have clear : ((Grammar.tree? "class T{int m(int i){return f(i=g());}}".toList).all fun root =>
      decide (Lower.Source.Clear ⟨"class T{int m(int i){return f(i=g());}}".toList⟩ .call root) &&
      decide (Lower.Source.Clear ⟨"class T{int m(int i){return f(i=g());}}".toList⟩ .assignment
        root)) = true := by decide +kernel
  obtain ⟨root, m, follows, has, sort, _, keeps⟩ :=
    bodies_keep_deeds "T.java" _ 8 u accepted _ b stands
  simp only [Bool.and_eq_true, decide_eq_true_eq] at shallow
  simp only [follows, Option.all_some, Bool.and_eq_true, decide_eq_true_eq] at clear
  obtain ⟨⟨room, two⟩, one⟩ := shallow
  obtain ⟨called, okCalls, sameCalls⟩ := (keeps 8 room).1 (clear.1.below has)
  obtain ⟨assigned, okAssigned, sameAssigned⟩ := (keeps 8 room).2 (clear.2.below has)
  refine ⟨u, b, m, called, assigned, accepted, stands, sort, okCalls, sameCalls, okAssigned,
    sameAssigned, ?_, ?_⟩
  · simpa [okCalls, Except.toOption] using two
  · simpa [okAssigned, Except.toOption] using one

set_option maxRecDepth 100000 in
/-- The size of an array behind an annotation is left out, and the call in it. -/
theorem annotated_size_dropped :
    ∃ u b root m,
      CompilationUnit.read "T.java" "class T{int[] m(){return new int @A [f()];}}".toList 128 =
          .ok u ∧
        (Visit.unit u).at? [0, 0, 0, 0] = some (.block b) ∧
        Grammar.tree? "class T{int[] m(){return new int @A [f()];}}".toList = some root ∧
        root.Has m ∧ (m.is .block = true ∨ m.is .constructorBody = true) ∧
        Lower.Source.span ⟨"class T{int[] m(){return new int @A [f()];}}".toList⟩ m = b.span ∧
        Lower.Source.deeds ⟨"class T{int[] m(){return new int @A [f()];}}".toList⟩ .call m =
          [⟨37, 40, ⟨1, 38⟩, ⟨1, 41⟩⟩] ∧
        calls 128 b.tree = .ok [] := by
  obtain ⟨u, b, accepted, stands, none⟩ := read_block
    "class T{int[] m(){return new int @A [f()];}}" 128 [0, 0, 0, 0]
    (fun b => (calls 128 b.tree).toOption.any List.isEmpty) (by decide +kernel)
  obtain ⟨root, follows, anchored⟩ := read_anchored "T.java" _ 128 u accepted
  obtain ⟨m, has, sort, span, _⟩ := anchored _ b stands
  -- The text has one body, and the call stands in it.
  have only : ((Grammar.tree? "class T{int[] m(){return new int @A [f()];}}".toList).all
      fun root => root.everywhere fun m => !(m.is .block || m.is .constructorBody) ||
        decide (Lower.Source.deeds ⟨"class T{int[] m(){return new int @A [f()];}}".toList⟩ .call m =
          [⟨37, 40, ⟨1, 38⟩, ⟨1, 41⟩⟩])) = true := by decide +kernel
  rw [follows, Option.all_some, Tree.Node.everywhere_iff] at only
  have inside := only m has
  have body : (!(m.is .block || m.is .constructorBody)) = false := by
    rcases sort with block | block <;> simp [block]
  rw [body, Bool.false_or] at inside
  refine ⟨u, b, root, m, accepted, stands, follows, has, sort, span, of_decide_eq_true inside, ?_⟩
  cases found : calls 128 b.tree with
  | error reason => simp [found, Except.toOption] at none
  | ok called =>
      have empty : called = [] := by simpa [found, Except.toOption] using none
      rw [empty]

end JavaOutline
