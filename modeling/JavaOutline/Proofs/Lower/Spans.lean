import JavaOutline.Proofs.Grammar.Boundaries
import JavaOutline.Proofs.Lower.SourceOrder
import JavaOutline.Proofs.Lower.WellFormed

/-!
Spans of an outline are exact. Every span reaches over a node of the tree, or over a declaration up
to its last declarator, and so from one place between characters to a later one; its positions, its
text and its number of lines are those of the bytes in between.
-/
namespace JavaOutline

open Walk

namespace Lower

open JavaOutline.Grammar JavaOutline.Tree

variable {chars : List Char} {root n : Node}

/-- A node is the root, which may be empty, or it is firm. -/
theorem node_firm (follows : tree? chars = some root) (has : root.Has n) :
    n = root ∨ Firm [] n := by
  cases has with
  | self => exact .inl rfl
  | deeper member inside => exact .inr ((tree_firm chars root follows).1 _ member n inside)

theorem node_ordered (follows : tree? chars = some root) (has : root.Has n) :
    n.start ≤ n.stop := by
  obtain ⟨bounded, stop⟩ := tree_bounded root follows
  rcases node_firm follows has with rfl | firm
  · rw [stop]
    exact bounded.here.1.le
  · exact Nat.le_of_lt firm.filled

theorem declarator_behind (follows : tree? chars = some root) (has : root.Has n)
    (sort : DeclaresVariables n) {last : Node} (member : last ∈ n.all .declarator) :
    n.start ≤ last.stop := by
  obtain ⟨laid, program⟩ := tree_well_laid chars root follows
  rcases node_firm follows has with rfl | firm
  · rcases sort with kind | kind | kind <;> cases program.symm.trans kind
  · rw [all_picked (laid n has)] at member
    obtain ⟨order, filled, _⟩ := firm.ordered.member (List.mem_of_mem_filter member)
    omega

theorem taken_exact (follows : tree? chars = some root) {span : Span}
    (taken : Taken ⟨chars⟩ root.Has span) : span.Exact chars := by
  obtain ⟨bounded, _⟩ := tree_bounded root follows
  obtain ⟨n, has, rfl | ⟨sort, last, member, rfl⟩⟩ := taken
  · exact Span.range_exact (node_ordered follows has) (bounded n has).1 (bounded n has).2
  · have inside : n.Has last := .deeper (List.mem_of_mem_filter member) (.self last)
    exact Span.range_exact (declarator_behind follows has sort member) (bounded n has).1
      (bounded last (has.trans inside)).2

end Lower

namespace CompilationUnit

/-- Every span says the same in bytes, in positions and by the text it cuts out, and the text of a
statement or an expression is never empty. -/
structure SpansExact (u : CompilationUnit) : Prop where
  exact : ∀ place visit, (Visit.unit u).at? place = some visit →
    ∀ span ∈ visit.spans, span.Exact u.chars
  shown : ∀ place span, u.codeAt? place = some span → u.snippet span ≠ ""

end CompilationUnit

theorem code_kept {visit : Visit} {span : Span} (code : visit.code? = some span) :
    span ∈ visit.spans := by
  cases visit <;> cases code <;> exact List.mem_cons_self

theorem read_spans_exact (path : String) (chars : List Char) (limit : Nat) (u : CompilationUnit)
    (accepted : CompilationUnit.read path chars limit = .ok u) :
    u.chars = chars ∧ u.SpansExact := by
  obtain ⟨root, follows, sound⟩ := read_sound path chars limit u accepted
  have same : u.chars = chars := sound.here.particulars.1
  have exact' (place : Place) (visit : Visit) (stands : (Visit.unit u).at? place = some visit) :
      ∀ span ∈ visit.spans, span.Exact u.chars := fun span member => by
    rw [same]
    exact Lower.taken_exact follows ((sound place visit stands).spans span member)
  refine ⟨same, exact', fun place span code => ?_⟩
  obtain ⟨visit, stands, own⟩ := Option.bind_eq_some_iff.mp code
  have filled := (read_in_source_order path chars limit u accepted).filled place span code
  exact Span.snippet_filled (exact' place visit stands span (code_kept own)) filled

set_option maxRecDepth 100000 in
/-- A byte order mark, a character of two bytes, and lines that end with a carriage return, with a
line feed and with both; only line feeds count. -/
theorem mixed_lines_spanned :
    ∃ u d, CompilationUnit.read "T.java"
        "\ufeffclass T\x7b\r\n\tString s=\"é\",\r t=\n\"\";\x7d".toList 4 = .ok u ∧
      (Visit.unit u).at? [0, 0, 0] = some (.declaration d) ∧
      d.span = ⟨14, 35, ⟨2, 2⟩, ⟨3, 3⟩⟩ ∧ d.span.lineCount = 2 ∧ u.SpansExact := by
  obtain ⟨u, visit, accepted, stands, passes⟩ := read_place
    "\ufeffclass T\x7b\r\n\tString s=\"é\",\r t=\n\"\";\x7d" 4 [0, 0, 0] (fun visit =>
      match visit with
      | .declaration d => d.span == ⟨14, 35, ⟨2, 2⟩, ⟨3, 3⟩⟩
      | _ => false) (by decide +kernel)
  split at passes
  · rename_i d
    have span := beq_iff_eq.mp passes
    exact ⟨u, d, accepted, stands, span, by rw [span]; rfl,
      (read_spans_exact "T.java" _ 4 u accepted).2⟩
  · cases passes

end JavaOutline
