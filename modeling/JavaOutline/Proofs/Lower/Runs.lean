import JavaOutline.Lower.Source
import JavaOutline.Proofs.Grammar.Ranges
import JavaOutline.Proofs.Walk.Nesting

/-!
Runs of spans: spans between two bytes of a source, in the order of the source. Nodes of a tree that
lie one behind the other have such spans, and so have expressions that nest. Lines only grow along
a text, so the lines of a run grow too and stay between those of its two bytes.
-/
namespace JavaOutline

namespace Position

theorem line_advance (p : Position) (c : Char) : p.line ≤ (p.advance c).line := by
  unfold advance
  split <;> simp

theorem line_walk (p : Position) (chars : List Char) (offset : Nat) :
    p.line ≤ (p.walk chars offset).line := by
  induction chars generalizing p offset with
  | nil => exact Nat.le_refl _
  | cons c rest ih =>
      rw [walk]
      split
      · exact Nat.le_refl _
      · exact Nat.le_trans (p.line_advance c) (ih _ _)

theorem walk_line_mono (p : Position) (chars : List Char) {first second : Nat}
    (order : first ≤ second) : (p.walk chars first).line ≤ (p.walk chars second).line := by
  induction chars generalizing p first second with
  | nil => exact Nat.le_refl _
  | cons c rest ih =>
      by_cases none : first = 0
      · rw [none, walk, if_pos rfl]
        exact p.line_walk _ _
      · rw [walk, walk, if_neg none, if_neg (by omega)]
        exact ih _ (by omega)

end Position

end JavaOutline

namespace JavaOutline.Lower

open JavaOutline.Tree
open JavaOutline.Walk

def Source.line (source : Source) (offset : Nat) : Nat :=
  (Position.walk ⟨1, 1⟩ source.chars offset).line

variable {source : Source}

theorem Source.line_mono {first second : Nat} (order : first ≤ second) :
    source.line first ≤ source.line second :=
  Position.walk_line_mono _ source.chars order

/-- Spans of a source between two bytes, in the order of the source. -/
structure Runs (source : Source) (low : Nat) (spans : List Span) (high : Nat) : Prop where
  ordered : spans.Pairwise Span.Leads
  within : ∀ span ∈ spans, ∃ start stop, span = Span.ofRange source.chars start stop ∧
    low ≤ start ∧ start < stop ∧ stop ≤ high

namespace Runs

variable {low between high : Nat} {spans others : List Span}

theorem nil : Runs source low [] high :=
  ⟨List.Pairwise.nil, List.forall_mem_nil _⟩

theorem single {span : Span}
    (ranged : span = Span.ofRange source.chars span.startByte span.endByte)
    (above : low ≤ span.startByte) (filled : span.startByte < span.endByte)
    (inside : span.endByte ≤ high) : Runs source low [span] high :=
  ⟨List.pairwise_singleton _ _,
    List.forall_mem_singleton.mpr ⟨_, _, ranged, above, filled, inside⟩⟩

theorem weaken {lower : Nat} (under : lower ≤ low) (runs : Runs source low spans high) :
    Runs source lower spans high := by
  refine ⟨runs.ordered, fun span member => ?_⟩
  obtain ⟨start, stop, same, above, filled, inside⟩ := runs.within span member
  exact ⟨start, stop, same, Nat.le_trans under above, filled, inside⟩

theorem append (first : Runs source low spans between) (second : Runs source between others high)
    (under : low ≤ between) (ahead : between ≤ high) : Runs source low (spans ++ others) high where
  ordered := by
    refine List.pairwise_append.mpr ⟨first.ordered, second.ordered, fun span one other two => ?_⟩
    obtain ⟨start, stop, rfl, _, filled, ends⟩ := first.within span one
    obtain ⟨further, last, rfl, starts, _⟩ := second.within other two
    exact Or.inl (by simp only [Span.ofRange]; omega)
  within := by
    refine List.forall_mem_append.mpr ⟨fun span member => ?_, fun span member => ?_⟩
    · obtain ⟨start, stop, same, above, filled, inside⟩ := first.within span member
      exact ⟨start, stop, same, above, filled, Nat.le_trans inside ahead⟩
    · obtain ⟨start, stop, same, above, filled, inside⟩ := second.within span member
      exact ⟨start, stop, same, Nat.le_trans under above, filled, inside⟩

theorem cons (n : Node) (filled : n.start < n.stop) (inner : Runs source n.start spans n.stop) :
    Runs source n.start (source.span n :: spans) n.stop where
  ordered := by
    refine List.pairwise_cons.mpr ⟨fun span member => ?_, inner.ordered⟩
    obtain ⟨start, stop, rfl, above, _, inside⟩ := inner.within span member
    simp only [Span.Leads, Source.span, Span.ofRange]
    omega
  within := List.forall_mem_cons.mpr
    ⟨⟨n.start, n.stop, rfl, Nat.le_refl _, filled, Nat.le_refl _⟩, inner.within⟩

theorem flat_map (f : Node → List Span) (nodes : List Node) (lies : Lies low nodes high)
    (each : ∀ m ∈ nodes, Runs source m.start (f m) m.stop) :
    Runs source low (nodes.flatMap f) high := by
  induction nodes generalizing low with
  | nil => exact nil
  | cons m rest ih =>
      obtain ⟨own, others⟩ := List.forall_mem_cons.mp each
      obtain ⟨above, filled, behind⟩ := lies
      refine (own.weaken above).append (ih behind others) ?_ behind.order
      omega

theorem of_lies (nodes : List Node) (lies : Lies low nodes high) :
    Runs source low (nodes.map source.span) high := by
  induction nodes generalizing low with
  | nil => exact nil
  | cons m rest ih =>
      obtain ⟨above, filled, behind⟩ := lies
      exact ((cons m filled nil).weaken above).append (ih behind) (by omega) behind.order

/-- Expressions that nest hold the runs of each of them, one behind the other. -/
theorem of_nests (f : Expression → List Span) (values : List Expression)
    (nests : Nests low (values.map .expression) high)
    (each : ∀ e ∈ values, Runs source e.span.startByte (f e) e.span.endByte) :
    Runs source low (values.flatMap f) high := by
  induction values generalizing low with
  | nil => exact nil
  | cons e rest ih =>
      obtain ⟨own, others⟩ := List.forall_mem_cons.mp each
      cases nests with
      | bounded same above filled _ behind =>
          cases same
          refine (own.weaken above).append (ih behind others) ?_ behind.order
          omega
      | free same _ _ => cases same

theorem unique (runs : Runs source low spans high) (ordered : others.Pairwise Span.Leads)
    (same : others.Perm spans) : others = spans := by
  refine List.Perm.eq_of_pairwise ?_ ordered runs.ordered same
  -- Spans that lead each other have the same bytes, and the source gives them the same lines.
  intro first second one two leads back
  obtain ⟨start, stop, rfl, _⟩ := runs.within first (same.subset one)
  obtain ⟨further, last, rfl, _⟩ := runs.within second two
  simp only [Span.Leads, Span.ofRange] at leads back
  obtain ⟨rfl, rfl⟩ : start = further ∧ stop = last := by omega
  rfl

theorem lines (runs : Runs source low spans high) :
    (spans.map fun span => span.start.line).Pairwise (· ≤ ·) ∧
      ∀ span ∈ spans, source.line low ≤ span.start.line ∧ span.start.line ≤ span.stop.line ∧
        span.stop.line ≤ source.line high := by
  refine ⟨List.pairwise_map.mpr (runs.ordered.imp_of_mem fun {first second} one two leads => ?_),
    fun span member => ?_⟩
  · obtain ⟨start, stop, rfl, _⟩ := runs.within first one
    obtain ⟨further, last, rfl, _⟩ := runs.within second two
    refine source.line_mono ?_
    simp only [Span.Leads, Span.ofRange] at leads
    omega
  · obtain ⟨start, stop, rfl, above, filled, inside⟩ := runs.within span member
    exact ⟨source.line_mono above, source.line_mono (by omega), source.line_mono inside⟩

end Runs

end JavaOutline.Lower
