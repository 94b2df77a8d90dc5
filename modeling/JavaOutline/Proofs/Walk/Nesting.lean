import JavaOutline.Proofs.Walk.Flow

/-!
Spans that nest. Statements, expressions, methods and types bound what stands below them; other
nodes leave room to the node above. Where the nodes of an outline nest, inner spans lie within outer
ones, and of two nodes apart the earlier one ends before the later one starts. Flattened bodies
inherit this order.
-/
namespace JavaOutline

/-- Of two spans, the one that starts first leads, or else the one that reaches farther. -/
def Span.Leads (first second : Span) : Prop :=
  first.startByte < second.startByte ∨
    first.startByte = second.startByte ∧ second.endByte ≤ first.endByte

end JavaOutline

namespace JavaOutline.Walk

def Visit.bounds? : Visit → Option Span
  | .statement s => some s.span
  | .expression e => some e.span
  | .method m => some m.span
  | .type t => some t.span
  | _ => none

/-- The nodes lie one behind the other between two bytes. A node with bounds is not empty, and its
parts lie within them; any other node takes the room of its parts. -/
inductive Nests : Nat → List Visit → Nat → Prop where
  | nil {low high : Nat} (order : low ≤ high) : Nests low [] high
  | bounded {low high : Nat} {visit : Visit} {rest : List Visit} {span : Span}
      (own : visit.bounds? = some span) (above : low ≤ span.startByte)
      (filled : span.startByte < span.endByte)
      (inside : Nests span.startByte visit.parts span.endByte)
      (behind : Nests span.endByte rest high) : Nests low (visit :: rest) high
  | free {low between high : Nat} {visit : Visit} {rest : List Visit}
      (own : visit.bounds? = none) (inside : Nests low visit.parts between)
      (behind : Nests between rest high) : Nests low (visit :: rest) high

namespace Nests

variable {low between high : Nat} {visits others : List Visit}

theorem order (nests : Nests low visits high) : low ≤ high := by
  induction nests with
  | nil order => exact order
  | bounded _ above filled _ _ _ behind => omega
  | free _ _ _ inside behind => omega

theorem weaken {lower : Nat} (under : lower ≤ low) (nests : Nests low visits high) :
    Nests lower visits high := by
  induction nests generalizing lower with
  | nil order => exact .nil (Nat.le_trans under order)
  | bounded own above filled inside behind => exact .bounded own (by omega) filled inside behind
  | free own _ behind opened => exact .free own (opened under) behind

theorem append (first : Nests low visits between) (second : Nests between others high) :
    Nests low (visits ++ others) high := by
  induction first with
  | nil order => exact second.weaken order
  | bounded own above filled inside _ _ later =>
      exact .bounded own above filled inside (later second)
  | free own inside _ _ later => exact .free own inside (later second)

theorem split (nests : Nests low (visits ++ others) high) :
    ∃ between, Nests low visits between ∧ Nests between others high := by
  induction visits generalizing low with
  | nil => exact ⟨low, .nil (Nat.le_refl low), nests⟩
  | cons visit rest ih =>
      cases nests with
      | bounded own above filled inside behind =>
          obtain ⟨between, first, second⟩ := ih behind
          exact ⟨between, .bounded own above filled inside first, second⟩
      | free own inside behind =>
          obtain ⟨between, first, second⟩ := ih behind
          exact ⟨between, .free own inside first, second⟩

theorem rest {visit : Visit} (nests : Nests low (visit :: visits) high) :
    Nests low visits high := by
  cases nests with
  | bounded _ above filled _ behind => exact behind.weaken (by omega)
  | free _ inside behind => exact behind.weaken inside.order

theorem sublist (nests : Nests low visits high) (some : others.Sublist visits) :
    Nests low others high := by
  induction some generalizing low with
  | slnil => exact nests
  | cons visit _ ih => exact ih nests.rest
  | cons_cons visit _ ih =>
      cases nests with
      | bounded own above filled inside behind => exact .bounded own above filled inside (ih behind)
      | free own inside behind => exact .free own inside (ih behind)

theorem opened (nests : Nests low visits high) : Nests low (visits.flatMap Visit.parts) high := by
  induction visits generalizing low with
  | nil => exact nests
  | cons visit rest ih =>
      rw [List.flatMap_cons]
      cases nests with
      | bounded _ above _ inside behind => exact (inside.weaken above).append (ih behind)
      | free _ inside behind => exact inside.append (ih behind)

theorem single {index : Nat} {visit : Visit} (nests : Nests low visits high)
    (found : visits[index]? = some visit) : Nests low [visit] high := by
  have member := List.mem_of_getElem? found
  exact nests.sublist (List.singleton_sublist.mpr member)

theorem here (place : Place) {visit : Visit} (nests : Nests low visits high)
    (stands : partAmong? Visit.parts visits place = some visit) : Nests low [visit] high := by
  induction place generalizing visits with
  | nil => cases stands
  | cons index tail ih =>
      obtain ⟨whole, found, inside⟩ := Option.bind_eq_some_iff.mp stands
      have own := nests.single found
      cases tail with
      | nil =>
          cases inside
          exact own
      | cons next further =>
          refine ih own.opened ?_
          rwa [List.flatMap_singleton]

theorem bounds {visit : Visit} {span : Span} (nests : Nests low [visit] high)
    (own : visit.bounds? = some span) :
    low ≤ span.startByte ∧ span.startByte < span.endByte ∧ span.endByte ≤ high ∧
      Nests span.startByte visit.parts span.endByte := by
  cases nests with
  | bounded is above filled inside behind =>
      obtain rfl := Option.some.inj (is.symm.trans own)
      exact ⟨above, filled, behind.order, inside⟩
  | free is _ _ => cases is.symm.trans own

/-- Of two nodes apart, the earlier one ends before the later one starts. -/
theorem apart {first second : Place} {former latter : Visit} {before behind : Span}
    (nests : Nests low visits high)
    (atFirst : partAmong? Visit.parts visits first = some former)
    (atSecond : partAmong? Visit.parts visits second = some latter)
    (ofFormer : former.bounds? = some before) (ofLatter : latter.bounds? = some behind)
    (earlier : first.Precedes second) (separate : ¬ first <+: second) :
    before.endByte ≤ behind.startByte := by
  -- The places run together up to a node, and part there for good.
  induction earlier generalizing visits with
  | nil => exact absurd List.nil_prefix separate
  | @rel index tail other further less =>
      rw [← List.take_append_drop other visits] at nests
      obtain ⟨between, front, rest⟩ := nests.split
      have inFront : partAmong? Visit.parts (visits.take other) (index :: tail) = some former := by
        simpa [partAmong?, List.getElem?_take_of_lt less] using atFirst
      have inRest : partAmong? Visit.parts (visits.drop other) (0 :: further) = some latter := by
        simpa [partAmong?] using atSecond
      have ends := ((front.here _ inFront).bounds ofFormer).2.2.1
      have starts := ((rest.here _ inRest).bounds ofLatter).1
      exact Nat.le_trans ends starts
  | @cons index tail further deeper ih =>
      obtain ⟨whole, found, inside⟩ := Option.bind_eq_some_iff.mp atFirst
      obtain ⟨same, again, within⟩ := Option.bind_eq_some_iff.mp atSecond
      obtain rfl := Option.some.inj (found.symm.trans again)
      have parted : ¬ tail <+: further := fun starts =>
        separate ((List.prefix_cons_inj index).mpr starts)
      have below := (nests.single found).opened
      rw [List.flatMap_singleton] at below
      cases tail with
      | nil => exact absurd List.nil_prefix parted
      | cons next behind =>
          cases further with
          | nil => cases deeper
          | cons other last => exact ih below inside within parted

theorem contained (outer : Place) {index : Nat} {tail : Place} {whole visit : Visit}
    {span own : Span} (nests : Nests low visits high)
    (atWhole : partAmong? Visit.parts visits outer = some whole)
    (atVisit : partAmong? Visit.parts visits (outer ++ index :: tail) = some visit)
    (ofWhole : whole.bounds? = some span) (ofVisit : visit.bounds? = some own) :
    span.contains own = true := by
  rw [part_among_below Visit.parts outer index tail visits whole atWhole] at atVisit
  have inside := ((nests.here outer atWhole).bounds ofWhole).2.2.2
  obtain ⟨starts, _, ends, _⟩ := (inside.here _ atVisit).bounds ofVisit
  simp [Span.contains, starts, ends]

theorem leaves (left : Leaves visits others) (nests : Nests low visits high) :
    Nests low others high := by
  induction left generalizing low high with
  | kept some => exact nests.sublist some
  | opened visits => exact nests.opened
  | append _ _ front back =>
      obtain ⟨between, first, second⟩ := nests.split
      exact (front first).append (back second)
  | trans _ _ first second => exact second (first nests)

theorem increasing (found : List Expression) (nests : Nests low (found.map Visit.expression) high) :
    found.Pairwise fun first second => first.span.startByte < second.span.startByte ∧
      first.span.endByte ≤ second.span.startByte := by
  induction found generalizing low with
  | nil => exact List.Pairwise.nil
  | cons first rest ih =>
      cases nests with
      | bounded own above filled inside behind =>
          cases own
          refine List.pairwise_cons.mpr ⟨fun second member => ?_, ih behind⟩
          obtain ⟨index, found⟩ := List.mem_iff_getElem?.mp (List.mem_map_of_mem member)
          have starts := ((behind.single found).bounds rfl).1
          exact ⟨by omega, starts⟩
      | free own _ _ => cases own

theorem listed (whole : Visit) (nests : Nests low [whole] high) :
    (((whole.tree.listed Join.before).map Prod.snd).filterMap
      fun visit => visit.statement?.map Statement.span).Pairwise Span.Leads := by
  -- The whole is the only node at the top, so its places start with that index.
  have top := part_among_single Visit.parts whole
  have bounds (visit : Visit) (span : Span)
      (own : span ∈ visit.statement?.map Statement.span) : visit.bounds? = some span := by
    cases visit <;> first | exact own | cases own
  rw [List.filterMap_map]
  refine List.Pairwise.filterMap _ (fun _ _ leads => leads) (whole.tree.listed_preorder.imp_of_mem
    fun {first second} one other earlier before ofFirst behind ofSecond => ?_)
  have atFirst := (top _).trans ((Visit.tree_unfolds.mem_listed whole ..).mp one)
  have atSecond := (top _).trans ((Visit.tree_unfolds.mem_listed whole ..).mp other)
  have filled := ((nests.here _ atFirst).bounds (bounds _ _ ofFirst)).2.1
  by_cases around : first.1 <+: second.1
  · obtain ⟨tail, same⟩ := around
    cases tail with
    | nil =>
        rw [← same, List.append_nil] at earlier
        exact absurd earlier (List.lt_irrefl _)
    | cons index rest =>
        rw [← same, ← List.cons_append] at atSecond
        have inside := nests.contained _ atFirst atSecond (bounds _ _ ofFirst) (bounds _ _ ofSecond)
        simp only [Span.contains, Bool.and_eq_true, decide_eq_true_eq] at inside
        simp only [Span.Leads]
        omega
  · have apart : ¬ (0 :: first.1) <+: (0 :: second.1) := fun starts =>
      around ((List.prefix_cons_inj 0).mp starts)
    have ends := nests.apart atFirst atSecond (bounds _ _ ofFirst) (bounds _ _ ofSecond)
      (Place.precedes_under 0 _ _ earlier) apart
    exact Or.inl (by omega)

end Nests

end JavaOutline.Walk
