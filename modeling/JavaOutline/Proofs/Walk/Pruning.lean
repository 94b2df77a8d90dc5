import JavaOutline.Proofs.Walk.Thresholds

/-!
Pruned walks. Where a walk prunes some sorts of visits, it comes by the same visits as without, in
the same order and with the same levels above them, less those that stand below a visit of a pruned
sort. What is left out takes no part in the budget of what comes later, so a walk that has room
keeps it however it is pruned.
-/
namespace JavaOutline.Walk

namespace Visit

/-- Some visit on the way down to the place, and not at the place itself, is of a pruned sort. -/
def CutOff (pruned : List VisitKind) (whole : Visit) (place : Place) : Prop :=
  ∃ above visit, above <+: place ∧ above ≠ place ∧ whole.at? above = some visit ∧
    visit.kind ∈ pruned

theorem stopped_iff_cut_off (pruned : List VisitKind) (whole : Visit) (place : Place) :
    stoppedAbove Visit.parts (outlineManner pruned).prunes whole place = true ↔
      whole.CutOff pruned place := by
  simp only [stoppedAbove, List.any_eq_true, List.mem_range, Option.any_eq_true, outlineManner,
    List.contains_iff_mem]
  constructor
  · rintro ⟨length, short, visit, found, among⟩
    refine ⟨place.take length, visit, List.take_prefix length place, ?_, found, among⟩
    intro whole
    have full := congrArg List.length whole
    rw [List.length_take] at full
    omega
  · rintro ⟨above, visit, ⟨rest, rfl⟩, strict, found, among⟩
    have more : rest ≠ [] := by
      rintro rfl
      exact strict (List.append_nil above).symm
    refine ⟨above.length, ?_, visit, by rwa [List.take_left], among⟩
    have filled := List.length_pos_iff.mpr more
    simp only [List.length_append]
    omega

instance (pruned : List VisitKind) (whole : Visit) (place : Place) :
    Decidable (whole.CutOff pruned place) :=
  decidable_of_iff _ (stopped_iff_cut_off pruned whole place)

def eventsAround (pruned : List VisitKind) (whole : Visit) : List (Visit × Nat) :=
  ((whole.tree.listed Join.before).filter fun entry => ¬ whole.CutOff pruned entry.1).map
    fun entry => (entry.2, whole.levelsAbove entry.1)

theorem pruned_logs (pruned : List VisitKind) (whole : Visit) (limit : Nat) :
    Rose.Logs (outlineManner pruned) ⟨limit, 0⟩ (whole.eventsAround pruned)
      (trace limit pruned whole.tree) := by
  have logs := Rose.walk_logs (outlineManner pruned) whole.tree ⟨limit, 0⟩
  have listed := Visit.tree_unfolds.levelled_listed (outlineManner pruned) 0 whole
  have kept : (whole.tree.listed Join.before).filter (fun entry =>
      !stoppedAbove Visit.parts (outlineManner pruned).prunes whole entry.1) =
        (whole.tree.listed Join.before).filter fun entry => ¬ whole.CutOff pruned entry.1 := by
    refine List.filter_congr fun entry _ => ?_
    rw [decide_not, ← Bool.decide_coe (stoppedAbove ..)]
    simp only [stopped_iff_cut_off]
  rw [kept] at listed
  simp only [Nat.zero_add] at listed
  rw [listed] at logs
  exact logs

/-- A walk has no less room for what it keeps than an unpruned walk has for everything. -/
theorem around_free (pruned : List VisitKind) (whole : Visit) (limit : Nat)
    (free : whole.events.any (blocked limit) = false) :
    (whole.eventsAround pruned).any ((outlineManner pruned).blocked limit) = false := by
  rw [List.any_eq_false] at free ⊢
  intro event member stopped
  have kept : event ∈ whole.events := (List.filter_sublist.map _).subset member
  refine free event kept ?_
  rw [Manner.blocked, Bool.and_eq_true, Bool.and_eq_true, decide_eq_true_eq] at stopped
  exact (blocked_iff limit event).mpr ⟨stopped.1.1, stopped.2⟩

end Visit

/-- A walk that would have room unpruned succeeds however it is pruned, and what it comes by is
what the unpruned walk comes by less what is cut off. -/
theorem pruning_cuts_subtrees (start : Start) (pruned : List VisitKind) (limit : Nat)
    (log : List (Visit × Nat))
    (ok : (trace limit [] start.visit.tree).within limit Trail.entered = .ok log) :
    ∃ listed, Listing start.visit.at? listed ∧
      log = listed.map (fun entry => (entry.2, start.visit.levelsAbove entry.1)) ∧
      (trace limit pruned start.visit.tree).within limit Trail.entered =
        .ok ((listed.filter fun entry => ¬ start.visit.CutOff pruned entry.1).map
          fun entry => (entry.2, start.visit.levelsAbove entry.1)) := by
  obtain ⟨finished, logged⟩ := (Trail.within_ok ..).mp ok
  obtain ⟨entered, exceeded⟩ := Visit.trace_logs start.visit limit
  have free := exceeded.symm.trans finished
  have kept := Visit.around_free pruned start.visit limit free
  have logs := Visit.pruned_logs pruned start.visit limit
  refine ⟨start.visit.tree.listed Join.before, Visit.tree_unfolds.listing start.visit, ?_, ?_⟩
  · rw [← logged, entered, upTo_all _ _ free]
    rfl
  · refine (Trail.within_ok ..).mpr ⟨logs.exceeded.trans kept, ?_⟩
    rw [logs.entered, upTo_all _ _ kept]
    rfl

/-- The call `f(x = g())`, walked without coming below its assignment. -/
theorem call_around_assignment :
    ∃ (call : MethodCall) (log : List (Visit × Nat)),
      (trace 4 [] (Start.expression ⟨.call call, default⟩).visit.tree).within 4 Trail.entered =
        .ok log ∧
      log.map (fun event => (event.1.kind, event.2)) =
        [(.expression, 0), (.call, 1), (.expression, 1), (.assign, 2), (.expression, 2),
          (.expression, 2), (.call, 3)] ∧
      ∃ kept, (trace 4 [.assign] (Start.expression ⟨.call call, default⟩).visit.tree).within 4
          Trail.entered = .ok kept ∧
        kept.map (fun event => (event.1.kind, event.2)) =
          [(.expression, 0), (.call, 1), (.expression, 1), (.assign, 2)] := by
  let inner : MethodCall := ⟨none, [], "g", [], default⟩
  let assigned : Assignment := ⟨⟨.name "x", default⟩, "=", ⟨.call inner, default⟩, default⟩
  let outer : MethodCall := ⟨none, [], "f", [⟨.assign assigned, default⟩], default⟩
  obtain ⟨listed, -, -, pruned⟩ := pruning_cuts_subtrees
    (.expression ⟨.call outer, default⟩) [.assign] 4 _ rfl
  exact ⟨outer, _, rfl, rfl, _, pruned, by
    have run : (trace 4 [.assign] (Start.expression ⟨.call outer, default⟩).visit.tree).within 4
      Trail.entered = .ok _ := rfl
    rw [pruned] at run
    rw [Except.ok.inj run]
    rfl⟩

end JavaOutline.Walk
