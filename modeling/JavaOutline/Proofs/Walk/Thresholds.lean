import JavaOutline.Proofs.Walk.Collect
import JavaOutline.Proofs.Walk.Levels

/-!
The limit at which walks over an outline fail. A statement or expression has a level: one more than
the statements and expressions above it. All unpruned walks fail together, namely where some level
is beyond the limit, and what they came by ends at the first occurrence one level beyond it. Where
they succeed, no larger limit changes what they answer.
-/
namespace JavaOutline.Walk

variable {α : Type}

section Numbered
variable (parts : α → List α) (stops : α → Bool)

def stoppedAbove (whole : α) (place : Place) : Bool :=
  (List.range place.length).any fun length => (partAt? parts whole (place.take length)).any stops

theorem stopped_above_cons (whole : α) (index : Nat) (rest : Place) :
    stoppedAbove parts stops whole (index :: rest) =
      (stops whole ||
        (parts whole)[index]?.any fun part => stoppedAbove parts stops part rest) := by
  cases found : (parts whole)[index]? <;>
    simp [stoppedAbove, List.range_succ_eq_map, List.any_map, Function.comp_def, partAt?, found]

variable {parts} {tree : α → Rose α} (manner : Manner α)

-- The places below several wholes begin with the index of the whole, so that the numbers and what
-- is hidden are only known through what they are behind that index.
theorem levelled_all_listed (number : Place → Nat) (hidden : Place → Bool) (above : Nat)
    (wholes : List α) (index : Nat)
    (each : ∀ whole ∈ wholes, (tree whole).levelled manner above =
      (((tree whole).listed Join.before).filter fun entry =>
        !stoppedAbove parts manner.prunes whole entry.1).map fun entry =>
          (entry.2, above + chargeAbove parts manner.cost whole entry.1))
    (same : ∀ offset whole, wholes[offset]? = some whole → ∀ rest,
      number ((index + offset) :: rest) = above + chargeAbove parts manner.cost whole rest ∧
        hidden ((index + offset) :: rest) = stoppedAbove parts manner.prunes whole rest) :
    Rose.levelledAll manner above (wholes.map tree) =
      ((Rose.listedAll Join.before index (wholes.map tree)).filter fun entry =>
        !hidden entry.1).map fun entry => (entry.2, number entry.1) := by
  induction wholes generalizing index with
  | nil => rfl
  | cons whole others ih =>
      have own := same 0 whole rfl
      have later := ih (index + 1) (fun other member => each other (List.mem_cons_of_mem _ member))
        fun offset other found rest => by
          rw [Nat.add_assoc, Nat.add_comm 1]
          exact same (offset + 1) other found rest
      simp only [List.map_cons, Rose.levelledAll, Rose.listedAll, List.filter_append,
        List.map_append, List.filter_map, List.map_map, later, each whole List.mem_cons_self]
      congr 1
      simp only [Nat.add_zero] at own
      simp [Function.comp_def, own]

/-- A walk has room to come by what nothing above hides. -/
theorem Unfolds.levelled_listed (unfolds : Unfolds parts tree) (above : Nat) (whole : α) :
    (tree whole).levelled manner above =
      (((tree whole).listed Join.before).filter fun entry =>
        !stoppedAbove parts manner.prunes whole entry.1).map fun entry =>
          (entry.2, above + chargeAbove parts manner.cost whole entry.1) := by
  revert above
  refine unfolds.induction (motive := fun whole => ∀ above,
    (tree whole).levelled manner above =
      (((tree whole).listed Join.before).filter fun entry =>
        !stoppedAbove parts manner.prunes whole entry.1).map fun entry =>
          (entry.2, above + chargeAbove parts manner.cost whole entry.1))
    (fun whole below above => ?_) whole
  rw [unfolds whole, Rose.levelled, Rose.listed, Join.before]
  rw [List.filter_cons_of_pos rfl, List.map_cons, chargeAbove, Nat.add_zero]
  congr 1
  -- A pruned value hides all that is below it; any other adds what it costs to each place below.
  cases pruned : manner.prunes whole with
  | true =>
      have hidden : (Rose.listedAll Join.before 0 ((parts whole).map tree)).filter
          (fun entry => !stoppedAbove parts manner.prunes whole entry.1) = [] := by
        refine List.filter_eq_nil_iff.mpr fun entry member => ?_
        obtain ⟨index, rest, _, same⟩ := Rose.listed_all_index _ _ 0 entry member
        simp [same, stopped_above_cons, pruned]
      simp [hidden]
  | false =>
      simp only [Bool.false_eq_true, ↓reduceIte]
      refine levelled_all_listed manner
        (fun place => above + chargeAbove parts manner.cost whole place)
        (stoppedAbove parts manner.prunes whole) (above + manner.cost whole) (parts whole) 0
        (fun part member => below part member _) fun offset part found rest => ?_
      rw [Nat.zero_add, chargeAbove, stopped_above_cons, found, pruned, Option.elim_some,
        Option.any_some, Bool.false_or, Nat.add_assoc]
      exact ⟨rfl, rfl⟩

end Numbered

namespace Visit

def levelsAbove (whole : Visit) (place : Place) : Nat :=
  chargeAbove Visit.parts Visit.levels whole place

def TooDeep (whole : Visit) (limit : Nat) : Prop :=
  ∃ place visit, whole.at? place = some visit ∧ visit.opensLevel = true ∧
    limit < whole.levelsAbove place + 1

def events (whole : Visit) : List (Visit × Nat) :=
  (whole.tree.listed Join.before).map fun entry => (entry.2, whole.levelsAbove entry.1)

def blocked (limit : Nat) : Visit × Nat → Bool :=
  (outlineManner []).blocked limit

theorem blocked_iff (limit : Nat) (event : Visit × Nat) :
    blocked limit event = true ↔ event.1.opensLevel = true ∧ limit ≤ event.2 := by
  simp [blocked, Manner.blocked, outlineManner]

theorem trace_logs (whole : Visit) (limit : Nat) :
    (trace limit [] whole.tree).entered = upTo (blocked limit) whole.events ∧
      (trace limit [] whole.tree).exceeded = whole.events.any (blocked limit) := by
  have logs := Rose.walk_logs (outlineManner []) whole.tree ⟨limit, 0⟩
  have open' (place : Place) : stoppedAbove Visit.parts (outlineManner []).prunes whole place =
      false := by simp [stoppedAbove, outlineManner]
  have same := Visit.tree_unfolds.levelled_listed (outlineManner []) 0 whole
  simp only [open', Bool.not_false, List.filter_true, Nat.zero_add] at same
  rw [same] at logs
  exact ⟨logs.entered, logs.exceeded⟩

theorem blocked_somewhere (whole : Visit) (limit : Nat) :
    whole.events.any (blocked limit) = true ↔ whole.TooDeep limit := by
  rw [List.any_eq_true]
  constructor
  · rintro ⟨event, member, blocked⟩
    obtain ⟨⟨place, visit⟩, listed, rfl⟩ := List.mem_map.mp member
    have stands := (Visit.tree_unfolds.mem_listed whole place visit).mp listed
    obtain ⟨opens, full⟩ := (blocked_iff limit _).mp blocked
    exact ⟨place, visit, stands, opens, Nat.lt_succ_of_le full⟩
  · rintro ⟨place, visit, stands, opens, beyond⟩
    have listed := (Visit.tree_unfolds.mem_listed whole place visit).mpr stands
    refine ⟨_, List.mem_map.mpr ⟨(place, visit), listed, rfl⟩, ?_⟩
    exact (blocked_iff limit _).mpr ⟨opens, Nat.le_of_lt_succ beyond⟩

theorem exceeded_iff_too_deep (whole : Visit) (limit : Nat) :
    (trace limit [] whole.tree).exceeded = true ↔ whole.TooDeep limit := by
  rw [(trace_logs whole limit).2, blocked_somewhere]

/-- The places up to the first occurrence one level beyond the limit. -/
structure FirstBeyond (whole : Visit) (limit : Nat) (seen : List (Place × Visit)) (place : Place)
    (visit : Visit) : Prop where
  listing : ∃ later, Listing whole.at? (seen ++ (place, visit) :: later)
  opens : visit.opensLevel = true
  level : whole.levelsAbove place + 1 = limit + 1
  earlier : ∀ entry ∈ seen, entry.2.opensLevel = true → whole.levelsAbove entry.1 + 1 ≤ limit

/-- Every walk fails at the limit, having come by what lies before the first occurrence one level
beyond it and by that occurrence; a larger limit only adds to that. -/
structure BreaksOff (whole : Visit) (limit : Nat) : Prop where
  calls : Walk.calls limit whole.tree = .error (.depthExceeded limit)
  assignments : Walk.assignments limit whole.tree = .error (.depthExceeded limit)
  statements : Walk.statements limit whole.tree = .error (.depthExceeded limit)
  expressions : Walk.expressions limit whole.tree = .error (.depthExceeded limit)
  traced : (trace limit [] whole.tree).within limit Trail.entered = .error (.depthExceeded limit)
  extended : ∀ larger, limit ≤ larger →
    (trace limit [] whole.tree).entered <+: (trace larger [] whole.tree).entered
  last : ∃ seen place visit, FirstBeyond whole limit seen place visit ∧
    (trace limit [] whole.tree).entered =
      (seen ++ [(place, visit)]).map fun entry => (entry.2, whole.levelsAbove entry.1)

/-- Every walk succeeds at the limit and at all larger ones, with the same answer. -/
structure Settles (whole : Visit) (limit : Nat) : Prop where
  calls : ∃ found, ∀ larger, limit ≤ larger → Walk.calls larger whole.tree = .ok found
  assignments : ∃ found, ∀ larger, limit ≤ larger → Walk.assignments larger whole.tree = .ok found
  statements : ∃ found, ∀ larger, limit ≤ larger → Walk.statements larger whole.tree = .ok found
  expressions : ∃ found, ∀ larger, limit ≤ larger → Walk.expressions larger whole.tree = .ok found
  traced : ∃ found, ∀ larger, limit ≤ larger →
    (trace larger [] whole.tree).within larger Trail.entered = .ok found

theorem first_beyond (whole : Visit) (limit : Nat) (deep : whole.TooDeep limit) :
    ∃ seen place visit, FirstBeyond whole limit seen place visit ∧
      (trace limit [] whole.tree).entered =
        (seen ++ [(place, visit)]).map fun entry => (entry.2, whole.levelsAbove entry.1) := by
  have stopped := (blocked_somewhere whole limit).mpr deep
  obtain ⟨front, last, back, split, full, passed, reached⟩ := upTo_split _ _ stopped
  obtain ⟨seen, rest, listed, rfl, others⟩ := List.map_eq_append_iff.mp split
  obtain ⟨⟨place, visit⟩, later, rfl, rfl, rfl⟩ := List.map_eq_cons_iff.mp others
  have entered := (trace_logs whole limit).1.trans reached
  obtain ⟨opens, atLeast⟩ := (blocked_iff limit _).mp full
  -- The walk never has more levels open than the limit, so it stops right at the limit.
  have atMost := Rose.walk_within (outlineManner []) whole.tree ⟨limit, 0⟩ (Nat.zero_le _)
    (visit, whole.levelsAbove place) (by
      show _ ∈ (trace limit [] whole.tree).entered
      rw [entered]
      exact List.mem_append_right _ List.mem_cons_self)
  have level : whole.levelsAbove place = limit := Nat.le_antisymm atMost atLeast
  refine ⟨seen, place, visit, ⟨⟨later, ?_⟩, opens, by rw [level], ?_⟩, ?_⟩
  · rw [← listed]
    exact Visit.tree_unfolds.listing whole
  · intro entry member opensLevel
    have free := List.any_eq_false.mp passed _ (List.mem_map.mpr ⟨entry, member, rfl⟩)
    rw [blocked_iff] at free
    have room : ¬ limit ≤ whole.levelsAbove entry.1 := fun more => free ⟨opensLevel, more⟩
    omega
  · rw [entered, List.map_append, List.map_cons, List.map_nil]

theorem breaks_off (whole : Visit) (limit : Nat) (deep : whole.TooDeep limit) :
    BreaksOff whole limit := by
  have exceeded := (exceeded_iff_too_deep whole limit).mpr deep
  refine ⟨?_, ?_, ?_, ?_, ?_, fun larger order => ?_, first_beyond whole limit deep⟩
  · exact (Trail.within_error ..).mpr exceeded
  · exact (Trail.within_error ..).mpr exceeded
  · exact (Trail.within_error ..).mpr exceeded
  · exact (Trail.within_error ..).mpr exceeded
  · exact (Trail.within_error ..).mpr exceeded
  · rw [(trace_logs whole limit).1, (trace_logs whole larger).1]
    exact upTo_prefix _ _ _ fun event => (outlineManner []).blocked_mono limit larger order event

theorem TooDeep.anti (whole : Visit) (small large : Nat) (order : small ≤ large)
    (deep : whole.TooDeep large) : whole.TooDeep small := by
  obtain ⟨place, visit, stands, opens, beyond⟩ := deep
  exact ⟨place, visit, stands, opens, Nat.lt_of_le_of_lt order beyond⟩

theorem settles (whole : Visit) (limit : Nat) (shallow : ¬ whole.TooDeep limit) :
    Settles whole limit := by
  have reached (larger : Nat) (order : limit ≤ larger) :
      (trace larger [] whole.tree).exceeded = false := by
    rw [← Bool.not_eq_true, exceeded_iff_too_deep]
    exact fun deep => shallow (deep.anti whole limit larger order)
  have complete (larger : Nat) (order : limit ≤ larger) :
      (trace larger [] whole.tree).Complete ⟨larger, 0⟩ fun join => whole.tree.listed join := by
    refine trace_complete larger whole.tree (Nat.le_of_not_lt fun tight => ?_)
    have broken := (trace_exceeded larger whole.tree).mpr tight
    rw [reached larger order] at broken
    cases broken
  have finished {β : Type} (pick : Visit → Option β) : ∃ found, ∀ larger, limit ≤ larger →
      ((trace larger [] whole.tree).within larger fun trail =>
        trail.finished.filterMap pick) = .ok found :=
    ⟨_, fun larger order => (Trail.within_ok ..).mpr
      ⟨reached larger order, by rw [(complete larger order).finished]⟩⟩
  have entered {β : Type} (pick : Visit → Option β) : ∃ found, ∀ larger, limit ≤ larger →
      ((trace larger [] whole.tree).within larger fun trail =>
        (trail.entered.map Prod.fst).filterMap pick) = .ok found :=
    ⟨_, fun larger order => (Trail.within_ok ..).mpr
      ⟨reached larger order, by rw [(complete larger order).entered]⟩⟩
  refine ⟨finished _, finished _, entered _, entered _, whole.events, fun larger order => ?_⟩
  refine (Trail.within_ok ..).mpr ⟨reached larger order, ?_⟩
  obtain ⟨logged, broken⟩ := trace_logs whole larger
  rw [logged, upTo_all _ _ (broken.symm.trans (reached larger order))]

end Visit

theorem walks_fail_together (start : Start) (limit : Nat) :
    (start.visit.TooDeep limit ∧ start.visit.BreaksOff limit) ∨
      (¬ start.visit.TooDeep limit ∧ start.visit.Settles limit) := by
  by_cases deep : start.visit.TooDeep limit
  · exact Or.inl ⟨deep, start.visit.breaks_off limit deep⟩
  · exact Or.inr ⟨deep, start.visit.settles limit deep⟩

end JavaOutline.Walk
