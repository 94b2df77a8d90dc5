import JavaOutline.Proofs.Walk.Collect
import JavaOutline.Walk.Flow
import Mathlib.Data.List.Flatten

/-!
Flattened bodies. The statements of a flow are those at the places one gets to through bodies
alone; the level of a statement is the length of its place. Flattening fails exactly where a level
is above the limit, and otherwise lists the values of these statements in pre-order. They stand in
the same order among all expressions.
-/
namespace JavaOutline

open Walk

/-- The statements one step into the bodies of a statement. No header leads to a statement, and
neither does what is thrown, yielded, asserted or labeled, a local class or a constructor call. -/
def StatementKind.bodies : StatementKind → List Statement
  | .branch _ yes no => yes :: no.toList
  | .forEach _ _ body | .forLoop _ _ _ body | .doLoop body _ | .whileLoop _ body => [body]
  | .block body => body.statements
  | .switch choice => choice.entries.flatMap SwitchEntry.statements
  | .synchronized _ body => body.statements
  | .attempt tried =>
    tried.block.statements ++ tried.handlers.flatMap (fun handler => handler.body.statements) ++
      tried.finish.toList.flatMap Block.statements
  | .expression _ | .returns _ | .throws _ | .breaks _ | .continues _ | .labeled .. | .asserts ..
  | .yields _ | .localClass _ | .constructorCall _ | .empty | .other _ => []

def Statement.bodies (statement : Statement) : List Statement :=
  statement.kind.bodies

theorem statement_flow_map (statements : List Statement) :
    statementFlow statements = statements.map Statement.flow := by
  induction statements with
  | nil => rfl
  | cons first rest ih => simp [statementFlow, ih]

theorem Block.flow_map (block : Block) : block.flow = block.statements.map Statement.flow := by
  cases block
  simp [Block.flow, statement_flow_map]

theorem entry_flow_map (entries : List SwitchEntry) :
    entryFlow entries = (entries.flatMap SwitchEntry.statements).map Statement.flow := by
  induction entries with
  | nil => rfl
  | cons first rest ih =>
      cases first
      simp [entryFlow, SwitchEntry.flow, statement_flow_map, ih]

theorem handler_flow_map (handlers : List Handler) :
    handlerFlow handlers =
      (handlers.flatMap fun handler => handler.body.statements).map Statement.flow := by
  induction handlers with
  | nil => rfl
  | cons first rest ih =>
      cases first
      simp [handlerFlow, Handler.flow, Block.flow_map, ih]

theorem Statement.flow_unfolds : Unfolds Statement.bodies Statement.flow := by
  rintro ⟨kind, span⟩
  rw [Statement.flow]
  cases kind with
  | branch condition yes no =>
      cases no <;> simp [StatementKind.flow, statementFlow?, bodies, StatementKind.bodies]
  | switch choice =>
      cases choice
      simp [StatementKind.flow, SwitchBlock.flow, bodies, StatementKind.bodies, entry_flow_map]
  | attempt tried =>
      obtain ⟨resources, block, handlers, finish⟩ := tried
      cases finish <;>
        simp [StatementKind.flow, Attempt.flow, blockFlow?, bodies, StatementKind.bodies,
          Block.flow_map, handler_flow_map]
  | _ => simp [StatementKind.flow, bodies, StatementKind.bodies, Block.flow_map]

theorem flow_levels (limit : Nat) (starts : List Statement) :
    Rose.heightAll flowManner.cost (starts.map Statement.flow) ≤ limit ↔
      ∀ place statement, partAmong? Statement.bodies starts place = some statement →
        place.length ≤ limit := by
  have each (statement : Statement) :
      (statement.flow).height flowManner.cost ≤ limit ↔
        Fits Statement.bodies (fun _ => 1) limit statement :=
    Statement.flow_unfolds.height_le (fun _ => 1) limit statement
  rw [Rose.height_all_le, List.forall_mem_map]
  -- The first index of a place picks the start and counts for the level of the start itself.
  constructor
  · intro fits place statement found
    cases place with
    | nil => exact Nat.zero_le _
    | cons index rest =>
        obtain ⟨start, atIndex, inside⟩ := Option.bind_eq_some_iff.mp found
        have charged := (each start).mp (fits start (List.mem_of_getElem? atIndex)) rest _ inside
        rwa [charge_each _ start statement rest inside] at charged
  · intro short start member
    refine (each start).mpr fun place statement inside => ?_
    obtain ⟨index, atIndex⟩ := List.mem_iff_getElem?.mp member
    rw [charge_each _ start statement place inside]
    exact short (index :: place) statement (by simpa [partAmong?, atIndex] using inside)

theorem flatten_within (limit : Nat) (starts : List Statement)
    (room : Rose.heightAll flowManner.cost (starts.map Statement.flow) ≤ limit) :
    Walk.flatten limit (starts.map Statement.flow) =
      .ok ((Rose.listedAll Join.before 0 (starts.map Statement.flow)).filterMap
        fun entry => entry.2.value?) := by
  have complete := Rose.walk_all_complete flowManner ⟨limit, 0⟩ (starts.map Statement.flow) 0
    fun flow member => Rose.walk_complete flowManner ⟨limit, 0⟩ (fun _ => rfl) flow
      (by simpa using (Rose.height_all_le flowManner.cost _ limit).mp room flow member)
  refine (Trail.within_ok ..).mpr ⟨complete.reached, ?_⟩
  rw [complete.entered, List.filterMap_map]
  rfl

theorem flatten_beyond (limit : Nat) (starts : List Statement)
    (tight : limit < Rose.heightAll flowManner.cost (starts.map Statement.flow)) :
    Walk.flatten limit (starts.map Statement.flow) = .error (.depthExceeded limit) := by
  refine (Trail.within_error ..).mpr ?_
  refine Rose.walk_all_exceeds flowManner ⟨limit, 0⟩ (fun _ => rfl) _ ?_ (Nat.zero_le _)
    (by simpa using tight)
  exact fun flow _ high => Rose.walk_exceeds flowManner ⟨limit, 0⟩ (fun _ => rfl) flow
    (Nat.zero_le _) high

def Statement.values (statement : Statement) : List Expression :=
  ((statement.flow.listed Join.before).map Prod.snd).filterMap Statement.value?

theorem values_unfold (statement : Statement) :
    statement.values = statement.value?.toList ++ statement.bodies.flatMap Statement.values := by
  rw [Statement.values, Statement.flow_unfolds.nodes_before, List.filterMap_cons,
    List.filterMap_flatMap]
  cases statement.value? <;> rfl

/-- What there is of some nodes after some were opened up into their parts and some left out. -/
inductive Walk.Leaves : List Visit → List Visit → Prop where
  | kept {visits others : List Visit} (some : others.Sublist visits) : Leaves visits others
  | opened (visits : List Visit) : Leaves visits (visits.flatMap Visit.parts)
  | append {front early back late : List Visit} (first : Leaves front early)
      (second : Leaves back late) : Leaves (front ++ back) (early ++ late)
  | trans {visits between others : List Visit} (first : Leaves visits between)
      (second : Leaves between others) : Leaves visits others

namespace Walk.Leaves

theorem flat_map {α : Type} (visit : α → Visit) (inner : α → List Visit) (items : List α)
    (each : ∀ item ∈ items, Leaves [visit item] (inner item)) :
    Leaves (items.map visit) (items.flatMap inner) := by
  induction items with
  | nil => exact kept (List.Sublist.refl _)
  | cons item rest ih =>
      obtain ⟨own, later⟩ := List.forall_mem_cons.mp each
      exact append own (ih later)

theorem parts (whole : Visit) : Leaves [whole] whole.parts := by
  have below := opened [whole]
  rwa [List.flatMap_singleton] at below

/-- What nodes gather from all their parts in order, they gather from what is left of them. -/
theorem gathered {β : Type} {visits others : List Visit} (leaves : Leaves visits others)
    (gather : Visit → List β)
    (around : ∀ whole : Visit, (whole.parts.flatMap gather).Sublist (gather whole)) :
    (others.flatMap gather).Sublist (visits.flatMap gather) := by
  induction leaves with
  | kept some => exact some.flatMap gather
  | opened visits =>
      rw [List.flatMap_assoc]
      exact List.Sublist.flatMap_right _ fun whole _ => around whole
  | append _ _ front back =>
      rw [List.flatMap_append, List.flatMap_append]
      exact front.append back
  | trans _ _ first second => exact second.trans first

end Walk.Leaves

theorem Statement.leaves_bodies (statement : Statement) :
    Leaves [.statement statement]
      (statement.value?.toList.map .expression ++ statement.bodies.map .statement) := by
  have below := Leaves.parts (.statement statement)
  have deeper := below.trans (.opened _)
  obtain ⟨kind, span⟩ := statement
  cases kind with
  | expression value => exact below
  | returns value => simpa [Visit.parts, StatementKind.parts, value?, bodies, StatementKind.bodies]
      using below
  | switch choice =>
      refine deeper.trans (.kept ?_)
      -- The selector goes first, then the labels of every entry.
      simp only [value?, bodies, StatementKind.bodies, Visit.parts, StatementKind.parts,
        List.flatMap_singleton, Option.toList_none, List.map_nil, List.nil_append,
        List.map_flatMap]
      refine List.Sublist.cons _ (List.Sublist.flatMap_right _ fun entry _ => ?_)
      exact List.sublist_append_right ..
  | block body =>
      simpa [Visit.parts, StatementKind.parts, value?, bodies, StatementKind.bodies] using deeper
  | synchronized lock body =>
      refine (below.trans (.kept (List.sublist_cons_self ..))).trans ?_
      simpa [Visit.parts, value?, bodies, StatementKind.bodies] using Leaves.parts (.block body)
  | attempt tried =>
      have blocks : Leaves [.statement ⟨.attempt tried, span⟩] (.block tried.block ::
          tried.handlers.map (fun handler => .block handler.body) ++
          tried.finish.toList.map .block) := by
        refine below.trans (.kept ?_)
        rw [Visit.parts, StatementKind.parts, Attempt.parts, List.append_assoc]
        exact List.sublist_append_right ..
      simpa [value?, bodies, StatementKind.bodies, Visit.parts, List.flatMap_map,
        List.map_flatMap] using blocks.trans (.opened _)
  | forLoop init condition update body => exact below.trans (.kept (List.sublist_append_right ..))
  | branch condition yes no => exact below.trans (.kept (List.sublist_cons_self ..))
  | forEach element iterable body => exact below.trans (.kept (List.sublist_cons_self ..))
  | whileLoop condition body => exact below.trans (.kept (List.sublist_cons_self ..))
  | doLoop body condition =>
      exact below.trans (.kept (List.singleton_sublist.mpr List.mem_cons_self))
  | _ => exact .kept (List.nil_sublist _)

theorem Statement.leaves_values (statement : Statement) :
    Leaves [.statement statement] (statement.values.map .expression) := by
  refine Statement.flow_unfolds.induction (motive := fun statement =>
    Leaves [.statement statement] (statement.values.map .expression)) (fun statement below => ?_)
    statement
  rw [values_unfold, List.map_append, List.map_flatMap]
  refine statement.leaves_bodies.trans (.append (.kept (List.Sublist.refl _)) ?_)
  exact .flat_map .statement _ _ below

def Walk.Visit.spoken (whole : Visit) : List Expression :=
  ((whole.tree.listed Join.before).map Prod.snd).filterMap Visit.expression?

theorem spoken_unfolds (whole : Visit) :
    whole.spoken = whole.expression?.toList ++ whole.parts.flatMap Visit.spoken := by
  rw [Visit.spoken, Visit.tree_unfolds.nodes_before, List.filterMap_cons, List.filterMap_flatMap]
  cases whole.expression? <;> rfl

theorem block_spoken (block : Block) :
    (Visit.block block).spoken =
      block.statements.flatMap fun statement => (Visit.statement statement).spoken := by
  rw [spoken_unfolds]
  simp [Visit.expression?, Visit.parts, List.flatMap_map]

theorem values_sublist (statement : Statement) :
    statement.values.Sublist (Visit.statement statement).spoken := by
  have among := (statement.leaves_values).gathered Visit.spoken fun whole => by
    rw [spoken_unfolds]
    exact List.sublist_append_right ..
  rw [List.flatMap_map, List.flatMap_singleton] at among
  have own : (statement.values.flatMap fun value => [value]).Sublist
      (statement.values.flatMap fun value => (Visit.expression value).spoken) := by
    refine List.Sublist.flatMap_right _ fun value _ => ?_
    rw [spoken_unfolds]
    exact List.sublist_append_left ..
  rw [List.flatMap_singleton'] at own
  exact own.trans among

theorem flattened_values (starts : List Statement) :
    ((Rose.listedAll Join.before 0 (starts.map Statement.flow)).filterMap
      fun entry => entry.2.value?) = starts.flatMap Statement.values := by
  have nodes := Rose.listed_nodes Join.before (starts.map Statement.flow) 0
  rw [List.flatMap_map] at nodes
  have mapped := congrArg (List.filterMap Statement.value?) nodes
  rwa [List.filterMap_map, List.filterMap_flatMap] at mapped

theorem MethodDeclaration.flatten_values (limit : Nat) (method : MethodDeclaration)
    (values : List Expression) (ok : method.flatten limit = .ok values) :
    values = (method.body.elim [] Block.statements).flatMap Statement.values := by
  have flows : method.body.elim [] Block.flow =
      (method.body.elim [] Block.statements).map Statement.flow := by
    cases method.body with
    | none => rfl
    | some body => exact body.flow_map
  rw [MethodDeclaration.flatten, flows] at ok
  by_cases room : Rose.heightAll flowManner.cost
      ((method.body.elim [] Block.statements).map Statement.flow) ≤ limit
  · rw [← Except.ok.inj ((flatten_within limit _ room).symm.trans ok), flattened_values]
  · rw [flatten_beyond limit _ (by omega)] at ok
    cases ok

theorem MethodDeclaration.leaves_statements (method : MethodDeclaration) :
    Leaves [.method method] ((method.body.elim [] Block.statements).map .statement) := by
  have body := (Leaves.parts (.method method)).trans (.opened _)
  have statements : (Visit.method method).parts.flatMap Visit.parts =
      (method.body.elim [] Block.statements).map .statement := by
    cases found : method.body <;> simp [Visit.parts, found]
  rwa [statements] at body

theorem MethodDeclaration.leaves_flattened (limit : Nat) (method : MethodDeclaration)
    (values : List Expression) (ok : method.flatten limit = .ok values) :
    Leaves [.method method] (values.map .expression) := by
  rw [method.flatten_values limit values ok, List.map_flatMap]
  exact method.leaves_statements.trans
    (.flat_map .statement _ _ fun statement _ => statement.leaves_values)

/-- What is selected among the values comes in the order of the values in a post-order as well. -/
theorem flattened_gathered {β : Type} (select : Expression → Option β) (limit : Nat)
    (method : MethodDeclaration) (values : List Expression)
    (ok : method.flatten limit = .ok values) :
    (values.filterMap select).Sublist ((Visit.method method).gathered select) := by
  have among := (method.leaves_flattened limit values ok).gathered (Visit.gathered select)
    fun whole => by
      rw [gathered_unfolds]
      exact List.sublist_append_left ..
  rw [List.flatMap_map, List.flatMap_singleton] at among
  refine List.Sublist.trans ?_ among
  rw [List.filterMap_eq_flatMap_toList]
  refine List.Sublist.flatMap_right _ fun value _ => ?_
  rw [gathered_unfolds]
  exact List.sublist_append_right ..

theorem expressions_spoken (wide : Nat) (whole : Visit) (every : List Expression)
    (ok : Walk.expressions wide whole.tree = .ok every) : every = whole.spoken := by
  obtain ⟨complete, same⟩ := trace_answers wide whole.tree _ every ok
  rw [← same, complete.entered]
  rfl

/-- What the flattened body of `starts`, the statements right below `whole`, has to be. -/
structure FlattensTo (limit : Nat) (starts : List Statement) (whole : Visit)
    (answer : Except Error (List Expression)) : Prop where
  fails : answer = .error (.depthExceeded limit) ↔
    ∃ place statement, partAmong? Statement.bodies starts place = some statement ∧
      limit < place.length
  lists : (∀ place statement, partAmong? Statement.bodies starts place = some statement →
      place.length ≤ limit) →
    ∃ flow, Listing (partAmong? Statement.bodies starts) flow ∧
      answer = .ok (flow.filterMap fun entry => entry.2.value?)
  only : ∀ values value, answer = .ok values → value ∈ values →
    ∃ place statement, partAmong? Statement.bodies starts place = some statement ∧
      (statement.kind = .expression value ∨ statement.kind = .returns (some value))
  among : ∀ values wide every, answer = .ok values →
    Walk.expressions wide whole.tree = .ok every → values.Sublist every

theorem value_kind (statement : Statement) (value : Expression)
    (found : statement.value? = some value) :
    statement.kind = .expression value ∨ statement.kind = .returns (some value) := by
  unfold Statement.value? at found
  split at found
  · cases found
    exact Or.inl ‹_›
  · subst found
    exact Or.inr ‹_›
  · cases found

theorem flattens_to (limit : Nat) (starts : List Statement) (whole : Visit)
    (below : (starts.flatMap fun start => (Visit.statement start).spoken).Sublist whole.spoken) :
    FlattensTo limit starts whole (Walk.flatten limit (starts.map Statement.flow)) := by
  have listing := Statement.flow_unfolds.listing_among starts
  by_cases room : Rose.heightAll flowManner.cost (starts.map Statement.flow) ≤ limit
  · have answer := flatten_within limit starts room
    have short := (flow_levels limit starts).mp room
    refine ⟨?_, fun _ => ⟨_, listing, answer⟩, ?_, ?_⟩
    · rw [answer]
      constructor
      · intro wrong
        cases wrong
      · rintro ⟨place, statement, found, deep⟩
        have level := short place statement found
        omega
    · intro values value ok member
      obtain rfl := Except.ok.inj (answer.symm.trans ok)
      obtain ⟨⟨place, statement⟩, entry, own⟩ := List.mem_filterMap.mp member
      exact ⟨place, statement, (listing.exact place statement).mp entry,
        value_kind statement value own⟩
    · intro values wide every ok all
      obtain rfl := Except.ok.inj (answer.symm.trans ok)
      rw [expressions_spoken wide whole every all, flattened_values]
      exact (List.Sublist.flatMap_right starts fun start _ => values_sublist start).trans below
  · have answer := flatten_beyond limit starts (by omega)
    have deep : ∃ place statement, partAmong? Statement.bodies starts place = some statement ∧
        limit < place.length := by
      simpa using (not_congr (flow_levels limit starts)).mp room
    refine ⟨⟨fun _ => deep, fun _ => answer⟩, ?_, ?_, ?_⟩
    · intro short
      exact absurd ((flow_levels limit starts).mpr short) room
    · intro values value ok
      cases answer.symm.trans ok
    · intro values wide every ok
      cases answer.symm.trans ok

theorem flatten_exact (limit : Nat) :
    (∀ block : Block,
      FlattensTo limit block.statements (.block block) (Walk.flatten limit block.flow)) ∧
    (∀ statement : Statement,
      FlattensTo limit [statement] (.statement statement)
        (Walk.flatten limit [statement.flow])) := by
  constructor
  · intro block
    rw [block.flow_map]
    refine flattens_to limit block.statements (.block block) ?_
    rw [block_spoken]
  · intro statement
    exact flattens_to limit [statement] (.statement statement) (by simp)

end JavaOutline
