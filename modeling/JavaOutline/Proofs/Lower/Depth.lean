import JavaOutline.Proofs.Lower.Layers
import JavaOutline.Proofs.Walk.Flow
import JavaOutline.SourceFile

/-!
Depth limits before and after lowering. What lowering accepts fits its limit by the levels it takes
itself. Flattening takes a level for statements alone, so it always has room in what was lowered.
A walk takes one more level for every variable declaration on its way, so it can run out of room,
but only where declarations stand inside each other.
-/
namespace JavaOutline

open Walk

/-- The levels that lowering takes for a node. -/
def Walk.Visit.nesting : Visit → Nat
  | .type _ | .statement _ => 1
  | .expression ⟨.declaration _, _⟩ => 0
  | .expression _ => 1
  | _ => 0

theorem Walk.Visit.nesting_le (whole : Visit) : whole.nesting ≤ 1 := by
  unfold Visit.nesting
  split <;> omega

theorem fits_above (left : Nat) (whole : Visit)
    (inner : ∀ part ∈ whole.parts, Fits Visit.parts Visit.nesting left part) :
    Fits Visit.parts Visit.nesting (left + 1) whole := by
  have own := whole.nesting_le
  refine (fits_iff _ _ _ whole).mpr ⟨by omega, fun part member => ?_⟩
  exact fits_mono _ _ left _ part (by omega) (inner part member)

theorem fits_beside (left : Nat) (whole : Visit) (free : whole.nesting = 0)
    (inner : ∀ part ∈ whole.parts, Fits Visit.parts Visit.nesting left part) :
    Fits Visit.parts Visit.nesting left whole := by
  refine (fits_iff _ _ _ whole).mpr ⟨by omega, fun part member => ?_⟩
  rw [free]
  exact inner part member

namespace Lower

theorem fits_started (left : Nat) (part : Visit)
    (starts : Starts (Fits Visit.parts Visit.nesting left) part) :
    Fits Visit.parts Visit.nesting left part := by
  rcases starts with taken | ⟨d, rfl, inner⟩
  · exact taken
  · exact fits_beside left _ rfl (List.forall_mem_singleton.mpr inner)

theorem fits_stacked (source : Source) :
    Stacked source (fun _ => True) (Fits Visit.parts Visit.nesting) where
  layered left := by
    refine ⟨fun _ _ _ _ => trivial, fun whole joint _ inner => fits_beside left whole ?_ inner⟩
    cases whole <;> first | rfl | cases joint
  above left whole _ rests _ :=
    fits_above left whole fun part member => fits_started left part (rests.each part member)

theorem unit_fits (chars : List Char) (limit : Nat) (root : Tree.Node) (u : CompilationUnit)
    (ok : unit chars limit root = .ok u) : Fits Visit.parts Visit.nesting limit (.unit u) :=
  fits_beside limit _ rfl
    (unit_stacked chars limit root (fits_stacked ⟨chars⟩) trivial u ok).2

end Lower

theorem read_fits (path : String) (chars : List Char) (limit : Nat) (u : CompilationUnit)
    (accepted : CompilationUnit.read path chars limit = .ok u) :
    Fits Visit.parts Visit.nesting (min limit largestDepth) (.unit u) := by
  obtain ⟨root, _, lowered⟩ := read_lowered path chars limit u accepted
  exact Lower.unit_fits chars _ root u lowered

theorem method_fits (limit : Nat) (u : CompilationUnit) (place : Place)
    (method : MethodDeclaration) (fits : Fits Visit.parts Visit.nesting limit (.unit u))
    (stands : (Visit.unit u).at? place = some (.method method)) :
    1 ≤ limit ∧ Fits Visit.parts Visit.nesting (limit - 1) (.method method) := by
  -- Neither the unit nor a type on top is a method, so the way down leaves a type, which took
  -- one level; how many more the rest of the way took does not matter.
  cases place with
  | nil => cases stands
  | cons index rest =>
      obtain ⟨top, atIndex, inTop⟩ := Option.bind_eq_some_iff.mp stands
      have member := List.mem_of_getElem? atIndex
      have topFits := ((fits_iff _ _ _ _).mp fits).2 top member
      obtain ⟨type, _, rfl⟩ := List.mem_map.mp member
      obtain ⟨own, below⟩ := (fits_iff _ _ _ _).mp topFits
      cases rest with
      | nil => cases inTop
      | cons index rest =>
          obtain ⟨body, atBody, inBody⟩ := Option.bind_eq_some_iff.mp inTop
          have bodyFits := below body (List.mem_of_getElem? atBody)
          exact ⟨own, fits_descend _ _ _ body _ rest bodyFits inBody⟩

theorem bodies_near (statement body : Statement) (member : body ∈ statement.bodies) :
    .statement body ∈ (Visit.statement statement).parts ∨
      ∃ part ∈ (Visit.statement statement).parts,
        part.nesting = 0 ∧ Visit.statement body ∈ part.parts := by
  -- Blocks and switches stand between a statement and its bodies and take no level.
  obtain ⟨kind, span⟩ := statement
  have inBlock (b : Block) (inside : body ∈ b.statements)
      (among : .block b ∈ kind.parts) :
      ∃ part ∈ kind.parts, part.nesting = 0 ∧ Visit.statement body ∈ part.parts :=
    ⟨.block b, among, rfl, List.mem_map.mpr ⟨body, inside, rfl⟩⟩
  cases kind with
  | block b => exact Or.inr (inBlock b member List.mem_cons_self)
  | synchronized lock b => exact Or.inr (inBlock b member (by simp [StatementKind.parts]))
  | switch choice =>
      refine Or.inr ⟨.switch choice, List.mem_cons_self, rfl, List.mem_cons_of_mem _ ?_⟩
      obtain ⟨entry, among, inside⟩ := List.mem_flatMap.mp member
      refine List.mem_flatMap.mpr ⟨entry, among, List.mem_append_right _ ?_⟩
      exact List.mem_map.mpr ⟨body, inside, rfl⟩
  | attempt tried =>
      refine Or.inr ?_
      rcases List.mem_append.mp member with inner | inFinish
      · rcases List.mem_append.mp inner with inTried | inHandler
        · exact inBlock tried.block inTried (by simp [StatementKind.parts, Attempt.parts])
        · obtain ⟨handler, among, inside⟩ := List.mem_flatMap.mp inHandler
          refine inBlock handler.body inside ?_
          simp only [StatementKind.parts, Attempt.parts, List.mem_append, List.mem_cons]
          exact Or.inl (Or.inr (Or.inr (List.mem_map.mpr ⟨handler, among, rfl⟩)))
      · obtain ⟨last, among, inside⟩ := List.mem_flatMap.mp inFinish
        exact inBlock last inside (List.mem_append_right _ (List.mem_map.mpr ⟨last, among, rfl⟩))
  | _ =>
      refine Or.inl ?_
      simp_all [Statement.bodies, StatementKind.bodies, Visit.parts, StatementKind.parts]

theorem bodies_fit (room : Nat) (statement body : Statement) (member : body ∈ statement.bodies)
    (fits : Fits Visit.parts Visit.nesting room (.statement statement)) :
    Fits Visit.parts Visit.nesting (room - 1) (.statement body) := by
  have below := ((fits_iff _ _ _ _).mp fits).2
  rcases bodies_near statement body member with direct | ⟨part, among, free, inside⟩
  · exact below _ direct
  · have inner := ((fits_iff _ _ _ _).mp (below part among)).2 _ inside
    rwa [free] at inner

theorem flow_fits (room : Nat) (statement : Statement)
    (fits : Fits Visit.parts Visit.nesting room (.statement statement)) :
    Fits Statement.bodies (fun _ => 1) room statement := by
  revert room
  refine Statement.flow_unfolds.induction (motive := fun statement => ∀ room,
    Fits Visit.parts Visit.nesting room (.statement statement) →
      Fits Statement.bodies (fun _ => 1) room statement) ?_ statement
  intro statement below room fits
  have own : 1 ≤ room := ((fits_iff _ _ _ _).mp fits).1
  refine (fits_iff _ _ _ _).mpr ⟨own, fun body member => ?_⟩
  exact below body member (room - 1) (bodies_fit room statement body member fits)

theorem method_flattens (room : Nat) (method : MethodDeclaration)
    (fits : Fits Visit.parts Visit.nesting room (.method method)) :
    ∃ values, method.flatten room = .ok values := by
  unfold MethodDeclaration.flatten
  cases bodied : method.body with
  | none => exact ⟨[], rfl⟩
  | some body =>
      have inBody := ((fits_iff _ _ _ _).mp fits).2 (.block body) (by simp [Visit.parts, bodied])
      have inner := ((fits_iff _ _ _ _).mp inBody).2
      have levels : Rose.heightAll flowManner.cost (body.statements.map Statement.flow) ≤ room := by
        rw [Rose.height_all_le, List.forall_mem_map]
        intro statement member
        refine (Statement.flow_unfolds.height_le (fun _ => 1) room statement).mpr ?_
        exact flow_fits room statement (inner _ (List.mem_map.mpr ⟨statement, member, rfl⟩))
      rw [Option.elim_some, body.flow_map]
      exact ⟨_, flatten_within room body.statements levels⟩

/-- A source that was opened under a limit, from a text or from a file. -/
inductive SourceFile.Opened (limit : Nat) (source : SourceFile) : Prop where
  | text (path text : String) (ok : SourceFile.ofText path text limit = .ok source)
  | file (disk : Files.Disk) (path : String) (ok : SourceFile.openFile disk path limit = .ok source)

theorem of_text_read (path text : String) (limit : Nat) (source : SourceFile)
    (ok : SourceFile.ofText path text limit = .ok source) :
    CompilationUnit.read path text.toList limit = .ok source.unit ∧ source.limit = limit := by
  unfold SourceFile.ofText at ok
  cases read : CompilationUnit.read path text.toList limit with
  | error fault =>
      rw [read] at ok
      cases ok
  | ok u =>
      rw [read] at ok
      cases ok
      exact ⟨rfl, rfl⟩

theorem SourceFile.Opened.read {limit : Nat} {source : SourceFile} (opened : source.Opened limit) :
    ∃ path chars, CompilationUnit.read path chars limit = .ok source.unit ∧
      source.limit = limit := by
  cases opened with
  | text path text ok => exact ⟨path, text.toList, of_text_read path text limit source ok⟩
  | file disk path ok =>
      unfold SourceFile.openFile at ok
      split at ok
      · exact ⟨path, _, of_text_read path _ limit source ok⟩
      · cases ok

/-- The methods of an opened source fit, one level below its limit. -/
theorem SourceFile.Opened.fits {limit : Nat} {source : SourceFile} (opened : source.Opened limit)
    (place : Place) (method : MethodDeclaration)
    (stands : (Visit.unit source.unit).at? place = some (.method method)) :
    source.limit = limit ∧ 1 ≤ limit ∧
      Fits Visit.parts Visit.nesting (min limit largestDepth - 1) (.method method) := by
  obtain ⟨path, chars, accepted, same⟩ := opened.read
  have fits := read_fits path chars limit source.unit accepted
  obtain ⟨positive, below⟩ := method_fits _ source.unit place method fits stands
  exact ⟨same, by omega, below⟩

theorem opened_method (text : String) (limit : Nat) (place : Place)
    (test : MethodDeclaration → Bool)
    (run : ((SourceFile.ofText "T.java" text limit).toOption.any fun source =>
      ((Visit.unit source.unit).at? place).any fun part =>
        match part with
        | .method method => test method
        | _ => false) = true) :
    ∃ source method, SourceFile.ofText "T.java" text limit = .ok source ∧
      (Visit.unit source.unit).at? place = some (.method method) ∧ test method = true := by
  obtain ⟨source, found, inside⟩ := (Option.any_eq_true _ _).mp run
  obtain ⟨part, stands, passes⟩ := (Option.any_eq_true _ _).mp inside
  have opened := ok_of_option found
  split at passes
  · exact ⟨source, _, opened, stands, passes⟩
  · cases passes

theorem lowered_methods_flatten (limit : Nat) :
    (∀ path chars u, CompilationUnit.read path chars limit = .ok u →
      ∀ place method, (Visit.unit u).at? place = some (.method method) →
        ∀ room, min limit largestDepth - 1 ≤ room → ∃ values, method.flatten room = .ok values) ∧
    (∀ source : SourceFile, source.Opened limit →
      ∀ place method, (Visit.unit source.unit).at? place = some (.method method) →
        (∃ values, source.methodExpressions method = .ok values) ∧
          ∃ declared, source.variableDeclarations method = .ok declared) := by
  constructor
  · intro path chars u accepted place method stands room enough
    have fits := read_fits path chars limit u accepted
    have below := (method_fits _ u place method fits stands).2
    exact method_flattens room method (fits_mono _ _ _ room _ enough below)
  · intro source opened place method stands
    obtain ⟨same, _, below⟩ := opened.fits place method stands
    obtain ⟨values, ok⟩ := method_flattens limit method (fits_mono _ _ _ limit _ (by omega) below)
    have answer : source.methodExpressions method = .ok values := by
      rw [SourceFile.methodExpressions, same, ok]
    refine ⟨⟨values, answer⟩, declarators values, ?_⟩
    rw [SourceFile.variableDeclarations, answer]
    rfl

set_option maxRecDepth 100000 in
/-- A method in an anonymous class in a lambda in a field. -/
theorem anonymous_method_flattens :
    ∃ source method,
      SourceFile.ofText "T.java" "class T{X f=()->{new X(){void m(){while(a)b();}};};}" 7 =
          .ok source ∧
        (Visit.unit source.unit).at? [0, 0, 0, 0, 0, 0, 0, 0, 0] = some (.method method) ∧
        (∃ values, method.flatten 6 = .ok values) ∧
        (∃ values, source.methodExpressions method = .ok values) ∧
        ∃ declared, source.variableDeclarations method = .ok declared := by
  obtain ⟨source, method, ok, stands, _⟩ := opened_method
    "class T{X f=()->{new X(){void m(){while(a)b();}};};}" 7 [0, 0, 0, 0, 0, 0, 0, 0, 0]
    (fun method => method.body.isSome) (by decide +kernel)
  obtain ⟨accepted, _⟩ := of_text_read _ _ _ source ok
  have flattened := lowered_methods_flatten 7
  refine ⟨source, method, ok, stands, ?_, ?_⟩
  · exact flattened.1 _ _ _ accepted _ method stands 6 (by decide)
  · exact flattened.2 source (.text _ _ ok) _ method stands

/-- A walk takes a level for the expression around a variable declaration; lowering takes none. -/
def Walk.Visit.declares : Visit → Nat
  | .expression ⟨.declaration _, _⟩ => 1
  | _ => 0

theorem Walk.Visit.levels_le (whole : Visit) : whole.levels ≤ whole.nesting + whole.declares := by
  cases whole with
  | expression e =>
      obtain ⟨kind, span⟩ := e
      cases kind <;> exact Nat.le_refl 1
  | statement s => exact Nat.le_refl 1
  | _ => exact Nat.zero_le _

/-- Some way down from the node has more levels than the limit, and one declaration in another. -/
def Walk.Visit.Outgrows (limit : Nat) (whole : Visit) : Prop :=
  ∃ place part, whole.at? place = some part ∧
    limit < chargeAt Visit.parts Visit.levels whole place ∧
    2 ≤ chargeAt Visit.parts Visit.declares whole place

theorem walk_levels (room : Nat) (whole part : Visit) (place : Place)
    (fits : Fits Visit.parts Visit.nesting room whole) (found : whole.at? place = some part) :
    chargeAt Visit.parts Visit.levels whole place ≤
      room + chargeAt Visit.parts Visit.declares whole place := by
  calc chargeAt Visit.parts Visit.levels whole place
      ≤ chargeAt Visit.parts (fun node => node.nesting + node.declares) whole place :=
        charge_mono _ _ _ Visit.levels_le whole place
    _ = chargeAt Visit.parts Visit.nesting whole place +
          chargeAt Visit.parts Visit.declares whole place := charge_split ..
    _ ≤ room + chargeAt Visit.parts Visit.declares whole place :=
        Nat.add_le_add_right (fits place part found) _

theorem exceeded_iff_outgrows (room limit : Nat) (whole : Visit) (spare : room < limit)
    (fits : Fits Visit.parts Visit.nesting room whole) :
    (trace limit [] whole.tree).exceeded = true ↔ whole.Outgrows limit := by
  rw [trace_exceeded, ← Nat.not_le, Visit.tree_unfolds.height_le]
  constructor
  · intro tight
    simp only [Fits, not_forall] at tight
    obtain ⟨place, part, found, deep⟩ := tight
    -- A single declaration on the way still fits, because there is one level to spare.
    have bound := walk_levels room whole part place fits found
    exact ⟨place, part, found, by omega, by omega⟩
  · rintro ⟨place, part, found, deep, _⟩ within
    have charged := within place part found
    omega

theorem walks_outgrow_by_declarations (limit : Nat) (source : SourceFile)
    (opened : source.Opened limit) (place : Place) (method : MethodDeclaration)
    (stands : (Visit.unit source.unit).at? place = some (.method method)) :
    (∀ inner part, (Visit.method method).at? inner = some part →
      chargeAt Visit.parts Visit.levels (.method method) inner + 1 ≤
        limit + chargeAt Visit.parts Visit.declares (.method method) inner) ∧
    ((¬ (Visit.method method).Outgrows limit ∧
        (∃ found, source.methodCalls method = .ok found) ∧
        ∃ found, source.assignments method = .ok found) ∨
      ((Visit.method method).Outgrows limit ∧
        source.methodCalls method = .error (.depthExceeded limit) ∧
        source.assignments method = .error (.depthExceeded limit))) := by
  obtain ⟨same, positive, fits⟩ := opened.fits place method stands
  constructor
  · intro inner part found
    have bound := walk_levels _ (.method method) part inner fits found
    omega
  · have outgrows := exceeded_iff_outgrows _ limit (.method method) (by omega) fits
    rw [SourceFile.methodCalls, SourceFile.assignments, same]
    cases broken : (trace limit [] method.tree).exceeded with
    | false =>
        refine Or.inl ⟨?_, ⟨_, (Trail.within_ok ..).mpr ⟨broken, rfl⟩⟩,
          ⟨_, (Trail.within_ok ..).mpr ⟨broken, rfl⟩⟩⟩
        rw [← outgrows]
        simp [Visit.tree, broken]
    | true =>
        exact Or.inr ⟨outgrows.mp broken, (Trail.within_error ..).mpr broken,
          (Trail.within_error ..).mpr broken⟩

set_option maxRecDepth 100000 in
theorem single_declaration_walked :
    ∃ source method,
      SourceFile.ofText "T.java" "class T{X m(){X x=f(a);}}" 4 = .ok source ∧
        (Visit.unit source.unit).at? [0, 0, 0] = some (.method method) ∧
        ¬ (Visit.method method).Outgrows 4 ∧
        (∃ found, source.methodCalls method = .ok found) ∧
        ∃ found, source.assignments method = .ok found := by
  obtain ⟨source, method, ok, stands, reached⟩ := opened_method "class T{X m(){X x=f(a);}}" 4
    [0, 0, 0] (fun method => !(trace 4 [] method.tree).exceeded) (by decide +kernel)
  rcases (walks_outgrow_by_declarations 4 source (.text _ _ ok) _ method stands).2 with
    ⟨shallow, answers⟩ | ⟨_, broken, _⟩
  · exact ⟨source, method, ok, stands, shallow, answers⟩
  · rw [SourceFile.methodCalls, (of_text_read _ _ _ source ok).2] at broken
    have exceeded := (Trail.within_error ..).mp broken
    simp [exceeded] at reached

set_option maxRecDepth 100000 in
/-- A declaration in a lambda in the initial value of another one. -/
theorem nested_declarations_outgrow :
    ∃ source method,
      SourceFile.ofText "T.java" "class T{X m(){X x=()->{X y=1;};}}" 5 = .ok source ∧
        (Visit.unit source.unit).at? [0, 0, 0] = some (.method method) ∧
        source.methodCalls method = .error (.depthExceeded 5) ∧
        source.assignments method = .error (.depthExceeded 5) := by
  obtain ⟨source, method, ok, stands, broken⟩ := opened_method
    "class T{X m(){X x=()->{X y=1;};}}" 5 [0, 0, 0]
    (fun method => (trace 5 [] method.tree).exceeded) (by decide +kernel)
  refine ⟨source, method, ok, stands, ?_, ?_⟩
  · rw [SourceFile.methodCalls, (of_text_read _ _ _ source ok).2]
    exact (Trail.within_error ..).mpr broken
  · rw [SourceFile.assignments, (of_text_read _ _ _ source ok).2]
    exact (Trail.within_error ..).mpr broken

end JavaOutline
