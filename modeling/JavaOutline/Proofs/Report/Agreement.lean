import JavaOutline.Proofs.Lower.Depth
import JavaOutline.Proofs.Lower.Runs
import JavaOutline.Proofs.Lower.SourceOrder
import JavaOutline.Proofs.Lower.WellFormed
import JavaOutline.Proofs.Report.Selection

/-!
What a report tells of a method. The values of the flattened body, the calls and the assignments
come from three walks in different orders over the same code, and the report puts them side by side.
Still they agree: the calls and assignments among the values are found by the other walks in the
same order, the declared variables are those of the values that declare some, and lines grow along
the values and stay within those of the method.
-/
namespace JavaOutline

open Walk

theorem Walk.Leaves.everywhere {holds : Visit → Prop} {visits others : List Visit}
    (leaves : Leaves visits others) (all : ∀ visit ∈ visits, visit.Everywhere holds) :
    ∀ visit ∈ others, visit.Everywhere holds := by
  induction leaves with
  | kept some => exact fun visit member => all visit (some.subset member)
  | opened visits =>
      intro part member
      obtain ⟨whole, among, inside⟩ := List.mem_flatMap.mp member
      exact (all whole among).inner part inside
  | append _ _ front back =>
      obtain ⟨first, second⟩ := List.forall_mem_append.mp all
      exact List.forall_mem_append.mpr ⟨front first, back second⟩
  | trans _ _ first second => exact second (first all)

theorem Statement.values_owned {holds : Visit → Prop} (statement : Statement)
    (all : (Visit.statement statement).Everywhere holds) :
    ∀ value ∈ statement.values, ∃ s, holds (.statement s) ∧ s.value? = some value := by
  refine Statement.flow_unfolds.induction (motive := fun statement =>
    (Visit.statement statement).Everywhere holds →
      ∀ value ∈ statement.values, ∃ s, holds (.statement s) ∧ s.value? = some value)
    (fun statement below all value member => ?_) statement all
  rw [values_unfold] at member
  rcases List.mem_append.mp member with own | deeper
  · exact ⟨statement, all.here, Option.mem_toList.mp own⟩
  · obtain ⟨inner, among, inside⟩ := List.mem_flatMap.mp deeper
    refine below inner among ?_ value inside
    refine statement.leaves_bodies.everywhere (List.forall_mem_singleton.mpr all) _ ?_
    exact List.mem_append_right _ (List.mem_map_of_mem among)

theorem MethodDeclaration.values_owned {holds : Visit → Prop} (limit : Nat)
    (method : MethodDeclaration) (values : List Expression)
    (ok : method.flatten limit = .ok values) (all : (Visit.method method).Everywhere holds) :
    ∀ value ∈ values, ∃ s, holds (.statement s) ∧ s.value? = some value := by
  intro value member
  rw [method.flatten_values limit values ok] at member
  obtain ⟨start, among, inside⟩ := List.mem_flatMap.mp member
  refine start.values_owned ?_ value inside
  refine method.leaves_statements.everywhere (List.forall_mem_singleton.mpr all) _ ?_
  exact List.mem_map_of_mem among

theorem MethodDeclaration.values_everywhere {holds : Visit → Prop} {limit : Nat}
    {method : MethodDeclaration} {values : List Expression}
    (ok : method.flatten limit = .ok values) (all : (Visit.method method).Everywhere holds) :
    ∀ value ∈ values, (Visit.expression value).Everywhere holds :=
  List.forall_mem_map.mp ((method.leaves_flattened limit values ok).everywhere
    (List.forall_mem_singleton.mpr all))

theorem declarators_each (values : List Expression) :
    declarators values = values.flatMap fun e => declarators [e] := by
  simp [declarators]

theorem declarators_single (e : Expression) :
    (∃ d, e.kind = .declaration d ∧ declarators [e] = d.declared) ∨
      (∀ d, e.kind ≠ .declaration d) ∧ declarators [e] = [] := by
  obtain ⟨kind, span⟩ := e
  cases kind <;> simp [declarators]

def Expression.declares (e : Expression) : Bool :=
  e.kind.text == "variable_declaration"

theorem declarators_of_declaring (values : List Expression) :
    declarators values = (values.filter Expression.declares).flatMap fun e => declarators [e] := by
  rw [declarators_each]
  induction values with
  | nil => rfl
  | cons e rest ih =>
      rw [List.flatMap_cons, List.filter_cons, ih]
      split
      · rfl
      · rename_i silent
        rcases declarators_single e with ⟨d, kind, _⟩ | ⟨_, none⟩
        · exact absurd (by simp [Expression.declares, kind, ExpressionKind.text]) silent
        · rw [none, List.nil_append]

namespace Lower

open JavaOutline.Tree
open JavaOutline.Grammar

variable {source : Source} {among : Node → Prop}

/-- No rule has the name of the kind of declarations, which other expressions take their names
from. -/
theorem rule_text_apart (r : Rule) : r.text ≠ "variable_declaration" := by
  cases r <;> decide

theorem Valued.declaration {e : Expression} (valued : Valued source among e)
    (declares : e.declares = true) : ∃ d, e.kind = .declaration d := by
  rcases valued with declaration | ⟨n, _, named, made⟩
  · obtain ⟨kind, span⟩ := e
    cases kind <;> first | exact ⟨_, rfl⟩ | cases declaration
  · have text : e.kind.text = "variable_declaration" := beq_iff_eq.mp declares
    obtain ⟨kind, span⟩ := e
    cases kind with
    | declaration d => exact ⟨d, rfl⟩
    | other own children =>
        obtain ⟨r, kind⟩ : ∃ r, n.kind = .rule r := by
          cases same : n.kind with
          | rule r => exact ⟨r, rfl⟩
          | token text => simp [Node.isNamed, same] at named
        have same : own = r.text := by simpa [KindFrom, kind, Kind.text] using made
        exact absurd (same.symm.trans text) (rule_text_apart r)
    | _ => exact absurd text (by simp [ExpressionKind.text])

theorem declared_runs {root n : Node} (follows : Grammar.tree? source.chars = some root)
    (has : root.Has n) {d : VariableDeclaration} (declared : Declared source n d)
    (filled : d.span.startByte < d.span.endByte) :
    d.declared ≠ [] ∧
      Runs source d.span.startByte (d.declared.map Declarator.span) d.span.endByte := by
  cases declared with
  | resource own whole =>
      refine ⟨fun none => ?_, ?_⟩
      · rw [none] at own
        cases own
      · rw [own, ← whole]
        refine Runs.single ?_ (Nat.le_refl _) filled (Nat.le_refl _)
        rw [whole]
        rfl
  | declarators sort own whole =>
      obtain ⟨well, top⟩ := tree_well_laid source.chars root follows
      have laid := well n has
      have firm : Firm [] n := by
        cases has with
        | self => rcases sort with kind | kind | kind <;> cases top.symm.trans kind
        | deeper member inside => exact (tree_firm source.chars root follows).1 _ member n inside
      obtain ⟨first, rest, found⟩ : ∃ m rest, picked n (.under .declarator) = m :: rest := by
        rcases sort with kind | kind | kind <;>
          exact picked_some (laid.rule _ kind) (.under .declarator) (by decide)
      rw [← all_picked laid] at found
      have lies : Lies n.start (n.all .declarator) n.stop := by
        rw [all_picked laid]
        exact firm.ordered.sublist List.filter_sublist
      refine ⟨fun none => ?_, ?_⟩
      · rw [none, found] at own
        cases own
      · rw [own, whole]
        exact Runs.of_lies _ (lies.trim firm.filled).2.2

/-- Sound values that nest: their spans and those of the variables they declare. -/
theorem values_run {root : Node} {low high : Nat} (values : List Expression)
    (follows : Grammar.tree? source.chars = some root)
    (sound : ∀ e ∈ values, (Visit.expression e).Everywhere (Sound source root.Has))
    (nests : Nests low (values.map .expression) high) :
    Runs source low (values.map Expression.span) high ∧
      Runs source low ((declarators values).map Declarator.span) high ∧
      ∀ e ∈ values, ∀ d, e.kind = .declaration d → d.declared ≠ [] := by
  have filled : ∀ e ∈ values, e.span.startByte < e.span.endByte := by
    intro e member
    have single := nests.sublist (List.singleton_sublist.mpr (List.mem_map_of_mem member))
    exact (single.bounds rfl).2.1
  have declared : ∀ e ∈ values, ∀ d, e.kind = .declaration d → d.declared ≠ [] ∧
      Runs source e.span.startByte (d.declared.map Declarator.span) e.span.endByte := by
    intro e member d kind
    have inner : (Visit.declaration d).Everywhere (Sound source root.Has) :=
      (sound e member).inner _ (by simp [Visit.parts, kind, ExpressionKind.parts])
    obtain ⟨n, has, made⟩ := inner.here.particulars
    have same := inner_span (sound e member).here.particulars (by rw [kind]; rfl)
    rw [← same]
    exact declared_runs follows has made (same ▸ filled e member)
  refine ⟨?_, ?_, fun e member d kind => (declared e member d kind).1⟩
  · rw [List.map_eq_flatMap]
    refine Runs.of_nests _ values nests fun e member => ?_
    have taken := (sound e member).here.spans e.span List.mem_cons_self
    exact Runs.single taken.ranged (Nat.le_refl _) (filled e member) (Nat.le_refl _)
  · rw [declarators_each, List.map_flatMap]
    refine Runs.of_nests _ values nests fun e member => ?_
    rcases declarators_single e with ⟨d, kind, own⟩ | ⟨_, none⟩
    · rw [own]
      exact (declared e member d kind).2
    · rw [none]
      exact Runs.nil

theorem calls_run {whole : Visit} {low high : Nat} (sound : whole.Everywhere (Sound source among))
    (nests : Nests low [whole] high) :
    ∀ c ∈ whole.gathered Expression.call?, Runs source low [c.span] high := by
  intro c member
  obtain ⟨place, e, stands, call⟩ := mem_gathered _ member
  have own := sound place _ stands
  have inner : e.kind.inner? = some c.span := by
    obtain ⟨kind, span⟩ := e
    cases kind <;> cases call
    rfl
  have inWhole := (part_among_single Visit.parts whole place).trans stands
  obtain ⟨above, filled, inside, _⟩ := (nests.here _ inWhole).bounds rfl
  rw [inner_span own.particulars inner]
  exact Runs.single (own.spans e.span List.mem_cons_self).ranged above filled inside

end Lower

/-- A walk that finds the calls finds the assignments as well. -/
theorem Walk.calls_then_assignments (limit : Nat) (tree : Rose Visit) (called : List MethodCall)
    (ok : calls limit tree = .ok called) : ∃ assigned, assignments limit tree = .ok assigned :=
  ⟨_, (Trail.within_ok ..).mpr ⟨((Trail.within_ok ..).mp ok).1, rfl⟩⟩

theorem method_sound (path : String) (chars : List Char) (limit : Nat) (u : CompilationUnit)
    (accepted : CompilationUnit.read path chars limit = .ok u) (place : Place)
    (method : MethodDeclaration) (stands : (Visit.unit u).at? place = some (.method method)) :
    ∃ root, Grammar.tree? chars = some root ∧
      (Visit.method method).Everywhere (Lower.Sound ⟨chars⟩ root.Has) ∧
      method.span.startByte < method.span.endByte ∧
      Nests method.span.startByte [.method method] method.span.endByte := by
  obtain ⟨root, follows, sound⟩ := read_sound path chars limit u accepted
  obtain ⟨high, nests⟩ := read_nests path chars limit u accepted
  have inUnit := (part_among_single Visit.parts (.unit u) place).trans stands
  obtain ⟨_, filled, _, inside⟩ := (nests.here _ inUnit).bounds rfl
  exact ⟨root, follows, sound.below stands, filled,
    .bounded rfl (Nat.le_refl _) filled inside (.nil (Nat.le_refl _))⟩

namespace Report

theorem candidate_type (source : SourceFile) (everyType : Bool) :
    ∀ method ∈ candidates source everyType,
      ∃ type ∈ source.unit.types, method ∈ type.body.methods := by
  intro method member
  unfold candidates at member
  split at member
  · exact List.mem_flatMap.mp member
  · cases chosen : source.unit.publicClass? with
    | none => simp [SourceFile.publicMethods?, chosen] at member
    | some type =>
        refine ⟨type, List.mem_of_find?_eq_some chosen, ?_⟩
        simpa [SourceFile.publicMethods?, chosen] using member

theorem candidate_stands {text : Lower.Source} {among : Tree.Node → Prop} (source : SourceFile)
    (everyType : Bool) (sound : (Visit.unit source.unit).Everywhere (Lower.Sound text among)) :
    ∀ method ∈ candidates source everyType,
      ∃ place, (Visit.unit source.unit).at? place = some (.method method) := by
  intro method member
  obtain ⟨type, top, inBody⟩ := candidate_type source everyType method member
  have inUnit : .type type ∈ (Visit.unit source.unit).parts := List.mem_map_of_mem top
  have whole : (Visit.unit source.unit).at? [] = some (.unit source.unit) := rfl
  obtain ⟨index, atType⟩ := part_at_next _ whole inUnit
  obtain ⟨next, atBody⟩ :=
    part_at_next _ atType (List.mem_singleton_self (Visit.classBody type.body))
  rw [(sound _ _ atBody).particulars.1] at inBody
  have listed := (ClassBody.of_members_mem type.body.members).2.2 method inBody
  have part : .method method ∈ (Visit.classBody type.body).parts :=
    List.mem_flatMap.mpr ⟨.method method, listed, List.mem_singleton_self _⟩
  obtain ⟨last, atMethod⟩ := part_at_next _ atBody part
  exact ⟨_, atMethod⟩

/-- Every report on a method in the report on a source is that of a method in the outline. -/
theorem reported_stands {text : Lower.Source} {among : Tree.Node → Prop} (source : SourceFile)
    (sound : (Visit.unit source.unit).Everywhere (Lower.Sound text among)) (selection : Selection)
    (whole : FileReport) (ok : FileReport.ofSource source selection = .ok whole) :
    ∀ report ∈ whole.methods, ∃ place method,
      (Visit.unit source.unit).at? place = some (.method method) ∧
        methodReport source method = .ok report := by
  intro report among
  have on := (of_source_ok_iff source selection whole).mp ok
  have listed : .ok report ∈ (selectedMethods source selection).map (methodReport source) :=
    on.methods ▸ List.mem_map_of_mem among
  obtain ⟨method, chosen, reported⟩ := List.mem_map.mp listed
  obtain ⟨place, stands⟩ :=
    candidate_stands source selection.everyType sound method (List.mem_of_mem_filter chosen)
  exact ⟨place, method, stands, reported⟩

/-- The report on a method goes by the values of the flattened body and by the calls, and these
agree with each other and with the assignments. The calls and assignments among the values are found
in the order of the values; the declarations are those of the expressions of that kind, of which
each declares something; and lines do not go back, nor do they leave the method. -/
structure MethodReport.Agrees (source : SourceFile) (method : MethodDeclaration)
    (report : MethodReport) (values : List Expression) (called : List MethodCall)
    (assigned : List Assignment) : Prop where
  flattened : source.methodExpressions method = .ok values
  callsFound : source.methodCalls method = .ok called
  assignmentsFound : source.assignments method = .ok assigned
  expressions : report.expressions = values.map (expressionEntry source)
  declarations : report.declarations =
    (values.filter Expression.declares).flatMap fun e =>
      (declarators [e]).map (declarationEntry source)
  calls : report.calls = called.map (callEntry source)
  valueCalls : (values.filterMap Expression.call?).Sublist called
  valueAssignments : (values.filterMap Expression.assignment?).Sublist assigned
  declaring : ∀ e ∈ values, e.declares = true → declarators [e] ≠ []
  expressionOrder : (report.expressions.map ExpressionEntry.line).Pairwise (· ≤ ·)
  declarationOrder : (report.declarations.map DeclarationEntry.line).Pairwise (· ≤ ·)
  lines : report.line = method.span.start.line ∧ report.endLine = method.span.stop.line ∧
    report.line ≤ report.endLine
  expressionLines : ∀ entry ∈ report.expressions,
    report.line ≤ entry.line ∧ entry.line ≤ entry.endLine ∧ entry.endLine ≤ report.endLine
  declarationLines : ∀ entry ∈ report.declarations,
    report.line ≤ entry.line ∧ entry.line ≤ report.endLine
  callLines : ∀ entry ∈ report.calls, report.line ≤ entry.line ∧ entry.line ≤ report.endLine

theorem report_agrees (path : String) (chars : List Char) (limit : Nat) (source : SourceFile)
    (accepted : CompilationUnit.read path chars limit = .ok source.unit) (place : Place)
    (method : MethodDeclaration)
    (stands : (Visit.unit source.unit).at? place = some (.method method)) (report : MethodReport)
    (reported : methodReport source method = .ok report) :
    ∃ values called assigned, report.Agrees source method values called assigned := by
  obtain ⟨values, called, flattened, found, rfl⟩ :=
    (method_report_ok_iff source method report).mp reported
  obtain ⟨root, follows, sound, filled, nests⟩ :=
    method_sound path chars limit source.unit accepted place method stands
  obtain ⟨spans, declared, some⟩ :=
    Lower.values_run values follows (MethodDeclaration.values_everywhere flattened sound)
      (nests.leaves (method.leaves_flattened source.limit values flattened))
  have gathered :=
    finished_gathered _ _ call_stands_for (.method method) rfl source.limit called found
  obtain ⟨assigned, others⟩ := calls_then_assignments source.limit method.tree called found
  have gatheredAssignments :=
    finished_gathered _ _ assignment_stands_for (.method method) rfl source.limit assigned others
  have ranged := (sound.here.spans method.span List.mem_cons_self).ranged
  have starts : method.span.start.line = Lower.Source.line ⟨chars⟩ method.span.startByte :=
    congrArg (fun span => span.start.line) ranged
  have stops : method.span.stop.line = Lower.Source.line ⟨chars⟩ method.span.endByte :=
    congrArg (fun span => span.stop.line) ranged
  refine ⟨values, called, assigned, {
    flattened, callsFound := found, assignmentsFound := others, expressions := rfl, calls := rfl
    declarations := ?_, valueCalls := ?_, valueAssignments := ?_, declaring := ?_
    expressionOrder := ?_, declarationOrder := ?_, lines := ?_, expressionLines := ?_
    declarationLines := ?_, callLines := ?_ }⟩
  · rw [declarators_of_declaring, List.map_flatMap]
  · rw [gathered]
    exact flattened_gathered _ source.limit method values flattened
  · rw [gatheredAssignments]
    exact flattened_gathered _ source.limit method values flattened
  · intro e member declares
    obtain ⟨s, own, value⟩ := method.values_owned source.limit values flattened sound e member
    obtain ⟨d, kind⟩ := (own.particulars e value).declaration declares
    simpa [declarators, kind] using some e member d kind
  · simpa [expressionEntry, Function.comp_def] using spans.lines.1
  · simpa [declarationEntry, Function.comp_def] using declared.lines.1
  · refine ⟨rfl, rfl, ?_⟩
    rw [starts, stops]
    exact Lower.Source.line_mono (Nat.le_of_lt filled)
  · refine List.forall_mem_map.mpr fun e member => ?_
    rw [starts, stops]
    exact spans.lines.2 e.span (List.mem_map_of_mem member)
  · refine List.forall_mem_map.mpr fun v member => ?_
    obtain ⟨above, order, inside⟩ := declared.lines.2 v.span (List.mem_map_of_mem member)
    rw [starts, stops]
    exact ⟨above, Nat.le_trans order inside⟩
  · refine List.forall_mem_map.mpr fun c member => ?_
    rw [gathered] at member
    have run := Lower.calls_run sound nests c member
    obtain ⟨above, order, inside⟩ := run.lines.2 c.span List.mem_cons_self
    rw [starts, stops]
    exact ⟨above, Nat.le_trans order inside⟩

theorem method_reports_agree (limit : Nat) (source : SourceFile) (opened : source.Opened limit) :
    (∀ place method report, (Visit.unit source.unit).at? place = some (.method method) →
      methodReport source method = .ok report →
      ∃ values called assigned, report.Agrees source method values called assigned) ∧
    ∀ selection whole, FileReport.ofSource source selection = .ok whole →
      ∀ report ∈ whole.methods, ∃ place method,
        (Visit.unit source.unit).at? place = some (.method method) ∧
          methodReport source method = .ok report := by
  obtain ⟨path, chars, accepted, _⟩ := opened.read
  refine ⟨fun place method report stands reported => ?_, ?_⟩
  · exact report_agrees path chars limit source accepted place method stands report reported
  · obtain ⟨root, _, sound⟩ := read_sound path chars limit source.unit accepted
    exact reported_stands source sound

set_option maxRecDepth 100000 in
/-- A declaration of two variables, and on the next line an assignment and a call. -/
theorem two_lines_reported :
    ∃ source whole report place method values called assigned,
      SourceFile.ofText "T.java" "class T{int m(){int i=f(g()),j;
        i=h();return k(i);}}" 8 = .ok source ∧
        FileReport.ofSource source ⟨none, true⟩ = .ok whole ∧ whole.methods = [report] ∧
        (report.expressions.map fun e => (e.kind, e.line)) =
          [("variable_declaration", 1), ("assign", 2), ("method_call", 2)] ∧
        report.declarations.map DeclarationEntry.name = ["i", "j"] ∧
        report.calls.map CallEntry.name = ["g", "f", "h", "k"] ∧
        (Visit.unit source.unit).at? place = some (.method method) ∧
        methodReport source method = .ok report ∧
        report.Agrees source method values called assigned := by
  have run : ((SourceFile.ofText "T.java" "class T{int m(){int i=f(g()),j;
        i=h();return k(i);}}" 8).toOption.any fun source =>
      (FileReport.ofSource source ⟨none, true⟩).toOption.any fun whole =>
        whole.methods.length == 1 && whole.methods.all fun report =>
          (report.expressions.map fun e => (e.kind, e.line)) ==
              [("variable_declaration", 1), ("assign", 2), ("method_call", 2)] &&
            report.declarations.map DeclarationEntry.name == ["i", "j"] &&
            report.calls.map CallEntry.name == ["g", "f", "h", "k"]) = true := by decide +kernel
  obtain ⟨source, found, inside⟩ := (Option.any_eq_true _ _).mp run
  obtain ⟨whole, made, passes⟩ := (Option.any_eq_true _ _).mp inside
  have opened := ok_of_option found
  have reports := ok_of_option made
  simp only [Bool.and_eq_true, beq_iff_eq] at passes
  obtain ⟨report, only⟩ := List.length_eq_one_iff.mp passes.1
  simp only [only, List.all_cons, List.all_nil, Bool.and_true, Bool.and_eq_true,
    beq_iff_eq] at passes
  obtain ⟨_, ⟨expressions, declarations⟩, calls⟩ := passes
  obtain ⟨agree, stand⟩ := method_reports_agree 8 source (.text _ _ opened)
  obtain ⟨place, method, stands, reported⟩ :=
    stand _ whole reports report (only ▸ List.mem_singleton_self report)
  obtain ⟨values, called, assigned, agrees⟩ := agree place method report stands reported
  exact ⟨source, whole, report, place, method, values, called, assigned, opened, reports, only,
    expressions, declarations, calls, stands, reported, agrees⟩

end Report

end JavaOutline
