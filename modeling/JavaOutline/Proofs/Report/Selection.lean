import JavaOutline.Proofs.Attempts
import JavaOutline.Report.Basic

/-!
Which methods a report is about. Reports on one source differ by their selection only: the report
on the public class is a stretch of the report on every type, and the report on one name is the
report on all names less the other methods. A report fails with the error of the first selected
method that cannot be reported on, so a narrower selection never fails where a wider one succeeds.
-/
namespace JavaOutline

def TypeDeclaration.PublicClass (type : TypeDeclaration) : Prop :=
  (type.kind = .classType ∨ type.kind = .interfaceType) ∧ type.isPublic = true

theorem TypeDeclaration.public_class_iff (type : TypeDeclaration) :
    ((type.kind == .classType || type.kind == .interfaceType) && type.isPublic) = true ↔
      type.PublicClass := by
  simp [PublicClass]

namespace SourceFile
variable (source : SourceFile)

/-- The type is the first public class or interface of the source. -/
def FirstPublic (type : TypeDeclaration) : Prop :=
  ∃ earlier later, source.unit.types = earlier ++ type :: later ∧ type.PublicClass ∧
    ∀ other ∈ earlier, ¬ other.PublicClass

theorem public_class_found (type : TypeDeclaration)
    (found : source.unit.publicClass? = some type) : source.FirstPublic type := by
  obtain ⟨leads, earlier, later, types, first⟩ := List.find?_eq_some_iff_append.mp found
  refine ⟨earlier, later, types, type.public_class_iff.mp leads, fun other among both => ?_⟩
  have passed := first other among
  rw [other.public_class_iff.mpr both] at passed
  cases passed

theorem public_class_missing (missing : source.unit.publicClass? = none) :
    ∀ type ∈ source.unit.types, ¬ type.PublicClass := by
  intro type among both
  exact List.find?_eq_none.mp missing type among (type.public_class_iff.mpr both)

end SourceFile

namespace Report

theorem reported_filter {α β ε : Type} (report : α → Except ε β) (keeps : α → Bool) (shows : β → Bool)
    (told : ∀ item value, report item = .ok value → shows value = keeps item)
    (items : List α) (found : List β) (reported : items.map report = found.map .ok) :
    (items.filter keeps).map report = (found.filter shows).map .ok := by
  induction items generalizing found with
  | nil =>
      cases found with
      | nil => rfl
      | cons value others => cases reported
  | cons item rest ih =>
      cases found with
      | nil => cases reported
      | cons value others =>
          obtain ⟨first, later⟩ := List.cons.inj reported
          have kept := told item value first
          have below := ih others later
          cases keep : keeps item <;>
            simp [kept, keep, below, first]

variable (source : SourceFile)

/-- A method has a report as soon as its body can be flattened and its calls be found. -/
theorem method_report_ok_iff (method : MethodDeclaration) (report : MethodReport) :
    methodReport source method = .ok report ↔
      ∃ values called, source.methodExpressions method = .ok values ∧
        source.methodCalls method = .ok called ∧ report = {
          name := method.name
          signature := method.signature
          line := method.span.start.line
          endLine := method.span.stop.line
          expressions := values.map (expressionEntry source)
          declarations := (declarators values).map (declarationEntry source)
          calls := called.map (callEntry source) } := by
  cases flattened : source.methodExpressions method with
  | error fault => simp [methodReport, flattened, bind, Except.bind]
  | ok values =>
      have declared : source.variableDeclarations method = .ok (declarators values) := by
        rw [SourceFile.variableDeclarations, flattened]
        rfl
      cases found : source.methodCalls method <;>
        simp [methodReport, flattened, declared, found, bind, Except.bind, pure, Except.pure,
          eq_comm]

theorem method_report_name (method : MethodDeclaration) (report : MethodReport)
    (reported : methodReport source method = .ok report) : report.name = method.name := by
  obtain ⟨values, called, _, _, rfl⟩ := (method_report_ok_iff source method report).mp reported
  rfl

structure FileReport.ReportsOn (report : FileReport) (methods : List MethodDeclaration) : Prop where
  path : report.path = source.path
  package : report.package = source.packageName.toOption
  publicClass : report.publicClass = source.publicClassName?
  methods : methods.map (methodReport source) = report.methods.map .ok
  error : report.error = none

theorem FileReport.ReportsOn.other {report : FileReport} {methods : List MethodDeclaration}
    (on : report.ReportsOn source methods) (others : List MethodDeclaration)
    (found : List MethodReport) (reported : others.map (methodReport source) = found.map .ok) :
    ({ report with methods := found } : FileReport).ReportsOn source others :=
  ⟨on.path, on.package, on.publicClass, reported, on.error⟩

theorem of_source_ok_iff (selection : Selection) (report : FileReport) :
    FileReport.ofSource source selection = .ok report ↔
      report.ReportsOn source (selectedMethods source selection) := by
  unfold FileReport.ofSource
  constructor
  · intro made
    cases found : (selectedMethods source selection).mapM (methodReport source) with
    | error fault => simp [found, bind, Except.bind] at made
    | ok methods =>
        rw [found] at made
        obtain rfl := Except.ok.inj made
        exact ⟨rfl, rfl, rfl, (mapM_ok_iff _ _ _).mp found, rfl⟩
  · rintro ⟨path, package, publicClass, methods, error⟩
    rw [(mapM_ok_iff _ _ _).mpr methods, ← path, ← package, ← publicClass]
    obtain ⟨_, _, _, _, _⟩ := report
    cases error
    rfl

theorem of_source_error_iff (selection : Selection) (error : Error) :
    FileReport.ofSource source selection = .error error ↔
      (selectedMethods source selection).mapM (methodReport source) = .error error := by
  unfold FileReport.ofSource
  cases (selectedMethods source selection).mapM (methodReport source) <;>
    simp [bind, Except.bind, pure, Except.pure]

theorem selected_unnamed (everyType : Bool) :
    selectedMethods source ⟨none, everyType⟩ = candidates source everyType :=
  List.filter_eq_self.mpr fun _ _ => rfl

theorem selected_named (name : String) (everyType : Bool) :
    selectedMethods source ⟨some name, everyType⟩ =
      (candidates source everyType).filter fun method => method.name == name :=
  rfl

/-- The methods of the public class, given by their reports; there are none without one. -/
def OfPublicClass (own : List MethodReport) : Prop :=
  (∃ type, source.FirstPublic type ∧
    type.body.methods.map (methodReport source) = own.map .ok) ∨
  (∀ type ∈ source.unit.types, ¬ type.PublicClass) ∧ own = []

theorem public_class_reported (found : List MethodReport)
    (reported : (candidates source true).map (methodReport source) = found.map .ok) :
    ∃ front own back, found = front ++ own ++ back ∧ OfPublicClass source own ∧
      (candidates source false).map (methodReport source) = own.map .ok := by
  cases chosen : source.unit.publicClass? with
  | none =>
      refine ⟨found, [], [], by simp, ?_, ?_⟩
      · exact Or.inr ⟨source.public_class_missing chosen, rfl⟩
      · simp [candidates, SourceFile.publicMethods?, chosen]
  | some type =>
      have first := source.public_class_found type chosen
      obtain ⟨earlier, later, types, -⟩ := source.public_class_found type chosen
      simp only [candidates, ↓reduceIte, types, List.flatMap_append, List.flatMap_cons,
        List.map_append] at reported
      obtain ⟨front, rest, rfl, -, others⟩ := List.map_eq_append_iff.mp reported.symm
      obtain ⟨own, back, rfl, same, -⟩ := List.map_eq_append_iff.mp others
      refine ⟨front, own, back, by simp, Or.inl ⟨type, first, same.symm⟩, ?_⟩
      simp [candidates, SourceFile.publicMethods?, chosen, same]

theorem selections_agree (source : SourceFile) :
    (∀ whole, FileReport.ofSource source ⟨none, true⟩ = .ok whole →
      ∃ front own back, whole.methods = front ++ own ++ back ∧ OfPublicClass source own ∧
        FileReport.ofSource source ⟨none, false⟩ = .ok { whole with methods := own }) ∧
    (∀ everyType whole name, FileReport.ofSource source ⟨none, everyType⟩ = .ok whole →
      FileReport.ofSource source ⟨some name, everyType⟩ = .ok { whole with
        methods := whole.methods.filter fun report => report.name == name }) ∧
    (∀ selection error, FileReport.ofSource source selection = .error error ↔
      ∃ front method back, selectedMethods source selection = front ++ method :: back ∧
        (∀ earlier ∈ front, ∃ report, methodReport source earlier = .ok report) ∧
        methodReport source method = .error error) := by
  refine ⟨?_, ?_, ?_⟩
  · intro whole ok
    have on := (of_source_ok_iff source _ _).mp ok
    have methods := on.methods
    rw [selected_unnamed] at methods
    obtain ⟨front, own, back, split, leads, reported⟩ := public_class_reported source _ methods
    refine ⟨front, own, back, split, leads, (of_source_ok_iff source _ _).mpr ?_⟩
    rw [selected_unnamed]
    exact on.other source _ own reported
  · intro everyType whole name ok
    have on := (of_source_ok_iff source _ _).mp ok
    refine (of_source_ok_iff source _ _).mpr (on.other source _ _ ?_)
    have methods := on.methods
    rw [selected_unnamed] at methods
    rw [selected_named]
    refine reported_filter (methodReport source) _ _ (fun method report made => ?_) _ _ methods
    rw [method_report_name source method report made]
  · intro selection error
    exact (of_source_error_iff source selection error).trans (mapM_error_iff _ _ error)

/-- A class with a method `help` before the public class with the methods `run`, `stop` and `run`.
Without a level of depth the report fails as `stop`, which has a statement, does. -/
theorem two_classes_reported :
    ∃ source : SourceFile, ∃ whole own, FileReport.ofSource source ⟨none, true⟩ = .ok whole ∧
      whole.methods.map MethodReport.name = ["help", "run", "stop", "run"] ∧
      FileReport.ofSource source ⟨none, false⟩ = .ok { whole with methods := own } ∧
      own.map MethodReport.name = ["run", "stop", "run"] ∧
      FileReport.ofSource source ⟨some "run", true⟩ = .ok { whole with
        methods := whole.methods.filter fun report => report.name == "run" } ∧
      ∃ front method back, selectedMethods { source with limit := 0 } ⟨none, false⟩ =
          front ++ method :: back ∧
        methodReport { source with limit := 0 } method = .error (.depthExceeded 0) := by
  let method (name : String) (statements : List Statement) : MethodDeclaration :=
    ⟨name, default, [], some "void", [], [], some ⟨statements, default⟩, default⟩
  let type (name : String) (modifiers : Modifiers) (methods : List MethodDeclaration) :
      TypeDeclaration :=
    ⟨name, .classType, modifiers, .ofMembers (methods.map .method), default⟩
  let source : SourceFile := ⟨"Main.java", ⟨[], none, [],
    [type "Helper" default [method "help" []],
      type "Main" ⟨[.publicAccess], []⟩
        [method "run" [], method "stop" [⟨.empty, default⟩], method "run" []]], default⟩, 1⟩
  let names (report : FileReport) : List String := report.methods.map MethodReport.name
  obtain ⟨narrow, named, -⟩ := selections_agree source
  obtain ⟨-, -, failing⟩ := selections_agree { source with limit := 0 }
  obtain ⟨whole, reported⟩ : ∃ whole, FileReport.ofSource source ⟨none, true⟩ = .ok whole :=
    ⟨_, rfl⟩
  have wide : .ok ["help", "run", "stop", "run"] = Except.ok (names whole) :=
    congrArg (Except.map names) reported
  obtain ⟨front, own, back, -, -, narrowed⟩ := narrow whole reported
  have few : .ok ["run", "stop", "run"] = Except.ok (names { whole with methods := own }) :=
    congrArg (Except.map names) narrowed
  obtain ⟨front', method', back', split, -, failed⟩ :=
    (failing ⟨none, false⟩ (.depthExceeded 0)).mp rfl
  exact ⟨source, whole, own, reported, (Except.ok.inj wide).symm, narrowed,
    (Except.ok.inj few).symm, named true whole "run" reported, front', method', back', split,
    failed⟩

end Report

end JavaOutline
