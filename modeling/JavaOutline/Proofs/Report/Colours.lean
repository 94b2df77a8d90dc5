import JavaOutline.Proofs.Files.Paths
import JavaOutline.Proofs.Report.Verdict
import Mathlib.Data.List.Forall2

/-!
Reports with colours and without. Colours put sequences around some runs and change nothing else:
texts are elided and filled up before they are set off, and a sequence holds no line end. Erasing
the sequences therefore gives the report without colours, and does so line by line.
-/
namespace JavaOutline.Report

open JavaOutline.Text

def isParameter (c : Char) : Bool :=
  '0' ≤ c && c ≤ '?'

/-- A text without its sequences. A sequence is an escape and a bracket, parameters, and an `m`. -/
def erased : List Char → List Char
  | '\x1b' :: '[' :: rest =>
    match found : rest.dropWhile isParameter with
    | 'm' :: behind =>
      have : behind.length < rest.length := by
        have shorter := (List.dropWhile_suffix isParameter (l := rest)).length_le
        rw [found] at shorter
        exact shorter
      erased behind
    | _ => '\x1b' :: erased ('[' :: rest)
  | c :: rest => c :: erased rest
  | [] => []
termination_by chars => chars.length

/-- The first text is the second one with sequences put in; no other escapes are in it. -/
inductive SetOff : List Char → List Char → Prop where
  | nil : SetOff [] []
  | char {first second : List Char} (c : Char) (plain : c ≠ '\x1b') (rest : SetOff first second) :
    SetOff (c :: first) (c :: second)
  | sequence {first second : List Char} (parameters : List Char)
    (each : ∀ c ∈ parameters, isParameter c = true) (rest : SetOff first second) :
    SetOff ('\x1b' :: '[' :: (parameters ++ 'm' :: first)) second

theorem erased_plain {c : Char} (plain : c ≠ '\x1b') (rest : List Char) :
    erased (c :: rest) = c :: erased rest := by
  rw [erased]
  rintro rest' rfl
  exact absurd rfl plain

theorem erased_sequence (parameters : List Char) (each : ∀ c ∈ parameters, isParameter c = true)
    (rest : List Char) : erased ('\x1b' :: '[' :: (parameters ++ 'm' :: rest)) = erased rest := by
  have behind : (parameters ++ 'm' :: rest).dropWhile isParameter = 'm' :: rest := by
    rw [List.dropWhile_append_of_pos each]
    rfl
  rw [erased]
  split
  · rename_i other found
    rw [behind] at found
    cases found
    rfl
  · rename_i other
    exact absurd behind (other rest)

namespace SetOff

variable {first second third fourth : List Char}

theorem erases (setOff : SetOff first second) : erased first = second := by
  induction setOff with
  | nil => rw [erased]
  | char c plain _ ih => rw [erased_plain plain, ih]
  | sequence parameters each _ ih => rw [erased_sequence parameters each, ih]

theorem append (front : SetOff first second) (back : SetOff third fourth) :
    SetOff (first ++ third) (second ++ fourth) := by
  induction front with
  | nil => exact back
  | char c plain _ ih => exact .char c plain ih
  | sequence parameters each _ ih =>
      have joined := SetOff.sequence parameters each ih
      simpa using joined

theorem plain (chars : List Char) (free : '\x1b' ∉ chars) : SetOff chars chars := by
  induction chars with
  | nil => exact .nil
  | cons c rest ih =>
      obtain ⟨own, others⟩ := not_or.mp (List.mem_cons.not.mp free)
      exact .char c (Ne.symm own) (ih others)

theorem lines (setOff : SetOff first second) :
    List.Forall₂ SetOff (pieces '\n' first) (pieces '\n' second) := by
  induction setOff with
  | nil => exact .cons .nil .nil
  | @char first second c plain _ ih =>
      rw [pieces, pieces]
      split
      · exact .cons .nil ih
      · obtain ⟨line, others, shape⟩ := List.exists_cons_of_ne_nil (pieces_filled '\n' first)
        obtain ⟨bare, behind, same⟩ := List.exists_cons_of_ne_nil (pieces_filled '\n' second)
        rw [shape, same] at ih ⊢
        obtain ⟨own, later⟩ := List.forall₂_cons.mp ih
        exact .cons (.char c plain own) later
  | @sequence first second parameters each _ ih =>
      -- A sequence has no line end, so it becomes part of the line that goes on behind it.
      have inside : '\n' ∉ '\x1b' :: '[' :: (parameters ++ ['m']) := by
        have other : '\n' ∉ parameters := fun member => absurd (each _ member) (by decide)
        simp [other]
      obtain ⟨line, others, shape⟩ := List.exists_cons_of_ne_nil (pieces_filled '\n' first)
      obtain ⟨bare, behind, same⟩ := List.exists_cons_of_ne_nil (pieces_filled '\n' second)
      rw [shape, same] at ih
      obtain ⟨own, later⟩ := List.forall₂_cons.mp ih
      have joined := pieces_prepend inside shape
      simp only [List.cons_append, List.append_assoc, List.nil_append] at joined
      rw [joined, same]
      exact .cons (.sequence parameters each own) later

end SetOff

theorem reset_set_off : SetOff resetSequence [] :=
  .sequence ['0'] (List.forall_mem_singleton.mpr rfl) .nil

theorem start_set_off (effects : List Effect) : SetOff (startSequence effects) [] := by
  have codes : ∀ effect : Effect, ∀ c ∈ effect.code.toList, isParameter c = true := by
    intro effect
    rw [← List.all_eq_true]
    cases effect <;> rfl
  have each : ∀ c ∈ (";".intercalate (effects.map Effect.code)).toList, isParameter c = true := by
    intro c member
    rw [String.toList_intercalate] at member
    rcases mem_intercalate member with between | ⟨part, among, inside⟩
    · have same : c = ';' := by simpa using between
      rw [same]
      decide
    · simp only [List.mem_map] at among
      obtain ⟨_, ⟨effect, _, rfl⟩, rfl⟩ := among
      exact codes effect c inside
  exact .sequence _ each .nil

theorem Run.set_off (run : Run) (free : '\x1b' ∉ run.text.toList) :
    SetOff (run.render true) (run.render false) := by
  have bare : SetOff (filled run.width run.text.toList) (filled run.width run.text.toList) := by
    refine .plain _ fun member => ?_
    rcases List.mem_append.mp member with own | space
    · exact free own
    · exact absurd (List.eq_of_mem_replicate space) (by decide)
  unfold Run.render
  by_cases none : run.effects.isEmpty = true
  · simpa [none] using bare
  · have around := ((start_set_off run.effects).append bare).append reset_set_off
    simpa [none, restyled_plain _ _ free] using around

theorem runs_set_off (runs : List Run) (free : ∀ run ∈ runs, '\x1b' ∉ run.text.toList) :
    SetOff (runs.flatMap (Run.render true)) (runs.flatMap (Run.render false)) := by
  induction runs with
  | nil => exact .nil
  | cons run rest ih =>
      obtain ⟨own, others⟩ := List.forall_mem_cons.mp free
      exact (run.set_off own).append (ih others)

def Unescaped (text : String) : Prop :=
  '\x1b' ∉ text.toList

instance (text : String) : Decidable (Unescaped text) :=
  inferInstanceAs (Decidable ('\x1b' ∉ text.toList))

theorem unescaped_append {first second : String} (front : Unescaped first)
    (back : Unescaped second) : Unescaped (first ++ second) := by
  rw [Unescaped, String.toList_append, List.mem_append]
  exact not_or.mpr ⟨front, back⟩

theorem unescaped_number (n : Nat) : Unescaped (toString n) := by
  intro member
  have digit : Char.isDigit '\x1b' = true := by
    refine Nat.isDigit_of_mem_toDigits (b := 10) (n := n) (by decide) (by decide) ?_
    simpa using member
  revert digit
  decide

theorem unescaped_elided {text : String} (free : Unescaped text) : Unescaped (elided text) := by
  simp only [elided]
  split
  · exact free
  · refine unescaped_append (fun member => ?_) (by decide)
    rw [String.toList_ofList] at member
    exact free (List.mem_of_mem_take member)

/-- None of the runs starts a sequence by itself. -/
def Quiet (runs : List Run) : Prop :=
  ∀ run ∈ runs, Unescaped run.text

@[simp] theorem quiet_nil : Quiet [] := by
  simp [Quiet]

@[simp] theorem quiet_cons (run : Run) (rest : List Run) :
    Quiet (run :: rest) ↔ Unescaped run.text ∧ Quiet rest := by
  simp [Quiet]

@[simp] theorem quiet_append (first second : List Run) :
    Quiet (first ++ second) ↔ Quiet first ∧ Quiet second :=
  List.forall_mem_append

theorem quiet_flat {α : Type} {items : List α} {runs : α → List Run}
    (each : ∀ item ∈ items, Quiet (runs item)) : Quiet (items.flatMap runs) := by
  intro run member
  obtain ⟨item, among, inside⟩ := List.mem_flatMap.mp member
  exact each item among run inside

@[simp] theorem plain_text (text : String) : (plain text).text = text := rfl

@[simp] theorem unescaped_line_end : Unescaped lineEnd.text := by decide

theorem ExpressionEntry.quiet (e : ExpressionEntry) (free : ∀ text ∈ e.texts, Unescaped text) :
    Quiet (expressionRuns e) := by
  have shown := unescaped_elided (free e.text (by simp [texts]))
  have kind := free e.kind (by simp [texts])
  have margin : Unescaped "      " := by decide
  simp [expressionRuns, shown, kind, margin]

theorem DeclarationEntry.quiet (d : DeclarationEntry) (free : ∀ text ∈ d.texts, Unescaped text) :
    Quiet (declarationRuns d) := by
  have type := free d.type (by simp [texts])
  have margin : Unescaped "        " := by decide
  have name : Unescaped (" " ++ d.name) :=
    unescaped_append (by decide) (free d.name (by simp [texts]))
  simp [declarationRuns, type, margin, name]

theorem CallEntry.quiet (c : CallEntry) (free : ∀ text ∈ c.texts, Unescaped text) :
    Quiet (callRuns c) := by
  have scope : Quiet (scopeRuns c.scope) := by
    cases found : c.scope with
    | none => simp [scopeRuns]
    | some scope =>
        have shown := unescaped_elided (free scope (by simp [texts, found]))
        have dot : Unescaped "." := by decide
        simp [scopeRuns, shown, dot]
  have margin : Unescaped "        " := by decide
  have counted : Unescaped (c.name ++ "/" ++ toString c.arguments) :=
    unescaped_append (unescaped_append (free c.name (by simp [texts])) (by decide))
      (unescaped_number _)
  simp only [callRuns, quiet_append, quiet_cons, quiet_nil, plain_text]
  exact ⟨⟨⟨margin, trivial⟩, scope⟩, counted, unescaped_line_end, trivial⟩

theorem headed_quiet {heading : Run} {entries : List (List Run)} (own : Unescaped heading.text)
    (each : ∀ runs ∈ entries, Quiet runs) : Quiet (headed heading entries) := by
  unfold headed
  split
  · exact quiet_nil
  · have margin : Unescaped "      " := by decide
    have below : Quiet (entries.flatMap id) := quiet_flat each
    rw [List.flatMap_id] at below
    simp [own, margin, below]

theorem MethodReport.quiet (m : MethodReport) (free : ∀ text ∈ m.texts, Unescaped text) :
    Quiet (methodRuns m) := by
  simp only [texts, List.forall_mem_append, List.forall_mem_cons] at free
  obtain ⟨⟨⟨⟨_, signature, _⟩, expressions⟩, declarations⟩, calls⟩ := free
  have places : Unescaped (":" ++ toString m.line ++ "-" ++ toString m.endLine) :=
    unescaped_append (unescaped_append (unescaped_append (by decide) (unescaped_number _))
      (by decide)) (unescaped_number _)
  have values : Quiet (if m.expressions.isEmpty then
      [plain "      ", ⟨"(no statement expressions)", [.dimmed], 0⟩, lineEnd]
    else m.expressions.flatMap expressionRuns) := by
    split
    · unfold Quiet
      decide
    · refine quiet_flat fun e member => e.quiet fun text among => ?_
      exact expressions text (List.mem_flatMap.mpr ⟨e, member, among⟩)
  have declared :
      Quiet (headed ⟨"declares:", [.yellow], 0⟩ (m.declarations.map declarationRuns)) := by
    refine headed_quiet (by decide) (List.forall_mem_map.mpr fun d member => ?_)
    exact d.quiet fun text among => declarations text (List.mem_flatMap.mpr ⟨d, member, among⟩)
  have called : Quiet (headed ⟨"calls:", [.green], 0⟩ (m.calls.map callRuns)) := by
    refine headed_quiet (by decide) (List.forall_mem_map.mpr fun c member => ?_)
    exact c.quiet fun text among => calls text (List.mem_flatMap.mpr ⟨c, member, among⟩)
  have margin : Unescaped "    " := by decide
  simp only [methodRuns, quiet_append, quiet_cons, quiet_nil, and_true]
  exact ⟨⟨⟨⟨margin, signature, places, unescaped_line_end⟩, values⟩, declared⟩, called⟩

theorem FileReport.quiet (r : FileReport) (free : ∀ text ∈ r.texts, Unescaped text) :
    Quiet (fileRuns r) := by
  simp only [texts, List.forall_mem_append, List.forall_mem_cons] at free
  obtain ⟨⟨⟨⟨⟨path, _⟩, package⟩, named⟩, methods⟩, failure⟩ := free
  have shown (text : Option String) (other : String) (each : ∀ t ∈ text.toList, Unescaped t)
      (without : Unescaped other) : Unescaped (text.getD other) := by
    cases text with
    | none => exact without
    | some text => exact each text (by simp)
  have body : Quiet (bodyRuns r) := by
    unfold bodyRuns
    split
    case h_1 error failed =>
        have told : Unescaped (" " ++ error) :=
          unescaped_append (by decide) (failure error (by simp [failed]))
        have word : Unescaped "    " ∧ Unescaped "ERROR" := by decide
        simp [told, word]
    case h_2 =>
        have words : Unescaped "    " ∧ Unescaped "package: " ∧ Unescaped "class:   " := by decide
        have inside : Quiet (r.methods.flatMap fun method => lineEnd :: methodRuns method) := by
          refine quiet_flat fun m member => (quiet_cons _ _).mpr ⟨unescaped_line_end, ?_⟩
          exact m.quiet fun text among => methods text (List.mem_flatMap.mpr ⟨m, member, among⟩)
        simp [words, inside, shown r.package "(none)" package (by decide),
          shown r.publicClass "(no public class)" named (by decide)]
  have margin : Unescaped "  " := by decide
  simp [fileRuns, body, path, margin]

theorem report_quiet (reports : List FileReport)
    (free : ∀ report ∈ reports, ∀ text ∈ report.texts, Unescaped text) :
    Quiet (reportRuns reports) := by
  have files : Quiet (reports.flatMap fun report => fileRuns report ++ [lineEnd]) := by
    refine quiet_flat fun r member => (quiet_append _ _).mpr ⟨r.quiet (free r member), ?_⟩
    simp
  have counted : Unescaped ("Files: " ++ toString reports.length) :=
    unescaped_append (by decide) (unescaped_number _)
  have verdict : Unescaped (verdict reports).text := by
    unfold Report.verdict
    split
    · decide
    · exact unescaped_append (unescaped_number _) (by decide)
  have words : Unescaped "  " ∧ Unescaped toolName ∧ Unescaped (" v" ++ toolVersion) := by decide
  simp only [reportRuns, quiet_append, quiet_cons, quiet_nil, plain_text]
  exact ⟨⟨⟨unescaped_line_end, words.1, words.2.1, words.2.2, by decide⟩, files⟩,
    words.1, counted, words.1, verdict, by decide⟩

def expressionLine (e : ExpressionEntry) : String :=
  "      " ++ String.ofList (filled kindWidth e.kind.toList) ++ elided e.text ++ "\n"

theorem bare_render (run : Run) : run.render false = filled run.width run.text.toList := by
  simp [Run.render]

theorem filled_none (chars : List Char) : filled 0 chars = chars := by
  simp [filled]

theorem expression_line (e : ExpressionEntry) :
    (expressionRuns e).flatMap (Run.render false) = (expressionLine e).toList := by
  simp only [expressionRuns, lineEnd, plain, List.flatMap_cons, List.flatMap_nil, bare_render,
    filled_none, expressionLine, String.toList_append, String.toList_ofList, List.append_assoc,
    List.append_nil]

theorem among_flat {α β : Type} {items : List α} {item : α} (runs : α → List β)
    (member : item ∈ items) : runs item <:+: items.flatMap runs := by
  obtain ⟨before, behind, rfl⟩ := List.append_of_mem member
  exact ⟨before.flatMap runs, behind.flatMap runs, by simp⟩

theorem expression_among {reports : List FileReport} {report : FileReport} {method : MethodReport}
    {e : ExpressionEntry} (told : report ∈ reports) (sound : report.error = none)
    (inside : method ∈ report.methods) (shown : e ∈ method.expressions) :
    expressionRuns e <:+: reportRuns reports := by
  have own : expressionRuns e <:+: methodRuns method := by
    have filled : method.expressions.isEmpty = false :=
      List.isEmpty_eq_false_iff.mpr (List.ne_nil_of_mem shown)
    refine (among_flat expressionRuns shown).trans ?_
    rw [methodRuns, filled, List.append_assoc]
    exact List.infix_append _ _ _
  have below : methodRuns method <:+: fileRuns report := by
    have body := among_flat (fun method => lineEnd :: methodRuns method) inside
    have start : methodRuns method <:+: lineEnd :: methodRuns method :=
      List.infix_cons List.infix_rfl
    refine (start.trans body).trans ?_
    rw [fileRuns, bodyRuns, sound]
    exact ((List.suffix_append _ _).trans (List.suffix_append _ _)).isInfix
  have among : fileRuns report <:+: reportRuns reports := by
    have all := among_flat (fun report => fileRuns report ++ [lineEnd]) told
    refine ((List.prefix_append _ _).isInfix.trans all).trans ?_
    exact List.infix_append _ _ _
  exact own.trans (below.trans among)

/-- Colours change nothing but the sequences they put in: erasing these from coloured reports
gives the reports without colours, line by line, and each expression has the line it has without
colours. -/
theorem colours_erased (reports : List FileReport)
    (free : ∀ report ∈ reports, ∀ text ∈ report.texts, Unescaped text) :
    erased (prettyText true reports).toList = (prettyText false reports).toList ∧
      (pieces '\n' (prettyText true reports).toList).map erased =
        pieces '\n' (prettyText false reports).toList ∧
      ∀ report ∈ reports, report.error = none → ∀ method ∈ report.methods,
        ∀ e ∈ method.expressions, ∃ front line back,
          (prettyText true reports).toList = front ++ line ++ back ∧
          (prettyText false reports).toList = erased front ++ erased line ++ erased back ∧
          erased line = (expressionLine e).toList := by
  have quiet := report_quiet reports free
  -- The runs are the same with and without colours; a run is filled up before it is set off.
  have all := runs_set_off _ quiet
  simp only [prettyText, renderRuns, String.toList_ofList]
  refine ⟨all.erases, ?_, ?_⟩
  · have each := all.lines.imp fun _ _ => SetOff.erases
    rwa [← List.forall₂_map_left_iff, List.forall₂_eq_eq_eq] at each
  · intro report told sound method inside e shown
    obtain ⟨before, behind, whole⟩ := expression_among told sound inside shown
    rw [← whole] at quiet ⊢
    simp only [quiet_append] at quiet
    obtain ⟨⟨first, own⟩, last⟩ := quiet
    simp only [List.flatMap_append]
    refine ⟨_, _, _, rfl, ?_, ?_⟩
    · rw [(runs_set_off _ first).erases, (runs_set_off _ own).erases, (runs_set_off _ last).erases]
    · rw [(runs_set_off _ own).erases, expression_line]

def greeterReports : List FileReport :=
  [{ path := "Greeter.java"
     publicClass := some "Greeter"
     methods := [{
       name := "greet", signature := "greet(String name)", line := 3, endLine := 9
       expressions := [⟨"method_call", 4, 6, "out.println(first + second + third + fourth + " ++
         "fifth + sixth + seventh + eighth + ninth)"⟩, ⟨"assignment", 7, 7, "name = \"\""⟩]
       declarations := [⟨"count", "int", 8, some "0"⟩]
       calls := [⟨some "out", "println", 1, 4⟩] }] },
    { path := "Broken.java", error := some "syntax error" }]

theorem colours_erased_greeter :
    (∀ report ∈ greeterReports, ∀ text ∈ report.texts, Unescaped text) ∧
      erased (prettyText true greeterReports).toList = (prettyText false greeterReports).toList := by
  have free : ∀ report ∈ greeterReports, ∀ text ∈ report.texts, Unescaped text := by decide
  exact ⟨free, (colours_erased greeterReports free).1⟩

end JavaOutline.Report
