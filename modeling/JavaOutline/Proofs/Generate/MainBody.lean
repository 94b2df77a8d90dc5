import JavaOutline.Proofs.Generate.FileText
import JavaOutline.Proofs.Generate.Written

/-!
The body of a generated main method. One statement goes into the body as it is and several go in as
joined lines of code; either way each has one line of its own, with one semicolon at its end.
-/
namespace JavaOutline.Text

theorem trimmed_end_kept {isDropped : Char → Bool} {c : Char} (kept : isDropped c = false)
    (front : List Char) : trimmedEnd isDropped (front ++ [c]) = front ++ [c] := by
  simp [trimmedEnd, kept]

theorem trimmed_end_split (isDropped : Char → Bool) (chars : List Char) :
    ∃ back, chars = trimmedEnd isDropped chars ++ back ∧ ∀ c ∈ back, isDropped c = true := by
  refine ⟨(chars.reverse.takeWhile isDropped).reverse, ?_, fun c member => ?_⟩
  · rw [trimmedEnd, ← List.reverse_append, List.takeWhile_append_dropWhile, List.reverse_reverse]
  · have all := List.all_takeWhile (l := chars.reverse) (p := isDropped)
    exact List.all_eq_true.mp all c (List.mem_reverse.mp member)

theorem trimmed_end_last {isDropped : Char → Bool} {chars : List Char} {c : Char}
    (last : (trimmedEnd isDropped chars).getLast? = some c) : isDropped c = false := by
  have first := List.head?_dropWhile_not isDropped chars.reverse
  rw [trimmedEnd, List.getLast?_reverse] at last
  rwa [last] at first

theorem intercalate_ends (separator : List Char) (before : List (List Char)) (last : List Char) :
    ∃ front, separator.intercalate (before ++ [last]) = front ++ last := by
  induction before with
  | nil => exact ⟨[], by simp⟩
  | cons part before ih =>
      obtain ⟨front, ends⟩ := ih
      obtain ⟨next, others, shape⟩ :=
        List.exists_cons_of_ne_nil
          (List.append_ne_nil_of_right_ne_nil before (List.cons_ne_nil last []))
      rw [List.cons_append, shape, List.intercalate_cons_cons, ← shape, ends]
      exact ⟨part ++ separator ++ front, by simp⟩

/-- Lines that are joined by line feeds are read back, unless one ends with a carriage return or
the last one is empty. -/
theorem lines_intercalate {parts : List (List Char)} (filled : ∀ part ∈ parts, part ≠ [])
    (unbroken : ∀ part ∈ parts, '\n' ∉ part) (ends : ∀ part ∈ parts, part.getLast? ≠ some '\r') :
    lines (['\n'].intercalate parts) = parts := by
  by_cases none : parts = []
  · subst none
    rfl
  · have kept : parts.dropLast.map withoutReturn = parts.dropLast := by
      refine (List.map_congr_left fun part member => ?_).trans (List.map_id _)
      rw [withoutReturn, if_neg (ends part (List.dropLast_subset _ member)), id]
    have own := filled _ (List.getLast_mem none)
    have whole := List.dropLast_append_getLast none
    rw [lines, pieces_intercalate '\n' parts none unbroken]
    simp only [kept, List.getLast?_eq_some_getLast none]
    exact whole

end JavaOutline.Text

namespace JavaOutline.Generate

open JavaOutline.Command

/-- The second text is the first one without the blanks around it and then without the semicolons at
its end. -/
structure Bared (text bare : List Char) : Prop where
  split : ∃ front semicolons back, text = front ++ (bare ++ semicolons) ++ back ∧
    (∀ c ∈ front, Text.isBlank c = true) ∧ (∀ c ∈ semicolons, c = ';') ∧
    (∀ c ∈ back, Text.isBlank c = true) ∧
    (∀ c, (bare ++ semicolons).head? = some c → Text.isBlank c = false) ∧
    ∀ c, (bare ++ semicolons).getLast? = some c → Text.isBlank c = false
  ends : bare.getLast? ≠ some ';'

theorem bare_statement_bared (text : String) :
    Bared text.toList (bareStatement text).toList := by
  obtain ⟨core, same⟩ : ∃ core, core = Text.trimmed text.toList := ⟨_, rfl⟩
  obtain ⟨back, shape, blank⟩ :=
    Text.trimmed_end_split Text.isBlank (text.toList.dropWhile Text.isBlank)
  change _ = Text.trimmed text.toList ++ back at shape
  obtain ⟨semicolons, cut, all⟩ := Text.trimmed_end_split (· == ';') core
  have whole := List.takeWhile_append_dropWhile (p := Text.isBlank) (l := text.toList)
  have start := List.all_takeWhile (l := text.toList) (p := Text.isBlank)
  rw [bareStatement, String.toList_ofList, ← same]
  rw [← same] at shape
  constructor
  · refine ⟨text.toList.takeWhile Text.isBlank, semicolons, back, ?_, List.all_eq_true.mp start,
      by simpa using all, blank, fun c first => ?_, fun c last => ?_⟩
    · rw [← cut, List.append_assoc, ← shape, whole]
    · rw [← cut] at first
      have behind := List.head?_dropWhile_not Text.isBlank text.toList
      rw [shape, List.head?_append, first] at behind
      exact behind
    · rw [← cut, same] at last
      exact Text.trimmed_end_last last
  · intro last
    exact absurd (Text.trimmed_end_last last) (by decide)

def statementLine (text : String) : String :=
  "    " ++ bareStatement text ++ ";"

/-- Statements that are joined into code have the lines they have on their own. -/
theorem joined_lines (statements : List String)
    (unbroken : ∀ s ∈ statements, '\n' ∉ (bareStatement s).toList) :
    (CodeLine.code ("\n".intercalate (statements.map fun s => bareStatement s ++ ";"))).lines =
      statements.map statementLine := by
  obtain ⟨parts, shape⟩ :
      ∃ parts, parts = statements.map fun s => (bareStatement s).toList ++ [';'] :=
    ⟨_, rfl⟩
  have code : ("\n".intercalate (statements.map fun s => bareStatement s ++ ";")).toList =
      ['\n'].intercalate parts := by
    simp [shape, Function.comp_def]
  have lines : Text.lines (['\n'].intercalate parts) = parts := by
    subst shape
    exact Text.lines_intercalate (by simp) (by simpa using unbroken) (by simp)
  -- The code ends with a semicolon, so no blanks are dropped from its end.
  have kept :
      Text.trimmedEnd Text.isBlank (['\n'].intercalate parts) = ['\n'].intercalate parts := by
    rcases List.eq_nil_or_concat statements with rfl | ⟨before, last, rfl⟩
    · subst shape
      rfl
    · rw [List.concat_eq_append, List.map_append, List.map_singleton] at shape
      obtain ⟨front, ends⟩ := Text.intercalate_ends ['\n'] _ ((bareStatement last).toList ++ [';'])
      rw [← shape, ← List.append_assoc] at ends
      rw [ends]
      exact Text.trimmed_end_kept (by decide) _
  rw [CodeLine.lines, code, kept, lines, shape, List.map_map]
  refine List.map_congr_left fun s _ => ?_
  have shown : ((bareStatement s).toList ++ [';']).all Text.isBlank = false := by
    have solid : Text.isBlank ';' = false := by decide
    simp [solid]
  have indented : indent 2 = "    " := by decide
  rw [Function.comp_apply, shown, indented, ← String.toList_inj]
  simp [statementLine]

theorem body_lines (request : ScaffoldRequest)
    (unbroken : ∀ s ∈ request.statements, '\n' ∉ (bareStatement s).toList) :
    request.body.lines = request.statements.map statementLine := by
  unfold ScaffoldRequest.body
  split
  case h_1 statement single =>
      have indented : indent 2 = "    " := by decide
      rw [single, CodeLine.ofStatement, CodeLine.lines, indented]
      rfl
  case h_2 => exact joined_lines request.statements unbroken

theorem pieces_lines_text (lines : List String) (unbroken : ∀ line ∈ lines, '\n' ∉ line.toList) :
    Text.pieces '\n' (linesText lines) = lines.map String.toList ++ [[]] := by
  induction lines with
  | nil => rfl
  | cons line rest ih =>
      obtain ⟨own, others⟩ := List.forall_mem_cons.mp unbroken
      have cut : linesText (line :: rest) = line.toList ++ '\n' :: linesText rest := by
        simp [linesText]
      rw [cut, Text.pieces_append, Text.pieces_whole _ _ own, ih others]
      rfl

theorem package_unbroken {package : String} (accepted : isPackageName package = true) :
    '\n' ∉ package.toList := by
  rw [← intercalate_folders accepted, String.toList_intercalate]
  intro member
  rcases Text.mem_intercalate member with between | ⟨part, among, inside⟩
  · revert between
    decide
  · obtain ⟨name, folder, rfl⟩ := List.mem_map.mp among
    exact identifier_free (folders_named accepted name folder) '\n' rfl inside

def openingLines (request : ScaffoldRequest) : List String :=
  (if request.package.isEmpty then [] else ["package " ++ request.package ++ ";", ""]) ++
    ["public class " ++ request.className ++ " \x7b",
      "  public static void main(String[] args) \x7b"]

def closingLines : List String :=
  ["  \x7d", "\x7d"]

theorem opening_unbroken {request : ScaffoldRequest}
    (packaged : isPackageName request.package = true)
    (named : isIdentifier request.className = true) :
    ∀ line ∈ openingLines request, '\n' ∉ line.toList := by
  have package := package_unbroken packaged
  have name := identifier_free named '\n' rfl
  unfold openingLines
  split
  · simp [name]
  · simp [name, package]

theorem class_file_lines {request : ScaffoldRequest} {file : ClassFile}
    (accepted : request.classFile = .ok file)
    (unbroken : ∀ s ∈ request.statements, '\n' ∉ (bareStatement s).toList) :
    file.lines = openingLines request ++ request.statements.map statementLine ++ closingLines := by
  have heading : (MethodSpec.main [request.body]).heading =
      "  public static void main(String[] args) \x7b" := rfl
  unfold ScaffoldRequest.classFile at accepted
  cases created : ClassFile.create request.package request.className with
  | error error => simp [created, Except.map] at accepted
  | ok bare =>
      obtain ⟨_, _, rfl⟩ := ClassFile.create_ok created
      simp only [created, Except.map, Except.ok.injEq] at accepted
      subst accepted
      have main : (MethodSpec.main [request.body]).lines =
          "  public static void main(String[] args) \x7b" ::
            (request.statements.map statementLine ++ ["  \x7d"]) := by
        rw [MethodSpec.lines, heading]
        simp [MethodSpec.main, body_lines request unbroken]
        decide
      simp [ClassFile.lines, ClassFile.withMethods, ClassFile.methodLines, main, openingLines,
        closingLines]

/-- Between the lines that open a class with a main method and those that close it each statement
has one line, in order and however many there are. That line is the bare statement behind four
spaces with one semicolon: its own ones at the end are gone. -/
theorem main_body_lines (request : ScaffoldRequest) (file : ClassFile)
    (accepted : request.classFile = .ok file)
    (unbroken : ∀ s ∈ request.statements, '\n' ∉ (bareStatement s).toList) :
    Text.pieces '\n' file.render.toList =
        (openingLines request ++
          request.statements.map (fun s => "    " ++ bareStatement s ++ ";") ++
          closingLines).map String.toList ++ [[]] ∧
      ∀ s ∈ request.statements, Bared s.toList (bareStatement s).toList := by
  obtain ⟨samePackage, sameName, packaged, named⟩ := class_file_ok accepted
  rw [samePackage] at packaged
  rw [sameName] at named
  have opening := opening_unbroken packaged named
  have statements : ∀ line ∈ request.statements.map statementLine, '\n' ∉ line.toList := by
    intro line member
    obtain ⟨s, among, rfl⟩ := List.mem_map.mp member
    simp [statementLine, unbroken s among]
  have closing : ∀ line ∈ closingLines, '\n' ∉ line.toList := by decide
  constructor
  · rw [render_lines, class_file_lines accepted unbroken]
    refine pieces_lines_text _ ?_
    exact List.forall_mem_append.mpr ⟨List.forall_mem_append.mpr ⟨opening, statements⟩, closing⟩
  · exact fun s _ => bare_statement_bared s

def assortedRequest : ScaffoldRequest :=
  { package := "demo", className := "Main", statements := ["a\r();;", "\u2003 ;;", "b ; ", ""] }

def assortedFile : ClassFile :=
  { package := "demo", className := "Main", methods := [.main [.code "a\r();\n;\nb ;\n;"]] }

theorem assorted_body_lines :
    assortedRequest.classFile = .ok assortedFile ∧
      (∀ s ∈ assortedRequest.statements, '\n' ∉ (bareStatement s).toList) ∧
      Text.pieces '\n' assortedFile.render.toList =
        ["package demo;", "", "public class Main \x7b",
          "  public static void main(String[] args) \x7b", "    a\r();", "    ;", "    b ;", "    ;",
          "  \x7d", "\x7d", ""].map String.toList := by
  have accepted : assortedRequest.classFile = .ok assortedFile := by decide +kernel
  have unbroken : ∀ s ∈ assortedRequest.statements, '\n' ∉ (bareStatement s).toList := by
    decide +kernel
  have lines := (main_body_lines assortedRequest assortedFile accepted unbroken).1
  refine ⟨accepted, unbroken, lines.trans ?_⟩
  decide +kernel

end JavaOutline.Generate
