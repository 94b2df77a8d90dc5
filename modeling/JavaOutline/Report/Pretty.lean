import JavaOutline.Report.Basic
import JavaOutline.Report.Styled

/-!
Reports for people: a heading, each source with its methods, and a last line that counts them. The
lines are those of `write_pretty`.
-/
namespace JavaOutline.Report

def shownWidth : Nat := 72

def kindWidth : Nat := 20

/-- A text cut off where it is longer than what is shown, with dots instead of the rest. -/
def elided (text : String) : String :=
  let chars := text.toList
  if chars.length ≤ shownWidth then text
  else String.ofList (chars.take (shownWidth - 3)) ++ "..."

def plain (text : String) : Run where
  text := text

def lineEnd : Run := plain "\n"

def expressionRuns (e : ExpressionEntry) : List Run :=
  [plain "      ", ⟨e.kind, [.dimmed], kindWidth⟩, plain (elided e.text), lineEnd]

def declarationRuns (d : DeclarationEntry) : List Run :=
  [plain "        ", ⟨d.type, [.dimmed], 0⟩, plain (" " ++ d.name), lineEnd]

def scopeRuns : Option String → List Run
  | some scope => [⟨elided scope, [.dimmed], 0⟩, ⟨".", [.dimmed], 0⟩]
  | none => []

def callRuns (c : CallEntry) : List Run :=
  [plain "        "] ++ scopeRuns c.scope ++
    [plain (c.name ++ "/" ++ toString c.arguments), lineEnd]

def headed (heading : Run) (entries : List (List Run)) : List Run :=
  if entries.isEmpty then [] else [plain "      ", heading, lineEnd] ++ entries.flatten

def methodRuns (m : MethodReport) : List Run :=
  [plain "    ", ⟨m.signature, [.bold], 0⟩,
    ⟨":" ++ toString m.line ++ "-" ++ toString m.endLine, [.dimmed], 0⟩, lineEnd] ++
    (if m.expressions.isEmpty then
      [plain "      ", ⟨"(no statement expressions)", [.dimmed], 0⟩, lineEnd]
    else m.expressions.flatMap expressionRuns) ++
    headed ⟨"declares:", [.yellow], 0⟩ (m.declarations.map declarationRuns) ++
    headed ⟨"calls:", [.green], 0⟩ (m.calls.map callRuns)

def bodyRuns (r : FileReport) : List Run :=
  match r.error with
  | some error => [plain "    ", ⟨"ERROR", [.red], 0⟩, plain (" " ++ error), lineEnd]
  | none =>
    [plain "    ", ⟨"package: ", [.dimmed], 0⟩, plain (r.package.getD "(none)"), lineEnd,
      plain "    ", ⟨"class:   ", [.dimmed], 0⟩,
      plain (r.publicClass.getD "(no public class)"), lineEnd] ++
      r.methods.flatMap fun method => lineEnd :: methodRuns method

def fileRuns (r : FileReport) : List Run :=
  [plain "  ", ⟨r.path, [.bold, .blue], 0⟩, lineEnd] ++ bodyRuns r

/-- The last line: how many failed, or that none did. -/
def verdict (reports : List FileReport) : Run :=
  match failedCount reports with
  | 0 => ⟨"all parsed", [.green], 0⟩
  | failures + 1 => ⟨toString (failures + 1) ++ " failed", [.red], 0⟩

def reportRuns (reports : List FileReport) : List Run :=
  [lineEnd, plain "  ", ⟨toolName, [.bold, .cyan], 0⟩, plain (" v" ++ toolVersion), lineEnd,
    lineEnd] ++
    (reports.flatMap fun report => fileRuns report ++ [lineEnd]) ++
    [plain "  ", ⟨"Files: " ++ toString reports.length, [.dimmed], 0⟩, plain "  ",
      verdict reports, lineEnd, lineEnd]

def prettyText (colour : Bool) (reports : List FileReport) : String :=
  renderRuns colour (reportRuns reports)

end JavaOutline.Report
