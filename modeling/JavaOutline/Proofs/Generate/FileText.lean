import JavaOutline.Proofs.Generate.SourceText

/-!
The text of a generated file. It is plain code, and its marks are those of its package and of its
class with the methods in order.
-/
namespace JavaOutline.Generate

open JavaOutline.Grammar
open JavaOutline.Lower
open JavaOutline.Tree

def modifiersText : List Modifier → List Char → List Char
  | [], rest => rest
  | m :: ms, rest => m.keyword.toList ++ ' ' :: modifiersText ms rest

def parametersText : List ParameterSpec → List Char → List Char
  | [], rest => rest
  | [p], rest => p.type.toList ++ ' ' :: (p.name.toList ++ rest)
  | p :: ps, rest =>
    p.type.toList ++ ' ' :: (p.name.toList ++ ',' :: ' ' :: parametersText ps rest)

def methodText (spec : MethodSpec) (rest : List Char) : List Char :=
  ' ' :: ' ' :: modifiersText spec.modifiers (spec.returnType.toList ++ ' ' ::
    (spec.name.toList ++ '(' :: parametersText spec.parameters
      (')' :: ' ' :: '\x7b' :: '\n' :: ' ' :: ' ' :: '\x7d' :: '\n' :: rest)))

def methodsText : List MethodSpec → List Char → List Char
  | [], rest => rest
  | [spec], rest => methodText spec rest
  | spec :: specs, rest => methodText spec ('\n' :: methodsText specs rest)

def packageText (package : String) (rest : List Char) : List Char :=
  if package.isEmpty then rest
  else "package".toList ++ ' ' :: (package.toList ++ ';' :: '\n' :: '\n' :: rest)

def classText (name : String) (specs : List MethodSpec) : List Char :=
  "public".toList ++ ' ' :: ("class".toList ++ ' ' :: (name.toList ++ ' ' :: '\x7b' :: '\n' ::
    methodsText specs ['\x7d', '\n']))

/-- A method whose body has no lines. -/
def MethodSpec.Bare (spec : MethodSpec) : Prop :=
  spec.body.flatMap CodeLine.lines = []

def linesText (lines : List String) : List Char :=
  lines.flatMap fun line => line.toList ++ ['\n']

theorem modifiers_text (ms : List Modifier) (rest : List Char) :
    (String.join (ms.map fun m => m.keyword ++ " ")).toList ++ rest = modifiersText ms rest := by
  induction ms with
  | nil => rfl
  | cons m ms ih =>
      rw [List.map_cons, String.join_cons, modifiersText, ← ih]
      simp

theorem parameters_text (ps : List ParameterSpec) (rest : List Char) :
    (", ".intercalate (ps.map fun p => p.type ++ " " ++ p.name)).toList ++ rest =
      parametersText ps rest := by
  rw [String.toList_intercalate, List.map_map]
  induction ps with
  | nil => rfl
  | cons p ps ih =>
      cases ps with
      | nil => simp [parametersText]
      | cons q ps =>
          rw [parametersText, ← ih, List.map_cons, List.map_cons, List.intercalate_cons_cons]
          simp
          exact fun none' => nomatch none'

theorem method_text (spec : MethodSpec) (bare : spec.Bare) (rest : List Char) :
    linesText spec.lines ++ rest = methodText spec rest := by
  have body : spec.body.flatMap CodeLine.lines = [] := bare
  have indented : (indent 1).toList = [' ', ' '] := rfl
  rw [MethodSpec.lines, body, MethodSpec.heading, methodText, ← parameters_text, ← modifiers_text]
  simp [linesText, indented]

theorem methods_text (specs : List MethodSpec) (bare : ∀ spec ∈ specs, spec.Bare)
    (rest : List Char) :
    linesText (ClassFile.methodLines specs) ++ rest = methodsText specs rest := by
  induction specs with
  | nil => rfl
  | cons spec specs ih =>
      obtain ⟨own, others⟩ := List.forall_mem_cons.mp bare
      cases specs with
      | nil => exact method_text spec own rest
      | cons second specs =>
          rw [methodsText, ← ih others, ← method_text spec own, ClassFile.methodLines]
          · simp [linesText]
          all_goals exact fun none' => nomatch none'

theorem class_text (name : String) (specs : List MethodSpec) (bare : ∀ spec ∈ specs, spec.Bare) :
    linesText (["public class " ++ name ++ " \x7b"] ++ ClassFile.methodLines specs ++ ["\x7d"]) =
      classText name specs := by
  have methods := methods_text specs bare ['\x7d', '\n']
  unfold classText
  rw [← methods]
  simp [linesText]

theorem render_lines (file : ClassFile) : file.render.toList = linesText file.lines := by
  rw [ClassFile.render, String.toList_join, List.flatMap_map]
  simp [linesText]

theorem file_text (file : ClassFile) (bare : ∀ spec ∈ file.methods, spec.Bare) :
    file.render.toList = packageText file.package (classText file.className file.methods) := by
  rw [← class_text _ _ bare, render_lines]
  unfold ClassFile.lines packageText
  by_cases unnamed : file.package.isEmpty = true
  · rw [if_pos unnamed, if_pos unnamed, List.nil_append]
  · rw [if_neg unnamed, if_neg unnamed]
    simp [linesText]

end JavaOutline.Generate
