import JavaOutline.Generate.ClassFile
import JavaOutline.Proofs.Files.Paths
import JavaOutline.Proofs.Generate.Marks

/-!
Names that are accepted for generated files. They are made of a few characters, none of which means
anything in a path, so the package and the class can be told from the path of the file.
-/
namespace JavaOutline.Generate

open JavaOutline.Files

theorem identifier_shape {word : String} (named : isIdentifier word = true) :
    ∃ c rest, word.toList = c :: rest ∧ isNameStart c = true ∧
      (∀ part ∈ rest, isNamePart part = true) ∧ isReserved word = false := by
  unfold isIdentifier at named
  cases chars : word.toList with
  | nil => simp [chars] at named
  | cons c rest =>
      simp only [chars, Bool.and_eq_true, List.all_eq_true, Bool.not_eq_true'] at named
      exact ⟨c, rest, rfl, named.1.1, named.1.2, named.2⟩

theorem identifier_chars {word : String} (named : isIdentifier word = true) :
    ∀ c ∈ word.toList, isNamePart c = true := by
  obtain ⟨first, rest, chars, start, parts, _⟩ := identifier_shape named
  rw [chars]
  exact List.forall_mem_cons.mpr ⟨name_part_of_start start, parts⟩

theorem identifier_free {word : String} (named : isIdentifier word = true) (c : Char)
    (other : isNamePart c = false) : c ∉ word.toList := by
  intro member
  rw [identifier_chars named c member] at other
  cases other

theorem identifier_filled {word : String} (named : isIdentifier word = true) : word.toList ≠ [] := by
  obtain ⟨c, rest, chars, _⟩ := identifier_shape named
  rw [chars]
  exact List.cons_ne_nil c rest

theorem identifier_plain {word : String} (named : isIdentifier word = true) (suffix : String)
    (free : '/' ∉ suffix.toList) : Plain (word ++ suffix) := by
  obtain ⟨c, rest, chars, start, _⟩ := identifier_shape named
  have begins : (word ++ suffix).toList = c :: (rest ++ suffix.toList) := by simp [chars]
  have dotless : c ≠ '.' := by
    rintro rfl
    cases start
  constructor
  · intro same
    simp [same] at begins
  · intro same
    simp only [same] at begins
    exact dotless (List.cons.inj begins).1.symm
  · intro same
    simp only [same] at begins
    exact dotless (List.cons.inj begins).1.symm
  · have own : '/' ∉ word.toList := identifier_free named '/' rfl
    simp [own, free]

/-- The folders a package stands for. -/
def packageFolders (package : String) : List String :=
  ((Text.pieces '.' package.toList).map String.ofList).filter (· != "")

theorem folders_named {package : String} (accepted : isPackageName package = true) :
    ∀ name ∈ packageFolders package, isIdentifier name = true := by
  intro name member
  obtain ⟨among, filled⟩ := List.mem_filter.mp member
  obtain ⟨part, place, rfl⟩ := List.mem_map.mp among
  unfold isPackageName at accepted
  rcases Bool.or_eq_true _ _ ▸ accepted with unnamed | parts
  · rw [String.isEmpty_iff] at unnamed
    subst unnamed
    simp only [String.toList_empty, Text.pieces, List.mem_singleton] at place
    subst place
    simp at filled
  · exact List.all_eq_true.mp parts part place

theorem intercalate_folders {package : String} (accepted : isPackageName package = true) :
    ".".intercalate (packageFolders package) = package := by
  unfold isPackageName at accepted
  rcases Bool.or_eq_true _ _ ▸ accepted with unnamed | parts
  · rw [String.isEmpty_iff] at unnamed
    subst unnamed
    rfl
  · have all : packageFolders package = (Text.pieces '.' package.toList).map String.ofList := by
      apply List.filter_eq_self.mpr
      intro name member
      obtain ⟨part, place, rfl⟩ := List.mem_map.mp member
      have filled := identifier_filled (List.all_eq_true.mp parts part place)
      simpa using filled
    rw [all, ← String.toList_inj, String.toList_intercalate, List.map_map]
    simpa [Function.comp_def] using Text.intercalate_pieces '.' package.toList

namespace ClassFile

theorem create_ok {package className : String} {file : ClassFile}
    (accepted : create package className = .ok file) :
    isPackageName package = true ∧ isIdentifier className = true ∧
      file = { package, className } := by
  unfold create checkName accepts at accepted
  dsimp only at accepted
  by_cases packaged : isPackageName package = true
  · by_cases named : isIdentifier className = true
    · rw [if_pos packaged, if_pos named] at accepted
      cases accepted
      exact ⟨packaged, named, rfl⟩
    · rw [if_pos packaged, if_neg named] at accepted
      cases accepted
  · rw [if_neg packaged] at accepted
    cases accepted

variable {file : ClassFile} (packaged : isPackageName file.package = true)
  (named : isIdentifier file.className = true)

include packaged named

theorem path_names_plain : ∀ name ∈ file.pathNames, Plain name := by
  intro name member
  rcases List.mem_append.mp member with folder | own
  · have telling := folders_named packaged name folder
    simpa using identifier_plain telling "" (by simp)
  · rw [List.mem_singleton.mp own]
    exact identifier_plain named ".java" (by decide)

theorem relative_pieces : pieces file.relativePath = file.pathNames := by
  have free : ∀ name ∈ file.pathNames.map String.toList, '/' ∉ name := by
    intro chars member
    obtain ⟨name, place, rfl⟩ := List.mem_map.mp member
    exact (path_names_plain packaged named name place).slashless
  have filled : file.pathNames.map String.toList ≠ [] := by simp [pathNames]
  have whole := Text.pieces_intercalate '/' _ filled free
  rw [pieces, relativePath, String.toList_intercalate]
  rw [show "/".toList = ['/'] from rfl, whole, List.map_map]
  simp [Function.comp_def]

theorem relative_head : file.relativePath.toList.head? ≠ some '/' := by
  intro slash
  obtain ⟨rest, chars⟩ := List.head?_eq_some_iff.mp slash
  -- A slash in front would make the first piece empty.
  have first : "" ∈ pieces file.relativePath := by simp [pieces, chars, Text.pieces]
  rw [relative_pieces packaged named] at first
  exact (path_names_plain packaged named "" first).filled rfl

/-- Accepted names are told by the path of their file. -/
theorem names_of_path {other : ClassFile} (also : isPackageName other.package = true)
    (likewise : isIdentifier other.className = true)
    (same : file.relativePath = other.relativePath) :
    file.package = other.package ∧ file.className = other.className := by
  have rows : file.pathNames = other.pathNames := by
    rw [← relative_pieces packaged named, ← relative_pieces also likewise, same]
  obtain ⟨folders, last⟩ := List.append_inj' rows rfl
  constructor
  · rw [← intercalate_folders packaged, ← intercalate_folders also]
    exact congrArg _ folders
  · have ends := congrArg String.toList (List.cons.inj last).1
    rw [String.toList_append, String.toList_append, List.append_left_inj] at ends
    exact String.toList_inj.mp ends

end ClassFile

end JavaOutline.Generate
