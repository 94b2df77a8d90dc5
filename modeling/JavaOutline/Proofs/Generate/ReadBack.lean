import JavaOutline.Command.Outcome
import JavaOutline.Proofs.Attempts
import JavaOutline.Proofs.Generate.FileMarks
import JavaOutline.Proofs.Outline.Members

/-!
Generated files are read back. A class with methods that are accepted, whose types are types, is read
as that class with those methods and nothing else, and where it is to stand agrees with its names.
-/
namespace JavaOutline.Generate

open JavaOutline.Command
open JavaOutline.Grammar
open JavaOutline.Lower

theorem check_name_ok {role : NameRole} {name : String} (passed : checkName role name = .ok ()) :
    accepts role name = true := by
  unfold checkName at passed
  split at passed
  · assumption
  · cases passed

def checkParameter (p : ParameterSpec) : Except Error Unit := do
  checkName .typeName p.type
  checkName .parameterName p.name

theorem parameters_ok {ps : List ParameterSpec} (passed : ps.forM checkParameter = .ok ()) :
    ∀ p ∈ ps, isTypeName p.type = true ∧ isIdentifier p.name = true := by
  induction ps with
  | nil => exact List.forall_mem_nil _
  | cons p ps ih =>
      have split : (checkParameter p >>= fun _ => ps.forM checkParameter) = .ok () := passed
      obtain ⟨_, own, later⟩ := bind_ok split
      obtain ⟨_, type, name⟩ := bind_ok own
      exact List.forall_mem_cons.mpr ⟨⟨check_name_ok type, check_name_ok name⟩, ih later⟩

theorem checked_ok {spec built : MethodSpec} (passed : spec.checked = .ok built) :
    built = spec ∧ isIdentifier spec.name = true ∧ isTypeName spec.returnType = true ∧
      ∀ p ∈ spec.parameters, isTypeName p.type = true ∧ isIdentifier p.name = true := by
  obtain ⟨_, named, later⟩ := bind_ok passed
  obtain ⟨_, returns, further⟩ := bind_ok later
  obtain ⟨_, parameters, last⟩ := bind_ok further
  cases last
  exact ⟨rfl, check_name_ok named, check_name_ok returns, parameters_ok parameters⟩

/-- The types of a method are types, and none starts with a word that means something else there. A
method may be accepted without that. -/
structure Typed (spec : MethodSpec) : Prop where
  returns : IsType spec.returnType ∧ leadingWord spec.returnType ∉ contextualWords
  parameters : ∀ p ∈ spec.parameters, IsType p.type ∧ leadingWord p.type ≠ "sealed"

theorem Typed.sound {spec built : MethodSpec} (typed : Typed spec)
    (passed : spec.checked = .ok built) : SoundMethod spec := by
  obtain ⟨_, named, returns, parameters⟩ := checked_ok passed
  refine ⟨named, ⟨returns, typed.returns.1, typed.returns.2⟩, fun p member => ?_⟩
  obtain ⟨accepted, own⟩ := parameters p member
  obtain ⟨isType, plain⟩ := typed.parameters p member
  exact ⟨own, accepted, isType, by simpa using plain⟩

/-- A file with accepted names and methods is read under every limit but zero. -/
theorem file_read {file : ClassFile} (packaged : isPackageName file.package = true)
    (named : isIdentifier file.className = true) (sound : ∀ spec ∈ file.methods, SoundMethod spec)
    (bare : ∀ spec ∈ file.methods, spec.Bare) (path : String) {limit : Nat} (deep : 0 < limit) :
    ∃ unit, CompilationUnit.read path file.render.toList limit = .ok unit ∧
      Outlined file.package file.className file.methods unit := by
  have text := file_text file bare
  have plain : Plainly file.render.toList := by
    rw [text]
    exact package_plain _ packaged (class_plain _ _ named sound)
  have whole := Stretch.all file.render.toList
  rw [text] at whole plain ⊢
  obtain ⟨vs, us, shown, packageLine, rest⟩ := whole.packageLine plain.code packaged
  exact read_source plain shown packageLine (rest.classMarks plain.code named sound)
    (fun spec member => (sound spec member).fit) path limit deep

structure OnlyMethods (decls : List MethodDeclaration) (body : ClassBody) : Prop where
  methods : body.methods = decls
  members : body.members = decls.map .method
  constants : body.constants = []
  fields : body.fields = []
  initializers : body.initializers = []
  constructors : body.constructors = []
  types : body.types = []

theorem only_methods (decls : List MethodDeclaration) :
    OnlyMethods decls (ClassBody.ofMembers (decls.map .method)) := by
  induction decls using List.reverseRecOn with
  | nil => exact ⟨rfl, rfl, rfl, rfl, rfl, rfl, rfl⟩
  | append_singleton front last ih =>
      have body : ClassBody.ofMembers ((front ++ [last]).map .method) =
          (ClassBody.ofMembers (front.map .method)).push (.method last) := by
        simp [ClassBody.ofMembers]
      have members := ClassBody.members_replay ((front ++ [last]).map .method)
      rw [body] at members ⊢
      refine ⟨?_, members, ih.constants, ih.fields, ih.initializers, ih.constructors, ih.types⟩
      rw [ClassBody.push, ih.methods]

/-- What is read of a generated file: one public class under its name, which holds the methods that
were written and nothing else. -/
structure ReadAs (path package name : String) (specs : List MethodSpec) (source : SourceFile) :
    Prop where
  packageName : source.packageName =
    if package = "" then .error (.missingPackage path) else .ok package
  imports : source.unit.imports = []
  type : ∃ type decls, source.unit.types = [type] ∧ source.unit.publicClass? = some type ∧
    type.name = name ∧ type.kind = .classType ∧ OnlyMethods decls type.body ∧
    List.Forall₂ SameMethod specs decls

theorem Outlined.readAs {package name : String} {specs : List MethodSpec} {unit : CompilationUnit}
    (outlined : Outlined package name specs unit) (path : String) (limit : Nat) :
    ReadAs path package name specs ⟨path, unit, limit⟩ := by
  obtain ⟨packaged, imports, decls, span, same, types⟩ := outlined
  refine ⟨?_, imports, _, decls, types, ?_, rfl, rfl, only_methods decls, same⟩
  · rw [SourceFile.packageName]
    dsimp only
    cases declared : unit.package with
    | none =>
        rw [declared] at packaged
        by_cases unnamed : package = ""
        · rw [if_pos unnamed]
        · rw [if_neg unnamed] at packaged
          cases packaged
    | some declaration =>
        rw [declared] at packaged
        by_cases unnamed : package = ""
        · rw [if_pos unnamed] at packaged
          cases packaged
        · rw [if_neg unnamed] at packaged ⊢
          exact congrArg Except.ok (Option.some.inj packaged)
  · rw [CompilationUnit.publicClass?]
    dsimp only
    rw [types]
    rfl

theorem file_reads_back (file : ClassFile) (packaged : isPackageName file.package = true)
    (named : isIdentifier file.className = true) (sound : ∀ spec ∈ file.methods, SoundMethod spec)
    (bare : ∀ spec ∈ file.methods, spec.Bare) (path : String) {limit : Nat} (deep : 0 < limit) :
    ∃ source, SourceFile.ofText path file.render limit = .ok source ∧
      ReadAs path file.package file.className file.methods source := by
  obtain ⟨unit, read, outlined⟩ := file_read packaged named sound bare path deep
  refine ⟨⟨path, unit, limit⟩, ?_, outlined.readAs path limit⟩
  rw [SourceFile.ofText, read]
  rfl

/-- A class with accepted methods that have no bodies is read as that class with those methods in
order and nothing else, if their types are types. -/
theorem methods_read_back (package className path : String) (specs : List MethodSpec) (limit : Nat)
    (file : ClassFile) (created : ClassFile.create package className = .ok file)
    (accepted : ∀ spec ∈ specs, spec.checked = .ok spec) (empty : ∀ spec ∈ specs, spec.body = [])
    (typed : ∀ spec ∈ specs, Typed spec) (deep : 0 < limit) :
    ∃ source, SourceFile.ofText path (file.withMethods specs).render limit = .ok source ∧
      ReadAs path package className specs source := by
  obtain ⟨packaged, named, rfl⟩ := ClassFile.create_ok created
  have sound : ∀ spec ∈ specs, SoundMethod spec := fun spec member =>
    (typed spec member).sound (accepted spec member)
  have bare : ∀ spec ∈ specs, spec.Bare := by
    intro spec member
    rw [MethodSpec.Bare, empty spec member, List.flatMap_nil]
  exact file_reads_back (.withMethods ⟨package, className, []⟩ specs) packaged named sound bare path deep

def crowdedSpec : MethodSpec where
  name := "of"
  modifiers := [.nonSealed, .static]
  returnType := "Map<K, ? extends T[]>"
  parameters := [⟨"java.util.List<?>", "sealed"⟩, ⟨"int []", "$1"⟩]

theorem crowded_typed : Typed crowdedSpec := by
  have returned : Written .type ([⟨.word, "Map", 0, 3⟩] ++ ⟨.symbol, "<", 3, 4⟩ ::
      (([⟨.word, "K", 4, 5⟩] ++ ⟨.symbol, ",", 5, 6⟩ :: ⟨.symbol, "?", 7, 8⟩ ::
        ⟨.word, "extends", 9, 16⟩ :: ([⟨.word, "T", 17, 18⟩] ++
          [⟨.symbol, "[", 18, 19⟩, ⟨.symbol, "]", 19, 20⟩])) ++ [⟨.symbol, ">", 20, 21⟩])) :=
    .simple (.reference (.generic (.identifier rfl)
      (.listed (.type (.simple (.reference (.bare (.identifier rfl)))))
        (.lone (.bounded (.inl rfl) (.array (.reference (.bare (.identifier rfl))) .pair)))) rfl))
  have listed : Written .type ((([⟨.word, "java", 0, 4⟩] ++ [⟨.symbol, ".", 4, 5⟩,
      ⟨.word, "util", 5, 9⟩]) ++ [⟨.symbol, ".", 9, 10⟩, ⟨.word, "List", 10, 14⟩]) ++
      ⟨.symbol, "<", 14, 15⟩ :: ([⟨.symbol, "?", 15, 16⟩] ++ [⟨.symbol, ">", 16, 17⟩])) :=
    .simple (.reference (.generic (.member (.bare (.member (.bare (.identifier rfl)) rfl)) rfl)
      (.lone .wildcard) rfl))
  have paired : Written .type ([⟨.word, "int", 0, 3⟩] ++
      [⟨.symbol, "[", 4, 5⟩, ⟨.symbol, "]", 5, 6⟩]) :=
    .array (.primitive (by decide)) .pair
  refine ⟨⟨returned, by decide⟩, ?_⟩
  intro p member
  rw [crowdedSpec] at member
  simp only [List.mem_cons, List.not_mem_nil, or_false] at member
  rcases member with rfl | rfl
  · exact ⟨listed, by decide⟩
  · exact ⟨paired, by decide⟩

theorem crowded_read_back :
    ClassFile.create "" "sealed" = .ok ⟨"", "sealed", []⟩ ∧ crowdedSpec.checked = .ok crowdedSpec ∧
    ∃ source, SourceFile.ofText "sealed.java"
        (ClassFile.withMethods ⟨"", "sealed", []⟩ [crowdedSpec, crowdedSpec]).render 1 = .ok source ∧
      ReadAs "sealed.java" "" "sealed" [crowdedSpec, crowdedSpec] source := by
  have created : ClassFile.create "" "sealed" = .ok ⟨"", "sealed", []⟩ := rfl
  have accepted : crowdedSpec.checked = .ok crowdedSpec := rfl
  have bodiless : crowdedSpec.body = [] := rfl
  refine ⟨created, accepted, methods_read_back "" "sealed" "sealed.java" _ 1 _ created ?_ ?_ ?_ ?_⟩
  · simpa using accepted
  · simpa using bodiless
  · simpa using crowded_typed
  · decide

/-- A method that is accepted with two words for a type. -/
def doubledType : MethodSpec where
  name := "m"
  returnType := "int int"

set_option maxRecDepth 100000 in
theorem doubled_type_refused :
    ClassFile.create "" "A" = .ok ⟨"", "A", []⟩ ∧ doubledType.checked = .ok doubledType ∧
      doubledType.body = [] ∧
      SourceFile.ofText "A.java" (ClassFile.withMethods ⟨"", "A", []⟩ [doubledType]).render 128 =
        .error (.parse "A.java" .ungrammatical) := by
  refine ⟨rfl, rfl, rfl, ?_⟩
  have run : (match CompilationUnit.read "A.java"
        (ClassFile.withMethods ⟨"", "A", []⟩ [doubledType]).render.toList 128 with
      | .ok _ => false
      | .error reason => reason == .parse "A.java" .ungrammatical) = true := by
    decide +kernel
  split at run
  · cases run
  · rename_i refused
    rw [SourceFile.ofText, refused, beq_iff_eq.mp run]
    rfl

theorem main_sound : SoundMethod (.main [.code ""]) := by
  have void : IsType "void" := .simple (.primitive (by decide))
  have strings : Written .type ([⟨.word, "String", 0, 6⟩] ++ [⟨.symbol, "[", 6, 7⟩, ⟨.symbol, "]", 7, 8⟩]) :=
    .array (.reference (.bare (.identifier rfl))) .pair
  refine ⟨rfl, ⟨rfl, void, by decide⟩, ?_⟩
  intro p member
  rw [MethodSpec.main, List.mem_singleton] at member
  subst member
  exact ⟨rfl, rfl, strings, by decide⟩

def directories (package : String) : String :=
  String.ofList (package.toList.map fun c => if c = '.' then '/' else c)

theorem intercalate_directories (folders : List String) (dotless : ∀ w ∈ folders, '.' ∉ w.toList) :
    "/".intercalate folders = directories (".".intercalate folders) := by
  have kept (w : String) (free : '.' ∉ w.toList) :
      w.toList.map (fun c => if c = '.' then '/' else c) = w.toList := by
    refine (List.map_congr_left fun c member => if_neg ?_).trans (List.map_id' _)
    rintro rfl
    exact free member
  rw [directories, ← String.toList_inj, String.toList_ofList, String.toList_intercalate,
    String.toList_intercalate]
  induction folders with
  | nil => rfl
  | cons w folders ih =>
      obtain ⟨own, others⟩ := List.forall_mem_cons.mp dotless
      cases folders with
      | nil => simpa using (kept w own).symm
      | cons v folders =>
          have later := ih others
          simp only [List.map_cons, List.intercalate_cons_cons, List.map_append] at later ⊢
          rw [later, kept w own]
          rfl

theorem relative_path_told {file : ClassFile} (packaged : isPackageName file.package = true) :
    file.relativePath = (if file.package = "" then "" else directories file.package ++ "/") ++
      file.className ++ ".java" := by
  have dotless : ∀ w ∈ packageFolders file.package, '.' ∉ w.toList := fun w member =>
    identifier_free (folders_named packaged w member) '.' rfl
  have folders := intercalate_directories _ dotless
  rw [intercalate_folders packaged] at folders
  rw [ClassFile.relativePath, ClassFile.pathNames, ← packageFolders]
  by_cases unnamed : file.package = ""
  · rw [unnamed, if_pos rfl]
    simp [packageFolders, Text.pieces]
  · have filled : packageFolders file.package ≠ [] := by
      intro nothing
      rw [← intercalate_folders packaged, nothing] at unnamed
      exact unnamed rfl
    rw [String.intercalate_append_of_ne_nil filled (List.cons_ne_nil _ _), folders,
      String.intercalate_singleton, if_neg unnamed]
    simp only [String.append_assoc]

def startClass (package className : String) : ClassFile :=
  { package, className, methods := [.main [.code ""]] }

theorem start_class {request : ScaffoldRequest} {created : ClassFile}
    (accepted : ClassFile.create request.package request.className = .ok created)
    (bare : request.statements = []) :
    request.classFile = .ok (startClass request.package request.className) := by
  obtain ⟨_, _, rfl⟩ := ClassFile.create_ok accepted
  rw [ScaffoldRequest.classFile, accepted, ScaffoldRequest.body, bare]
  rfl

theorem main_signature {body : List CodeLine} {decl : MethodDeclaration}
    (same : SameMethod (.main body) decl) : decl.signature = "main(String[])" := by
  obtain ⟨name, _, _, _, parameters, _, _⟩ := same
  rw [MethodDeclaration.signature, name]
  cases found : decl.parameters with
  | nil =>
      rw [found] at parameters
      cases parameters
  | cons q others =>
      rw [found] at parameters
      cases parameters with
      | cons first later =>
          cases later
          rw [List.map_singleton, Parameter.signature, first.single, first.type]
          rfl

/-- The class that is printed without statements is read as what its names and its first method tell,
and they tell where it is to stand. -/
theorem scaffold_reads_back (request : ScaffoldRequest) (created : ClassFile)
    (disk : Files.Disk) (path : String) (limit : Nat)
    (accepted : ClassFile.create request.package request.className = .ok created)
    (bare : request.statements = []) (printed : request.outputFolder = none) (deep : 0 < limit) :
    (request.outcome disk).exitCode = 0 ∧
    ∃ file source main, request.classFile = .ok file ∧
      SourceFile.ofText path (request.outcome disk).output limit = .ok source ∧
      source.packageName = (if request.package = "" then .error (.missingPackage path)
        else .ok request.package) ∧
      source.publicClassName? = some request.className ∧
      source.publicMethods? = some [main] ∧
      main.signature = "main(String[])" ∧
      main.modifiers = { keywords := [.publicAccess, .static] } ∧
      main.returnType = some "void" ∧
      (∃ span, main.body = some ⟨[], span⟩) ∧
      file.relativePath = (if request.package = "" then ""
        else directories request.package ++ "/") ++ request.className ++ ".java" := by
  have made := start_class accepted bare
  obtain ⟨packaged, named, rfl⟩ := ClassFile.create_ok accepted
  have told : (startClass request.package request.className).relativePath = _ :=
    relative_path_told packaged
  have outcome : request.outcome disk =
      { output := (startClass request.package request.className).render, disk } := by
    rw [ScaffoldRequest.outcome, made, printed]
  have sound : ∀ spec ∈ (startClass request.package request.className).methods, SoundMethod spec :=
    List.forall_mem_singleton.mpr main_sound
  have empty : ∀ spec ∈ (startClass request.package request.className).methods, spec.Bare :=
    List.forall_mem_singleton.mpr rfl
  obtain ⟨source, read, packageName, _, type, decls, types, isPublic, name, _, only, same⟩ :=
    file_reads_back (startClass request.package request.className) packaged named sound empty path deep
  rw [outcome]
  cases same with
  | @cons _ main _ _ main' none' =>
      cases none'
      refine ⟨rfl, _, source, main, made, read, packageName, ?_, ?_, main_signature main',
        main'.modifiers, main'.returnType, main'.body, told⟩
      · rw [SourceFile.publicClassName?, isPublic, Option.map_some, name]
        rfl
      · rw [SourceFile.publicMethods?, isPublic, Option.map_some, only.methods]

def contextualRequest : ScaffoldRequest :=
  { package := "yield.module.$_1", className := "record" }

theorem contextual_scaffold_reads_back :
    ClassFile.create "yield.module.$_1" "record" = .ok ⟨"yield.module.$_1", "record", []⟩ ∧
    (contextualRequest.outcome { root := [] }).exitCode = 0 ∧
    ∃ file source main, contextualRequest.classFile = .ok file ∧
      SourceFile.ofText "record.java" (contextualRequest.outcome { root := [] }).output 1 = .ok source ∧
      source.packageName = .ok "yield.module.$_1" ∧
      source.publicClassName? = some "record" ∧
      source.publicMethods? = some [main] ∧
      main.signature = "main(String[])" ∧
      main.modifiers = { keywords := [.publicAccess, .static] } ∧
      main.returnType = some "void" ∧
      (∃ span, main.body = some ⟨[], span⟩) ∧
      file.relativePath = "yield/module/$_1/record.java" := by
  have created : ClassFile.create "yield.module.$_1" "record" =
      .ok ⟨"yield.module.$_1", "record", []⟩ := rfl
  obtain ⟨success, file, source, main, made, read, package, name, methods, signature, modifiers,
    returns, body, place⟩ :=
    scaffold_reads_back contextualRequest _ { root := [] } "record.java" 1 created rfl rfl (by decide)
  rw [if_neg (by decide)] at package place
  exact ⟨created, success, file, source, main, made, read, package, name, methods, signature,
    modifiers, returns, body, place.trans (by decide)⟩

end JavaOutline.Generate
