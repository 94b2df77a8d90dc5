import JavaOutline.Proofs.Generate.ClassText

/-!
Whole sources: a package declaration, where there is one, and a public class. Their marks are read
as one tree, and its outline tells the package and the class.
-/
namespace JavaOutline.Generate

open JavaOutline.Grammar
open JavaOutline.Lower
open JavaOutline.Tree

variable {fuel : Nat} {built : List Node} {rest us : List Token} {source : Source}

inductive NameTail : List Token → Prop
  | none : NameTail []
  | more {dot t : Token} {us : List Token} (mark : SymbolMark "." dot) (word : t.shape = .word)
      (later : NameTail us) : NameTail (dot :: t :: us)

def nameLink : Form :=
  Shape.all [Shape.sym ".", Shape.otherWord []]

def nameStep : Form :=
  .node .scopedIdentifier
    (Shape.all [.field .scope .held, Shape.sym ".", .field .name identifier])

def nameRules : List Rule :=
  [.identifier, .scopedIdentifier]

theorem name_continues (tail : NameTail us) {n : Node} {vs : List Token} (covers : Covers n vs)
    (kind : OfRules nameRules n) :
    ∃ m, Covers m (vs ++ us) ∧ OfRules nameRules m ∧
      ∀ fuel close rest, Apart close ["."] →
        Continues fuel nameLink nameStep [n] (us ++ close :: rest) [m] (close :: rest) := by
  induction tail generalizing n vs with
  | none =>
      refine ⟨n, by simpa using covers, kind, ?_⟩
      intro fuel close rest apart
      exact .stop (.early (.symbol apart))
  | @more dot t us mark word _ ih =>
      have whole : Covers (Node.ofRule .scopedIdentifier [n.labelled .scope, bareNode dot,
          (leafNode .identifier t).labelled .name]) (vs ++ [dot, t]) :=
        covers_more (covers.labelled .scope) (by simp) rfl
      obtain ⟨m, spans, rule, continues⟩ := ih whole ⟨.scopedIdentifier, by decide, rfl⟩
      refine ⟨m, by simpa using spans, rule, ?_⟩
      intro fuel close rest apart
      have dotted : Reads fuel (Shape.sym ".") [n] (dot :: t :: (us ++ close :: rest)) [bareNode dot] _ :=
        mark.reads (by decide)
      exact .turn (.seq dotted (.otherWord word (by simp)))
        (.node (.seq (.field .held) (.seq dotted (.field (.word word rfl)))))
        (solid_fewer (mark.solid (by decide)) [t] _) (continues _ _ _ apart)

theorem dotted_name_found {m : Node} (kind : OfRules nameRules m) (first last : Token) :
    dottedName? (Node.ofRule .packageDeclaration [bareNode first, m, bareNode last]) = some m := by
  obtain ⟨r, among, same⟩ := kind
  have bare (t : Token) : (bareNode t).isNamed = false := rfl
  have known : ∀ r ∈ nameRules, (Kind.rule r == Kind.rule .lineComment) = false ∧
      (Kind.rule r == Kind.rule .blockComment) = false ∧
      ((Kind.rule r == Kind.rule .identifier) || (Kind.rule r == Kind.rule .scopedIdentifier)) = true := by
    decide
  obtain ⟨noLine, noBlock, name⟩ := known r among
  have named : m.isNamed = true := by simp [Node.isNamed, same]
  have code : m.isComment = false := by simp only [Node.isComment, Node.is, same, noLine, noBlock, Bool.or_self]
  have found : (m.is .identifier || m.is .scopedIdentifier) = true := by
    simpa only [Node.is, same] using name
  simp [dottedName?, Node.parts, Node.ofRule, Node.children, bare, named, code, found]

inductive PackageMarks (source : Source) (package : String) : List Token → Prop
  | intro {keyword first semicolon : Token} {tail : List Token}
      (declares : WordMark source "package" keyword) (word : first.shape = .word)
      (dotted : NameTail tail) (told : ∀ n, Covers n (first :: tail) → source.text n = package)
      (ends : SymbolMark ";" semicolon) :
      PackageMarks source package (keyword :: first :: (tail ++ [semicolon]))

theorem package_reads {package : String} (marks : PackageMarks source package us) :
    ∃ n, n.kind = .rule .packageDeclaration ∧
      packageDeclaration? source n = some ⟨package, source.span n⟩ ∧
      (∀ fuel built rest, ∃ nodes others, Reads fuel (Shape.all [skippedNotes, Shape.key "package"])
        built (us ++ rest) nodes others) ∧
      ∀ fuel built rest, Reads (fuel + 1) packageDeclaration built (us ++ rest) [n] rest := by
  cases marks with
  | @intro keyword first semicolon tail declares word dotted told ends =>
      obtain ⟨m, covers, kind, continues⟩ :=
        name_continues dotted (covers_leaf .identifier first) ⟨.identifier, by decide, rfl⟩
      have unsigned : Apart keyword ["@"] := fun symbol => by simp [declares.word] at symbol
      have declaring : keyword.text ∈ ["package"] := by simp [declares.text]
      refine ⟨Node.ofRule .packageDeclaration [bareNode keyword, m, bareNode semicolon], rfl, ?_,
        ?_, ?_⟩
      · have shown : dottedName? (Node.ofRule .packageDeclaration
            [bareNode keyword, m, bareNode semicolon]) = some m := dotted_name_found kind _ _
        have named : source.text m = package := told m covers
        unfold packageDeclaration?
        rw [shown, Option.map_some, named]
        rfl
      · intro fuel built rest
        exact ⟨_, _, .seq (notes_pass unsigned) (.keyword declares.word declaring)⟩
      · intro fuel built rest
        have named : Reads (fuel + 1) (.call .name) built (first :: (tail ++ semicolon :: rest)) [m]
            (semicolon :: rest) :=
          .call (.chain (.word word rfl) (continues _ _ _ (ends.apart (by decide))))
        have whole : keyword :: first :: (tail ++ [semicolon]) ++ rest =
            keyword :: first :: (tail ++ semicolon :: rest) := by simp
        rw [whole]
        exact .node (.seq (.unrepeated (.symbol unsigned))
          (.seq (.keyword declares.word declaring) (.seq named (ends.reads (by decide)))))

section

variable {name : String} {specs : List MethodSpec}

theorem ClassMarks.starts (marks : ClassMarks source name specs us) :
    ∃ t others, us ++ rest = t :: others ∧ t.shape = .word ∧ t.text = "public" := by
  cases marks with
  | intro modifiers _ _ _ _ _ =>
      cases modifiers with
      | more first later =>
          cases first with
          | word _ => exact ⟨_, _, rfl, rfl, rfl⟩

theorem ClassMarks.declared (marks : ClassMarks source name specs us) :
    ∃ nodes others, Reads fuel (declared "class") built (us ++ rest) nodes others := by
  cases marks with
  | @intro ms us cls t ob cb modifiers keyword named begins methods ends =>
      have unmodified : Unmodified (cls :: t :: ob :: (us ++ [cb]) ++ rest) :=
        class_unmodified keyword named
      obtain ⟨nodes, skips⟩ : ∃ nodes, Reads fuel skippedModifiers built _ nodes _ :=
        modifiers.skipped unmodified
      rw [List.append_assoc]
      exact ⟨_, _, .seq skips (.keyword keyword.word (by simp [keyword.text]))⟩

/-- A modifier starts none of the statements that are tried before a type declaration. -/
theorem public_statement {t : Token} (word : t.shape = .word) (text : t.text = "public") :
    ∀ entry ∈ [(Shape.sym openBrace, Shape.call Goal.block), (Shape.sym ";", Shape.sym ";")] ++
      keywordStatements true, Refuses fuel entry.1 built (t :: rest) := by
  have key (w : String) (other : w ≠ "public") : Refuses fuel (Shape.key w) built (t :: rest) :=
    .keyword fun _ => by simpa [text] using other.symm
  have symbol (w : String) : Refuses fuel (Shape.sym w) built (t :: rest) :=
    .symbol fun symbol => by simp [word] at symbol
  have notes : Reads fuel skippedNotes built (t :: rest) [] (t :: rest) :=
    .unrepeated (symbol "@")
  intro entry member
  simp only [keywordStatements, List.cons_append, List.nil_append, List.mem_cons, List.not_mem_nil,
    or_false] at member
  rcases member with rfl | rfl | rfl | rfl | rfl | rfl | rfl | rfl | rfl | rfl | rfl | rfl | rfl |
    rfl | rfl | rfl | rfl | rfl | rfl
  · exact symbol _
  · exact symbol _
  · exact key _ (by decide)
  · exact key _ (by decide)
  · exact key _ (by decide)
  · exact key _ (by decide)
  · exact .early (key _ (by decide))
  · exact key _ (by decide)
  · exact key _ (by decide)
  · exact key _ (by decide)
  · exact key _ (by decide)
  · exact key _ (by decide)
  · exact key _ (by decide)
  · exact key _ (by decide)
  · exact .early (key _ (by decide))
  · exact .early (key _ (by decide))
  · exact key _ (by decide)
  · exact .late (.omitted (symbol _)) (key _ (by decide))
  · apply Refuses.late notes
    apply Refuses.either
    intro probe member
    simp only [List.mem_cons, List.not_mem_nil, or_false] at member
    rcases member with rfl | rfl
    · exact .early (key _ (by decide))
    · exact .early (key _ (by decide))

theorem class_statement (marks : ClassMarks source name specs us) {n : Node}
    (reads : Reads (fuel + 1) (.call .typeDeclaration) [] (us ++ rest) [n] rest) :
    Reads (fuel + 2) (.call (.statement true)) built (us ++ rest) [n] rest := by
  obtain ⟨t, others, front, word, text⟩ : ∃ t others, us ++ rest = t :: others ∧ _ := marks.starts
  obtain ⟨nodes, behind, ahead⟩ : ∃ nodes others,
      Reads (fuel + 1) (declared "class") [] (us ++ rest) nodes others := marks.declared
  apply Reads.call
  apply Reads.choose
  · rw [front]
    exact public_statement word text
  · exact .pick (.pick ahead .done) reads

theorem top_class {n : Node} (kind : n.kind = .rule .classDeclaration) :
    topType n = (Below.type n .classType).map some := by
  rw [topType, typeKind?, kind]

theorem top_package {n : Node} (kind : n.kind = .rule .packageDeclaration) :
    topType n = .done none := by
  rw [topType, typeKind?, kind]

/-- The outline of a source with one class is that of its class, with its package. -/
theorem outline_run (limit : Nat) {root n : Node} {front : List Node} {decl : TypeDeclaration}
    (parts : root.parts = front ++ [n]) (packages : ∀ m ∈ front, m.kind = .rule .packageDeclaration)
    (kind : n.kind = .rule .classDeclaration)
    (lowered : typeDeclaration source n .classType = .done decl) :
    ∃ unit, (outline source root).run (levels source (limit + 1)) = .ok unit ∧
      unit.package = root.parts.findSome? (packageDeclaration? source) ∧ unit.imports = [] ∧
      unit.types = [decl] := by
  have unimported : root.parts.filterMap (importDeclaration? source) = [] := by
    rw [List.filterMap_eq_nil_iff, parts]
    intro m member
    rcases List.mem_append.mp member with package | last
    · simp [importDeclaration?, Node.is, packages m package]
    · simp [importDeclaration?, Node.is, List.mem_singleton.mp last, kind]
  have answered : levels source (limit + 1) (.type n .classType) = .ok decl := by
    rw [levels, answer, lowered]
    rfl
  have types : (root.parts.mapM topType : Plan _) =
      .ask (.type n .classType) fun found => .done (front.map (fun _ => none) ++ [some found]) := by
    rw [parts]
    clear parts
    induction front with
    | nil =>
        rw [List.nil_append, List.mapM_cons, top_class kind]
        rfl
    | cons m front ih =>
        obtain ⟨own, others⟩ := List.forall_mem_cons.mp packages
        rw [List.cons_append, List.mapM_cons, top_package own, ih others]
        rfl
  have plan : outline source root = .ask (.type n .classType) fun found => .done {
      chars := source.chars
      package := root.parts.findSome? (packageDeclaration? source)
      imports := root.parts.filterMap (importDeclaration? source)
      types := (front.map (fun _ => none) ++ [some found]).filterMap id
      span := source.span root } := by
    unfold outline
    rw [types]
    rfl
  rw [plan, Plan.run, answered]
  have only : (front.map (fun _ => none) ++ [some decl]).filterMap id = [decl] := by
    rw [List.filterMap_append, List.filterMap_map]
    simp
  exact ⟨_, rfl, rfl, unimported, only⟩

def PackageLine (source : Source) (package : String) (us : List Token) : Prop :=
  package = "" ∧ us = [] ∨ package ≠ "" ∧ PackageMarks source package us

/-- What the outline of a generated source tells: its package and its public class, and no more. -/
structure Outlined (package name : String) (specs : List MethodSpec) (unit : CompilationUnit) :
    Prop where
  package : unit.package.map PackageDeclaration.name = if package = "" then none else some package
  imports : unit.imports = []
  type : ∃ decls span, List.Forall₂ SameMethod specs decls ∧
    unit.types = [⟨name, .classType, { keywords := [.publicAccess] },
      ClassBody.ofMembers (decls.map .method), span⟩]

theorem ClassMarks.fewer (marks : ClassMarks source name specs us) :
    solid rest < solid (us ++ rest) := by
  cases marks with
  | intro _ _ _ begins _ _ =>
      have other := begins.text
      rw [solid_append, solid_append, solid_cons, solid_cons, solid_cons, if_neg (by simp [other, openBrace])]
      omega

theorem PackageMarks.fewer {package : String} (marks : PackageMarks source package us) :
    solid rest < solid (us ++ rest) := by
  cases marks with
  | intro declares _ _ _ _ =>
      have other := declares.text
      rw [solid_append, solid_cons, if_neg (by simp [other])]
      omega

theorem PackageMarks.starts {package : String} (marks : PackageMarks source package us) :
    ∃ t others, us ++ rest = t :: others := by
  cases marks
  exact ⟨_, _, rfl⟩

def topForm : Form :=
  Shape.choose
    [(Shape.all [skippedNotes, Shape.key "package"], packageDeclaration),
      (Shape.all
        [Shape.absent (Shape.nextWord statementWords), Shape.absent typeDeclarationAhead,
          .pick (Shape.all [skippedModifiers, Shape.sym "<"])
            (Shape.all [skippedModifiers, typeParameters, skippedNotes, .call (.plainType .free)])
            skippedType,
          identifier, .call .formalParameters,
          Shape.either [Shape.nextSymbol [";", openBrace], Shape.key "throws", dimensionsAhead]],
        methodDeclaration)]
    (.call (.statement true))

theorem class_top (marks : ClassMarks source name specs us) {n : Node}
    (reads : Reads (fuel + 1) (.call .typeDeclaration) [] (us ++ rest) [n] rest) :
    Reads (fuel + 2) topForm built (us ++ rest) [n] rest := by
  have statement : Reads (fuel + 2) (.call (.statement true)) built (us ++ rest) [n] rest :=
    class_statement marks reads
  obtain ⟨t, others, front, word, text⟩ : ∃ t others, us ++ rest = t :: others ∧ _ := marks.starts
  obtain ⟨nodes, behind, ahead⟩ : ∃ nodes others,
      Reads (fuel + 2) (declared "class") built (us ++ rest) nodes others := marks.declared
  rw [front] at statement ahead ⊢
  have unlisted : Refuses (fuel + 2) (Shape.nextWord statementWords) built (t :: others) :=
    .nextWord fun _ => by rw [text]; decide
  apply Reads.pass
  · exact .late (notes_pass fun symbol => by simp [word] at symbol)
      (.keyword fun _ => by simp [text])
  · exact .pass (.late (.absent unlisted) (.early (.absent (.pick ahead .done)))) statement

theorem class_last (marks : ClassMarks source name specs us) {n : Node}
    (reads : ∀ fuel built rest, 4 * solid us + 6 ≤ fuel →
      Reads fuel (.call .typeDeclaration) built (us ++ rest) [n] rest)
    (enough : 4 * solid us + 7 ≤ fuel) :
    Repeats fuel (Shape.absent .stop) topForm [] us [n] [] := by
  obtain ⟨fuel, rfl⟩ := Nat.exists_eq_add_of_le' (Nat.le_of_add_left_le enough)
  have own : Reads (fuel + 7) topForm [] (us ++ []) [n] [] :=
    class_top marks (reads _ _ _ (by omega))
  have fewer : solid [] < solid (us ++ []) := marks.fewer
  obtain ⟨t, others, front, _⟩ : ∃ t others, us ++ [] = t :: others ∧ _ := marks.starts
  rw [List.append_nil] at own fewer front
  rw [front] at own fewer ⊢
  exact .turn (.absent .stop) own fewer (.stop (.absent .stop))

theorem rule_part {m : Node} {r : Rule} (own : m.kind = .rule r)
    (code : r ∉ [.lineComment, .blockComment]) : (m.isNamed && !m.isComment) = true := by
  simp only [List.mem_cons, List.not_mem_nil, or_false, not_or] at code
  simp [Node.isNamed, Node.isComment, Node.is, own, code]

theorem source_reads {package : String} {vs : List Token} (packaged : PackageLine source package vs)
    (marks : ClassMarks source name specs us) (fit : ∀ spec ∈ specs, FitMethod spec) :
    ∃ nodes, (∀ fuel, 4 * solid us + 7 ≤ fuel →
        Reads fuel programForm [] (vs ++ us) [Node.ofRule .program nodes] []) ∧
      ∀ root limit, root.children = nodes →
        ∃ unit, (outline source root).run (levels source (limit + 1)) = .ok unit ∧
          Outlined package name specs unit := by
  obtain ⟨n, decls, span, kind, lowered, same, reads⟩ := class_reads marks fit
  have single := rule_part kind (by decide)
  rcases packaged with ⟨rfl, rfl⟩ | ⟨filled, packaged⟩
  · refine ⟨[n], fun fuel enough => .node (.many (class_last marks reads enough)), ?_⟩
    intro root limit children
    have parts : root.parts = [] ++ [n] := by simp [Node.parts, children, single]
    obtain ⟨unit, run, package, imports, types⟩ :=
      outline_run limit parts (List.forall_mem_nil _) kind lowered
    refine ⟨unit, run, ?_, imports, decls, span, same, types⟩
    have missing : packageDeclaration? source n = none := by
      simp [packageDeclaration?, Node.is, kind]
    simp [package, parts, missing]
  · obtain ⟨m, own, told, ahead, declares⟩ := package_reads packaged
    have part := rule_part own (by decide)
    refine ⟨[m, n], fun fuel enough => ?_, ?_⟩
    · obtain ⟨fuel, rfl⟩ := Nat.exists_eq_add_of_le' (Nat.le_of_add_left_le enough)
      obtain ⟨_, _, holds⟩ := ahead (fuel + 7) [] us
      have own : Reads (fuel + 7) topForm [] (vs ++ us) [m] us := .pick holds (declares _ _ _)
      have later := class_last marks reads enough
      have fewer : solid us < solid (vs ++ us) := packaged.fewer
      obtain ⟨t, others, front⟩ : ∃ t others, vs ++ us = t :: others := packaged.starts
      rw [front] at own fewer ⊢
      exact .node (.many (.turn (.absent .stop) own fewer later))
    · intro root limit children
      have parts : root.parts = [m] ++ [n] := by simp [Node.parts, children, single, part]
      obtain ⟨unit, run, package', imports, types⟩ :=
        outline_run limit parts (by simpa using own) kind lowered
      refine ⟨unit, run, ?_, imports, decls, span, same, types⟩
      simp [package', parts, told, filled]

/-- Plain code with the marks of a generated source has an outline under every limit but zero. -/
theorem read_source {package : String} {vs : List Token} {chars : List Char} (plain : Plainly chars)
    (shown : marks 0 chars = vs ++ us) (packaged : PackageLine ⟨chars⟩ package vs)
    (marks : ClassMarks ⟨chars⟩ name specs us) (fit : ∀ spec ∈ specs, FitMethod spec)
    (path : String) (limit : Nat) (deep : 0 < limit) :
    ∃ unit, CompilationUnit.read path chars limit = .ok unit ∧ Outlined package name specs unit := by
  obtain ⟨nodes, reads, told⟩ := source_reads packaged marks fit
  obtain ⟨tokens, cut, bears⟩ := tokens_marks chars plain
  rw [shown] at bears
  obtain ⟨bound, bounded⟩ : ∃ bound, min limit largestDepth = bound + 1 :=
    Nat.exists_eq_add_one_of_ne_zero (by unfold largestDepth; omega)
  have fits : 4 * solid us + 7 ≤ callsPerToken * (tokens.length + 1) + 31 := by
    have fewer := bears.solid
    rw [solid_append] at fewer
    unfold callsPerToken
    omega
  obtain ⟨others, read, left⟩ := reads _ fits tokens bears
  rw [left.empty] at read
  have whole : readGoal java (callsPerToken * (tokens.length + 2)) .program tokens =
      some ([Node.ofRule .program nodes], []) := read
  have tree : tree? chars = some (.mk (.rule .program) none
      ((nodes.head?.map Node.start).getD (Text.byteSize chars)) (Text.byteSize chars) nodes) := by
    unfold tree?
    rw [cut]
    simp only [Option.bind_eq_bind, Option.bind_some]
    rw [whole]
    rfl
  obtain ⟨unit, run, outlined⟩ := told (.mk (.rule .program) none
      ((nodes.head?.map Node.start).getD (Text.byteSize chars)) (Text.byteSize chars) nodes) bound rfl
  have answered : Lower.unit chars (bound + 1) (.mk (.rule .program) none
      ((nodes.head?.map Node.start).getD (Text.byteSize chars)) (Text.byteSize chars) nodes) =
      .ok unit := run
  refine ⟨unit, ?_, outlined⟩
  unfold CompilationUnit.read
  rw [bounded, tree]
  dsimp only
  rw [answered]

end

end JavaOutline.Generate
