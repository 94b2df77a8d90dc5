import JavaOutline.Proofs.Files.Paths
import JavaOutline.Proofs.Lower.OneLine
import JavaOutline.Proofs.Report.Agreement

/-!
Types and reported texts on one line. Types and what is shown of a span have gone through the
one-line form, which keeps all that is not blank and puts single spaces for everything else; names
are words of the source. So none of them breaks into lines, and of the layout of the source they
tell no more than which tokens are separated. The name of the package alone is copied as it is
written, with whatever stands between its parts.
-/
namespace JavaOutline

open Walk

namespace Text

/-- All blanks of a text are spaces, so that nothing in it breaks a line. -/
def SingleLine (text : String) : Prop :=
  ∀ c ∈ text.toList, isBlank c = true → c = ' '

instance (text : String) : Decidable (SingleLine text) :=
  List.decidableBAll (fun c => isBlank c = true → c = ' ') text.toList

theorem Tight.single {text : String} (tight : Tight text.toList) : SingleLine text := by
  intro c member blank
  obtain ⟨front, back, cut⟩ := List.append_of_mem member
  exact (tight front c back cut blank).1

theorem Word.single {text : String} (word : Word text.toList) : SingleLine text := by
  intro c member blank
  rw [word.solid c member] at blank
  cases blank

theorem word_of_chars {text : String} {chars : List Char} (spells : text = String.ofList chars)
    (solid : (!chars.isEmpty && chars.all fun c => !isBlank c) = true) : Word text.toList := by
  rw [spells, String.toList_ofList]
  constructor <;> simp_all

theorem one_line_single (text : String) : SingleLine (oneLine text) :=
  (one_line_tight text).single

theorem SingleLine.append {front back : String} (first : SingleLine front)
    (second : SingleLine back) : SingleLine (front ++ back) := by
  intro c member
  rw [String.toList_append, List.mem_append] at member
  exact member.elim (first c) (second c)

theorem SingleLine.intercalate {separator : String} {parts : List String}
    (between : SingleLine separator) (each : ∀ part ∈ parts, SingleLine part) :
    SingleLine (separator.intercalate parts) := by
  intro c member
  rw [String.toList_intercalate] at member
  rcases mem_intercalate member with inside | ⟨_, among, inside⟩
  · exact between c inside
  · obtain ⟨part, listed, rfl⟩ := List.mem_map.mp among
    exact each part listed c inside

end Text

namespace Lower

open JavaOutline.Text JavaOutline.Tree

section
variable {shown : Node → String} {among : Node → Prop} {text : String}

theorem Phrase.single (phrase : Phrase shown among text) (each : ∀ n, SingleLine (shown n)) :
    SingleLine text := by
  induction phrase with
  | nothing => exact List.forall_mem_nil _
  | node n _ => exact each n
  | dimensions _ n _ ih =>
      refine ih.append fun c member => ?_
      rw [String.toList_ofList] at member
      exact each n c (List.mem_of_mem_filter member)
  | joined separator known _ ih =>
      refine .intercalate ?_ ih
      rcases known with rfl | rfl <;> decide

theorem Phrase.shown_same {other : Node → String} (phrase : Phrase shown among text)
    (same : ∀ n, among n → shown n = other n) : Phrase other among text := by
  induction phrase with
  | nothing => exact .nothing
  | node n here =>
      rw [same n here]
      exact .node n here
  | dimensions _ n here ih =>
      rw [same n here]
      exact .dimensions ih n here
  | joined separator known _ ih => exact .joined separator known ih

end

theorem types_told {chars : List Char} {root : Node} (follows : Grammar.tree? chars = some root)
    {whole : Visit} (sound : Sound ⟨chars⟩ root.Has whole) : ∀ text ∈ whole.types,
    SingleLine text ∧ Phrase (Source.nodeLine ⟨chars⟩) root.Has text := by
  intro text member
  have phrase := sound.types text member
  exact ⟨phrase.single fun n => one_line_single _,
    phrase.shown_same fun n has => compact_told follows has⟩

theorem rule_text_word (r : Rule) : Word r.text.toList := by
  cases r <;> exact word_of_chars rfl rfl

theorem Valued.kind_word {source : Source} {among : Node → Prop} {e : Expression}
    (valued : Valued source among e) : Word e.kind.text.toList := by
  obtain ⟨kind, span⟩ := e
  cases kind with
  | other own children =>
      rcases valued with declaration | ⟨n, _, named, made⟩
      · cases declaration
      · have same : own = n.kind.text := made
        cases sort : n.kind with
        | rule r =>
            rw [ExpressionKind.text, same, sort]
            exact rule_text_word r
        | token text => simp [Node.isNamed, sort] at named
  | _ => exact word_of_chars rfl rfl

end Lower

namespace Report

open JavaOutline.Text JavaOutline.Tree

/-- The names in a report on a method: its own, and those of variables and calls. -/
def MethodReport.names (report : MethodReport) : List String :=
  report.name :: (report.declarations.map DeclarationEntry.name ++ report.calls.map CallEntry.name)

/-- What a report on a method shows of a source is told from its tree: the expressions, and what
variables are set to and calls are made on, by the tokens of their spans, types by those of nodes,
and names by that of a node. All its texts are single lines. -/
structure MethodReport.Told (chars : List Char) (root : Node) (source : SourceFile)
    (method : MethodDeclaration) (report : MethodReport) : Prop where
  expressions : ∃ values, source.methodExpressions method = .ok values ∧
    report.expressions.map ExpressionEntry.text =
      values.map fun e => Lower.Source.spanLine ⟨chars⟩ root e.span
  initializers : ∃ declared, source.variableDeclarations method = .ok declared ∧
    report.declarations.map DeclarationEntry.initializer =
      declared.map fun v => v.initializer.map fun e => Lower.Source.spanLine ⟨chars⟩ root e.span
  scopes : ∃ called, source.methodCalls method = .ok called ∧
    report.calls.map CallEntry.scope =
      called.map fun c => c.scope.map fun e => Lower.Source.spanLine ⟨chars⟩ root e.span
  tight : ∀ text ∈ report.expressions.map ExpressionEntry.text ++
      report.declarations.filterMap DeclarationEntry.initializer ++
      report.calls.filterMap CallEntry.scope, Tight text.toList
  types : ∀ entry ∈ report.declarations,
    Lower.Phrase (Lower.Source.nodeLine ⟨chars⟩) root.Has entry.type
  signature : report.signature = method.signature ∧ ∀ p ∈ method.parameters,
    Lower.Phrase (Lower.Source.nodeLine ⟨chars⟩) root.Has p.type
  names : ∀ name ∈ report.names,
    Word name.toList ∧ ∃ n, root.Has n ∧ name = Lower.Source.nodeLine ⟨chars⟩ n
  lines : ∀ text ∈ report.texts, SingleLine text

/-- The same of a report on a whole source, but for the name of its package: this is the text of a
node as it is written, and only its one-line form is told from the tokens. -/
structure FileReport.Told (chars : List Char) (root : Node) (source : SourceFile)
    (report : FileReport) : Prop where
  package : ∀ name ∈ report.package, ∃ n, root.Has n ∧
    (n.kind = .rule .identifier ∨ n.kind = .rule .scopedIdentifier) ∧
    name = Lower.Source.text ⟨chars⟩ n ∧ oneLine name = Lower.Source.nodeLine ⟨chars⟩ n
  publicClass : ∀ name ∈ report.publicClass,
    Word name.toList ∧ ∃ n, root.Has n ∧ name = Lower.Source.nodeLine ⟨chars⟩ n
  methods : ∀ each ∈ report.methods, ∃ place method,
    (Visit.unit source.unit).at? place = some (.method method) ∧
      methodReport source method = .ok each ∧ each.Told chars root source method
  lines : ∀ text ∈ report.publicClass.toList ++ report.methods.flatMap MethodReport.texts,
    SingleLine text

theorem signature_single (method : MethodDeclaration) (name : SingleLine method.name)
    (each : ∀ p ∈ method.parameters, SingleLine p.type) : SingleLine method.signature := by
  have marks : SingleLine "(" ∧ SingleLine ", " ∧ SingleLine "..." ∧ SingleLine ")" := by
    decide
  obtain ⟨opened, comma, dots, closed⟩ := marks
  have types : SingleLine (", ".intercalate (method.parameters.map Parameter.signature)) := by
    refine .intercalate comma (List.forall_mem_map.mpr fun p member => ?_)
    unfold Parameter.signature
    split
    · exact (each p member).append dots
    · exact each p member
  exact ((name.append opened).append types).append closed

theorem part_text_tight (source : SourceFile) {part : Option Expression} {text : String}
    (shown : part.map (fun e => spanText source e.span) = some text) : Tight text.toList := by
  obtain ⟨e, _, rfl⟩ := Option.map_eq_some_iff.mp shown
  exact one_line_tight _

theorem expression_entry_single (source : SourceFile) (e : Expression)
    (kind : SingleLine e.kind.text) : ∀ text ∈ (expressionEntry source e).texts, SingleLine text :=
  List.forall_mem_cons.mpr ⟨kind, List.forall_mem_singleton.mpr (one_line_tight _).single⟩

theorem declaration_entry_single (source : SourceFile) (v : Declarator) (name : SingleLine v.name)
    (type : SingleLine v.type) : ∀ text ∈ (declarationEntry source v).texts, SingleLine text :=
  List.forall_mem_append.mpr ⟨List.forall_mem_cons.mpr ⟨name, List.forall_mem_singleton.mpr type⟩,
    fun _ value => (part_text_tight source (Option.mem_toList.mp value)).single⟩

theorem call_entry_single (source : SourceFile) (c : MethodCall) (name : SingleLine c.name) :
    ∀ text ∈ (callEntry source c).texts, SingleLine text :=
  List.forall_mem_append.mpr
    ⟨fun _ scope => (part_text_tight source (Option.mem_toList.mp scope)).single,
      List.forall_mem_singleton.mpr name⟩

theorem declared_everywhere {holds : Visit → Prop} {values : List Expression}
    (all : ∀ e ∈ values, (Visit.expression e).Everywhere holds) :
    ∀ v ∈ declarators values, ∃ d : VariableDeclaration, v ∈ d.declared ∧
      (Visit.declaration d).Everywhere holds := by
  intro v member
  rw [declarators_each] at member
  obtain ⟨e, among, inside⟩ := List.mem_flatMap.mp member
  rcases declarators_single e with ⟨d, kind, own⟩ | ⟨_, none⟩
  · refine ⟨d, own ▸ inside, (all e among).inner _ ?_⟩
    simp [Visit.parts, kind, ExpressionKind.parts]
  · rw [none] at inside
    cases inside

theorem calls_everywhere {holds : Visit → Prop} {whole : Visit} (all : whole.Everywhere holds) :
    ∀ c ∈ whole.gathered Expression.call?, (Visit.call c).Everywhere holds := by
  intro c member
  obtain ⟨place, e, stands, call⟩ := mem_gathered _ member
  refine (all.below stands).inner _ ?_
  obtain ⟨kind, span⟩ := e
  cases kind <;> cases call
  exact List.mem_cons_self

theorem declarators_told {chars : List Char} {root : Node} {values : List Expression}
    (follows : Grammar.tree? chars = some root)
    (sound : ∀ e ∈ values, (Visit.expression e).Everywhere (Lower.Sound ⟨chars⟩ root.Has)) :
    ∀ v ∈ declarators values, Lower.NamedAfter ⟨chars⟩ root.Has v.name ∧ SingleLine v.type ∧
      Lower.Phrase (Lower.Source.nodeLine ⟨chars⟩) root.Has v.type := by
  intro v member
  obtain ⟨d, among, declared⟩ := declared_everywhere sound v member
  exact ⟨declared.here.names _ (List.mem_map_of_mem among),
    Lower.types_told follows declared.here _ (List.mem_map_of_mem among)⟩

section
variable {chars : List Char} {root : Node} {source : SourceFile}
  (follows : Grammar.tree? chars = some root) (same : source.unit.chars = chars)
include follows same

theorem span_text_told {e : Expression}
    (sound : Lower.Sound ⟨chars⟩ root.Has (.expression e)) :
    spanText source e.span = Lower.Source.spanLine ⟨chars⟩ root e.span := by
  have taken := sound.spans e.span List.mem_cons_self
  rw [← Lower.taken_told follows taken, spanText, SourceFile.text, CompilationUnit.snippet, same]

theorem optional_text_told {part : Option Expression} {whole : Visit}
    (sound : whole.Everywhere (Lower.Sound ⟨chars⟩ root.Has))
    (inside : ∀ e, part = some e → .expression e ∈ whole.parts) :
    (part.map fun e => spanText source e.span) =
      part.map fun e => Lower.Source.spanLine ⟨chars⟩ root e.span := by
  cases part with
  | none => rfl
  | some e =>
      have own := (sound.inner _ (inside e rfl)).here
      rw [Option.map_some, Option.map_some, span_text_told follows same own]

end

theorem method_report_told {chars : List Char} {root : Node} (source : SourceFile)
    (follows : Grammar.tree? chars = some root) (same : source.unit.chars = chars)
    (method : MethodDeclaration) (report : MethodReport)
    (sound : (Visit.method method).Everywhere (Lower.Sound ⟨chars⟩ root.Has))
    (reported : methodReport source method = .ok report) :
    report.Told chars root source method := by
  obtain ⟨values, called, flattened, found, rfl⟩ :=
    (method_report_ok_iff source method report).mp reported
  have soundValues := MethodDeclaration.values_everywhere flattened sound
  have gathered :=
    finished_gathered _ _ call_stands_for (.method method) rfl source.limit called found
  -- Expressions and calls are found by different walks, but all of them stand below the method, and
  -- so do the variables that the expressions declare.
  have declaring := declared_everywhere soundValues
  have calling : ∀ c ∈ called, (Visit.call c).Everywhere (Lower.Sound ⟨chars⟩ root.Has) := by
    rw [gathered]
    exact calls_everywhere sound
  have told (text : String) (named : Lower.NamedAfter ⟨chars⟩ root.Has text) :=
    Lower.named_after_told follows named
  have own := told method.name (sound.here.names _ (List.mem_singleton_self _))
  have bound := declarators_told follows soundValues
  have calls : ∀ c ∈ called, Lower.NamedAfter ⟨chars⟩ root.Has c.name := fun c member =>
    (calling c member).here.names _ (List.mem_singleton_self _)
  have parameters : ∀ p ∈ method.parameters, SingleLine p.type ∧
      Lower.Phrase (Lower.Source.nodeLine ⟨chars⟩) root.Has p.type := by
    refine fun p member => Lower.types_told follows sound.here p.type ?_
    exact List.mem_append_left _ (List.mem_append_right _ (List.mem_map_of_mem member))
  have kinds : ∀ e ∈ values, Word e.kind.text.toList := by
    intro e member
    obtain ⟨s, stated, value⟩ := method.values_owned source.limit values flattened sound e member
    exact (stated.particulars e value).kind_word
  refine {
    expressions := ⟨values, flattened, ?_⟩
    initializers := ⟨declarators values, ?_, ?_⟩
    scopes := ⟨called, found, ?_⟩
    tight := ?_, types := ?_, signature := ⟨rfl, fun p member => (parameters p member).2⟩
    names := ?_, lines := ?_ }
  · rw [List.map_map]
    exact List.map_congr_left fun e member =>
      span_text_told follows same (soundValues e member).here
  · rw [SourceFile.variableDeclarations, flattened]
    rfl
  · rw [List.map_map]
    refine List.map_congr_left fun v member => ?_
    obtain ⟨d, among, own⟩ := declaring v member
    refine optional_text_told follows same own fun e set => ?_
    refine List.mem_flatMap.mpr ⟨v, among, ?_⟩
    simp [Declarator.parts, set]
  · rw [List.map_map]
    refine List.map_congr_left fun c member => ?_
    refine optional_text_told follows same (calling c member) fun e set => ?_
    simp [Visit.parts, set]
  · refine List.forall_mem_append.mpr ⟨List.forall_mem_append.mpr ⟨?_, ?_⟩, ?_⟩
    · rw [List.map_map]
      exact List.forall_mem_map.mpr fun e _ => one_line_tight _
    · rw [List.filterMap_map]
      exact List.forall_mem_filterMap.mpr fun v _ _ set => part_text_tight source set
    · rw [List.filterMap_map]
      exact List.forall_mem_filterMap.mpr fun c _ _ set => part_text_tight source set
  · exact List.forall_mem_map.mpr fun v member => (bound v member).2.2
  · refine List.forall_mem_cons.mpr ⟨own, List.forall_mem_append.mpr ⟨?_, ?_⟩⟩
    · rw [List.map_map]
      exact List.forall_mem_map.mpr fun v member => told v.name (bound v member).1
    · rw [List.map_map]
      exact List.forall_mem_map.mpr fun c member => told c.name (calls c member)
  · refine List.forall_mem_append.mpr ⟨List.forall_mem_append.mpr
      ⟨List.forall_mem_append.mpr ⟨?_, ?_⟩, ?_⟩, ?_⟩
    · exact List.forall_mem_cons.mpr ⟨own.1.single, List.forall_mem_singleton.mpr
        (signature_single method own.1.single fun p member => (parameters p member).1)⟩
    · exact List.forall_mem_flatMap.mpr (List.forall_mem_map.mpr fun e member =>
        expression_entry_single source e (kinds e member).single)
    · exact List.forall_mem_flatMap.mpr (List.forall_mem_map.mpr fun v member =>
        declaration_entry_single source v (told v.name (bound v member).1).1.single
          (bound v member).2.1)
    · exact List.forall_mem_flatMap.mpr (List.forall_mem_map.mpr fun c member =>
        call_entry_single source c (told c.name (calls c member)).1.single)

theorem file_report_told {chars : List Char} {root : Node} (source : SourceFile)
    (follows : Grammar.tree? chars = some root)
    (sound : (Visit.unit source.unit).Everywhere (Lower.Sound ⟨chars⟩ root.Has))
    (selection : Selection) (report : FileReport)
    (ok : FileReport.ofSource source selection = .ok report) :
    report.Told chars root source := by
  obtain ⟨same, written⟩ := sound.here.particulars
  have on := (of_source_ok_iff source selection report).mp ok
  have methods : ∀ each ∈ report.methods, ∃ place method,
      (Visit.unit source.unit).at? place = some (.method method) ∧
        methodReport source method = .ok each ∧ each.Told chars root source method := by
    intro each among
    obtain ⟨place, method, stands, reported⟩ :=
      reported_stands source sound selection report ok each among
    exact ⟨place, method, stands, reported,
      method_report_told source follows same method each (sound.below stands) reported⟩
  have publicClass : ∀ name ∈ report.publicClass,
      Word name.toList ∧ ∃ n, root.Has n ∧ name = Lower.Source.nodeLine ⟨chars⟩ n := by
    intro name known
    obtain ⟨type, first, rfl⟩ := Option.map_eq_some_iff.mp (on.publicClass.symm.trans known)
    have inside : Visit.type type ∈ (Visit.unit source.unit).parts :=
      List.mem_map_of_mem (List.mem_of_find?_eq_some first)
    have named := (sound.inner _ inside).here.names type.name (List.mem_singleton_self _)
    exact Lower.named_after_told follows named
  refine { package := fun name known => ?_, publicClass, methods, lines := ?_ }
  · obtain ⟨d, declared, rfl⟩ : ∃ d, source.unit.package = some d ∧ d.name = name := by
      have found := on.package.symm.trans known
      unfold SourceFile.packageName at found
      split at found <;> cases found
      exact ⟨_, ‹_›, rfl⟩
    obtain ⟨n, has, kind, text⟩ := written d declared
    refine ⟨n, has, kind, text, ?_⟩
    rw [← Lower.compact_told follows has, Lower.Source.compact, text]
  · refine List.forall_mem_append.mpr ⟨fun name known => ?_, List.forall_mem_flatMap.mpr ?_⟩
    · exact (publicClass name (Option.mem_toList.mp known)).1.single
    · intro each among
      obtain ⟨_, _, _, _, told⟩ := methods each among
      exact told.lines

/-- The one-line form has single spaces between characters that are not blank and keeps these; a text
in it is left as it is, and blanks of whatever number and sort between two texts come to one space.
So all types that are kept in the outline of a source are on single lines and are told from which
tokens are separated. All texts in reports on it are, too, except for the name of the package, which
is the text of its node. -/
theorem texts_on_one_line :
    (∀ text : String, Tight (oneLine text).toList ∧ oneLine (oneLine text) = oneLine text ∧
      solid (oneLine text).toList = solid text.toList) ∧
    (∀ first gap second : String, gap ≠ "" → (∀ c ∈ gap.toList, isBlank c = true) →
      oneLine (first ++ gap ++ second) = joined (oneLine first) (oneLine second)) ∧
    ∀ (path : String) (chars : List Char) (limit : Nat) (source : SourceFile),
      CompilationUnit.read path chars limit = .ok source.unit →
      ∃ root, Grammar.tree? chars = some root ∧
        (∀ n, root.Has n →
          Lower.Source.compact ⟨chars⟩ n = Lower.Source.nodeLine ⟨chars⟩ n) ∧
        (∀ place visit, (Visit.unit source.unit).at? place = some visit →
          ∀ text ∈ visit.types, SingleLine text ∧
            Lower.Phrase (Lower.Source.nodeLine ⟨chars⟩) root.Has text) ∧
        ∀ selection report, FileReport.ofSource source selection = .ok report →
          report.Told chars root source := by
  refine ⟨fun text => ⟨one_line_tight text, one_line_again text, one_line_solid text⟩,
    one_line_gap, fun path chars limit source accepted => ?_⟩
  obtain ⟨root, follows, sound⟩ := read_sound path chars limit source.unit accepted
  exact ⟨root, follows, fun n has => Lower.compact_told follows has,
    fun place visit stands => Lower.types_told follows (sound place visit stands),
    fun selection report ok => file_report_told source follows sound selection report ok⟩

def spreadMethod : String :=
  "class T\x7bint\n[ ] m(java . util\n.List <A >\ta)\x7bA\n[]x=f( 1,\n\n2);return a\n .b\n();\x7d\x7d"

set_option maxRecDepth 100000 in
theorem spread_method_on_one_line :
    oneLine ("a " ++ "\n \t" ++ " b") = joined "a" "b" ∧
      ∃ source whole report root visit,
        SourceFile.ofText "T.java" spreadMethod 8 = .ok source ∧
          FileReport.ofSource source ⟨none, true⟩ = .ok whole ∧ whole.methods = [report] ∧
          report.signature = "m(java . util .List <A >)" ∧
          report.expressions.map ExpressionEntry.text = ["A []x=f( 1, 2)", "a .b ()"] ∧
          report.declarations.map DeclarationEntry.initializer = [some "f( 1, 2)"] ∧
          report.calls.map CallEntry.scope = [none, some "a"] ∧
          whole.Told spreadMethod.toList root source ∧
          (Visit.unit source.unit).at? [0, 0, 0] = some visit ∧
          visit.types = ["int [ ]", "java . util .List <A >"] ∧
          ∀ text ∈ visit.types, SingleLine text := by
  have run : ((SourceFile.ofText "T.java" spreadMethod 8).toOption.any fun source =>
      (((Visit.unit source.unit).at? [0, 0, 0]).any fun visit =>
        visit.types == ["int [ ]", "java . util .List <A >"]) &&
      (FileReport.ofSource source ⟨none, true⟩).toOption.any fun whole =>
        whole.methods.length == 1 && whole.methods.all fun report =>
          report.signature == "m(java . util .List <A >)" &&
            report.expressions.map ExpressionEntry.text == ["A []x=f( 1, 2)", "a .b ()"] &&
            report.declarations.map DeclarationEntry.initializer == [some "f( 1, 2)"] &&
            report.calls.map CallEntry.scope == [none, some "a"]) = true := by decide +kernel
  obtain ⟨source, found, inside⟩ := (Option.any_eq_true _ _).mp run
  obtain ⟨typed, reports⟩ := (Bool.and_eq_true _ _).mp inside
  obtain ⟨visit, stands, types⟩ := (Option.any_eq_true _ _).mp typed
  obtain ⟨whole, made, passes⟩ := (Option.any_eq_true _ _).mp reports
  have opened := ok_of_option found
  have reports := ok_of_option made
  simp only [Bool.and_eq_true, beq_iff_eq] at passes
  obtain ⟨report, only⟩ := List.length_eq_one_iff.mp passes.1
  simp only [only, List.all_cons, List.all_nil, Bool.and_true, Bool.and_eq_true,
    beq_iff_eq] at passes
  obtain ⟨_, ⟨⟨signature, expressions⟩, initializers⟩, scopes⟩ := passes
  obtain ⟨_, gaps, sources⟩ := texts_on_one_line
  obtain ⟨accepted, _⟩ := of_text_read _ _ 8 source opened
  obtain ⟨root, _, _, known, told⟩ := sources _ _ 8 source accepted
  have gap := gaps "a " "\n \t" " b" (by decide) (List.all_eq_true.mp rfl)
  refine ⟨gap, source, whole, report, root, visit, opened, reports, only, signature, expressions,
    initializers, scopes, told _ whole reports, stands, beq_iff_eq.mp types, fun text member => ?_⟩
  exact (known _ visit stands text member).1

def brokenPackage : String :=
  "package a .\n   b;\nclass T\x7b\x7d"

set_option maxRecDepth 100000 in
theorem broken_package_reported :
    ∃ source report name, SourceFile.ofText "T.java" brokenPackage = .ok source ∧
      FileReport.ofSource source ⟨none, true⟩ = .ok report ∧ report.package = some name ∧
      name = "a .\n   b" ∧ ¬ SingleLine name ∧ oneLine name = "a . b" := by
  have run : ((SourceFile.ofText "T.java" brokenPackage).toOption.any fun source =>
      (FileReport.ofSource source ⟨none, true⟩).toOption.any fun report =>
        report.package == some "a .\n   b") = true := by decide +kernel
  obtain ⟨source, found, inside⟩ := (Option.any_eq_true _ _).mp run
  obtain ⟨report, made, package⟩ := (Option.any_eq_true _ _).mp inside
  exact ⟨source, report, _, ok_of_option found, ok_of_option made, beq_iff_eq.mp package, rfl,
    by decide, by decide⟩

end Report

end JavaOutline
