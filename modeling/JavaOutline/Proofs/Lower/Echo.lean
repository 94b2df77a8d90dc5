import JavaOutline.Lower.Unit
import JavaOutline.Proofs.Grammar.Ranges
import JavaOutline.Proofs.Lower.Subjects
import JavaOutline.Proofs.Lower.Yields
import JavaOutline.Proofs.Walk.Nesting

/-!
Outlines echo the trees they are made from: an outline holds the calls, assignments and statements
of the nodes that it was asked for, its blocks come from blocks of the tree, and its spans nest as
the nodes do. Lowering asks for nodes of the tree alone, and what it looks for is there, with one
exception: a label before a lone semicolon.
-/
namespace JavaOutline.Lower

open JavaOutline.Tree
open JavaOutline.Grammar
open JavaOutline.Walk

def Ask.told : Ask → List Node
  | .statement n => [n]
  | .expression _ | .type _ _ => []

def voiced : Sorts := ⟨expressionRules ++ [.arrayInitializer, .guard], some []⟩

/-- The outline of what is asked for must hold the same of the subject. -/
def Fair (source : Source) (subject : Subject) : Ask → Prop
  | .expression n =>
    source.Exposed subject n ∧ (voiced.admits n.kind = true ∨ n.Hushed subject)
  | .statement n | .type n _ => source.Exposed subject n

/-- The block comes from a block of the tree, and both hold the same. -/
def Anchored (source : Source) (root : Node) (b : Block) : Prop :=
  ∃ m, root.Has m ∧ (m.is .block = true ∨ m.is .constructorBody = true) ∧
    source.span m = b.span ∧ ∀ subject, source.Exposed subject m →
      ((Visit.block b).heard subject).Perm (source.sounds subject m)

/-- The visits hold what the nodes hold, and those that were told are statements; the blocks among
them come from the tree, and they nest where the nodes lie. -/
structure Echoes (source : Source) (root : Node) (given : Subject → Prop) (visits : List Visit)
    (nodes : List Node) (told : List Node := []) : Prop where
  same : ∀ subject, given subject → (visits.flatMap (Visit.heard subject)).Perm
    (nodes.flatMap (source.sounds subject) ++ source.spoken subject told)
  blocks : ∀ visit ∈ visits, ∀ place b, visit.at? place = some (.block b) → Anchored source root b
  nests : ∀ low high, Lies low nodes high → Nests low visits high

structure Sits (root n : Node) : Prop where
  has : root.Has n
  firm : n.Throughout (Firm [])
  solid : n.isComment = false

def BareLabel (n : Node) : Prop :=
  n.is .labeledStatement = true ∧ ∃ child ∈ n.children, child.kind = .token ";"

/-- Nodes of the tree may be asked for, and their outlines echo them. -/
def echoing (source : Source) (root : Node) : Contract where
  asks := fun request => Sits root request.node ∧
    match request with
    | .expression _ => True
    | .statement n => stated.admits n.kind = true
    | .type n kind => typeKind? n = some kind
  answers := fun request found =>
    Echoes source root (fun subject => Fair source subject request) [request.visit found]
      [request.node] request.told
  faults := fun reason => ∃ n, root.Has n ∧ BareLabel n ∧ reason = source.missing n "statement"

variable {source : Source} {root : Node} {given : Subject → Prop}

namespace Echoes

theorem nil : Echoes source root given [] [] :=
  ⟨fun _ _ => by simp, List.forall_mem_nil _, fun _ _ => Nests.nil⟩

theorem append {first second : List Visit} {nodes others told more : List Node}
    (one : Echoes source root given first nodes told)
    (two : Echoes source root given second others more) :
    Echoes source root given (first ++ second) (nodes ++ others) (told ++ more) where
  same := by
    intro subject holds
    rw [List.flatMap_append, List.flatMap_append, source.spoken_append, List.append_assoc]
    -- The statements told first have to get past the nodes that come next.
    refine ((one.same subject holds).append (two.same subject holds)).trans ?_
    rw [List.append_assoc]
    exact List.perm_append_comm_assoc .. |>.append_left _
  blocks := List.forall_mem_append.mpr ⟨one.blocks, two.blocks⟩
  nests := by
    intro low high lies
    obtain ⟨between, before, behind⟩ := lies.split
    exact (one.nests low between before).append (two.nests between high behind)

theorem cons {first : Visit} {second : List Visit} {nodes others told more : List Node}
    (one : Echoes source root given [first] nodes told)
    (two : Echoes source root given second others more) :
    Echoes source root given (first :: second) (nodes ++ others) (told ++ more) :=
  one.append two

theorem weaken {visits : List Visit} {nodes told : List Node} {stronger : Subject → Prop}
    (echoes : Echoes source root given visits nodes told)
    (order : ∀ subject, stronger subject → given subject) :
    Echoes source root stronger visits nodes told :=
  ⟨fun subject holds => echoes.same subject (order subject holds), echoes.blocks, echoes.nests⟩

theorem moved {visits : List Visit} {nodes others told more : List Node}
    (echoes : Echoes source root given visits nodes told)
    (equal : ∀ subject, given subject →
      (nodes.flatMap (source.sounds subject) ++ source.spoken subject told).Perm
        (others.flatMap (source.sounds subject) ++ source.spoken subject more))
    (room : ∀ low high, Lies low others high → Lies low nodes high) :
    Echoes source root given visits others more where
  same := fun subject holds => (echoes.same subject holds).trans (equal subject holds)
  blocks := echoes.blocks
  nests := fun low high lies => echoes.nests low high (room low high lies)

theorem block_places (whole : Visit) (own : ∀ b, whole = .block b → Anchored source root b)
    (inner : ∀ part ∈ whole.parts, ∀ place b, part.at? place = some (.block b) →
      Anchored source root b) (place : Walk.Place) (b : Block)
    (stands : whole.at? place = some (.block b)) : Anchored source root b := by
  cases place with
  | nil => exact own b (Option.some.inj stands)
  | cons index rest =>
      obtain ⟨part, atIndex, inPart⟩ := Option.bind_eq_some_iff.mp stands
      exact inner part (List.mem_of_getElem? atIndex) rest b inPart

theorem free_nests {whole : Visit} {nodes told : List Node} (free : whole.bounds? = none)
    (inner : Echoes source root given whole.parts nodes told) (low high : Nat)
    (lies : Lies low nodes high) : Nests low [whole] high :=
  .free free (inner.nests low high lies) (.nil (Nat.le_refl high))

theorem bounded_nests {whole : Visit} {n : Node} {told : List Node}
    (bounds : whole.bounds? = some (source.span n))
    (inner : Echoes source root given whole.parts [n] told) (low high : Nat)
    (lies : Lies low [n] high) : Nests low [whole] high :=
  have room : Lies n.start [n] n.stop := ⟨Nat.le_refl _, lies.2.1, Nat.le_refl _⟩
  .bounded bounds lies.1 lies.2.1 (inner.nests n.start n.stop room) (.nil lies.2.2)

theorem framed {whole : Visit} {nodes told : List Node} (apart : ∀ b, whole ≠ .block b)
    (own : ∀ subject, (subject.span? whole).toList = source.spoken subject told)
    (inner : Echoes source root given whole.parts nodes)
    (nests : ∀ low high, Lies low nodes high → Nests low [whole] high) :
    Echoes source root given [whole] nodes told where
  same := by
    intro subject holds
    have parts := inner.same subject holds
    rw [source.spoken_nil, List.append_nil] at parts
    simp only [List.flatMap_cons, List.flatMap_nil, List.append_nil]
    rw [whole.heard_parts, own subject]
    exact parts.append_right _
  blocks := List.forall_mem_singleton.mpr
    (block_places whole (fun b same => absurd same (apart b)) inner.blocks)
  nests := nests

def Unmarked (whole : Visit) : Prop :=
  whole.Plain ∧ whole.statement? = none

theorem Unmarked.nothing {whole : Visit} (unmarked : Unmarked whole) (subject : Subject) :
    (subject.span? whole).toList = source.spoken subject [] := by
  obtain ⟨⟨call, assignment⟩, statement⟩ := unmarked
  rcases subject with (_ | _) | _ <;>
    simp [Subject.span?, Deed.span?, Source.spoken, call, assignment, statement]

theorem bounded {whole : Visit} {n : Node} (unmarked : Unmarked whole)
    (apart : ∀ b, whole ≠ .block b) (bounds : whole.bounds? = some (source.span n))
    (inner : Echoes source root given whole.parts [n]) :
    Echoes source root given [whole] [n] :=
  framed apart unmarked.nothing inner (bounded_nests bounds inner)

theorem whole {whole : Visit} {nodes : List Node} (unmarked : Unmarked whole)
    (apart : ∀ b, whole ≠ .block b) (free : whole.bounds? = none)
    (inner : Echoes source root given whole.parts nodes) :
    Echoes source root given [whole] nodes :=
  framed apart unmarked.nothing inner (free_nests free inner)

theorem block {b : Block} {n : Node} (has : root.Has n)
    (sort : n.is .block = true ∨ n.is .constructorBody = true) (span : source.span n = b.span)
    (inner : Echoes source root (fun subject => source.Exposed subject n) (Visit.block b).parts
      [n]) :
    Echoes source root (fun subject => source.Exposed subject n) [.block b] [n] := by
  have same (subject : Subject) (exposed : source.Exposed subject n) :
      ((Visit.block b).heard subject).Perm (source.sounds subject n) := by
    have none : (subject.span? (.block b)).toList = [] := by
      rcases subject with (_ | _) | _ <;> rfl
    rw [(Visit.block b).heard_parts, none, List.append_nil]
    simpa using inner.same subject exposed
  refine ⟨fun subject exposed => by simpa using same subject exposed,
    List.forall_mem_singleton.mpr ?_, free_nests rfl inner⟩
  refine block_places _ ?_ inner.blocks
  rintro _ ⟨⟩
  exact ⟨n, has, sort, span, same⟩

theorem expression {kind : ExpressionKind} {n : Node}
    (inner : Echoes source root given kind.parts [n]) :
    Echoes source root given [.expression ⟨kind, source.span n⟩] [n] :=
  bounded ⟨⟨rfl, rfl⟩, rfl⟩ (by rintro _ ⟨⟩) rfl inner

theorem statement {kind : StatementKind} {n : Node}
    (inner : Echoes source root given kind.parts [n]) :
    Echoes source root given [.statement ⟨kind, source.span n⟩] [n] [n] := by
  refine framed (by rintro _ ⟨⟩) ?_ inner (bounded_nests rfl inner)
  rintro ((_ | _) | _) <;> rfl

end Echoes

/-- The children with one of the traits, trait by trait. -/
def picks (n : Node) : List Trait → List Node
  | [] => []
  | [trait] => picked n trait
  | trait :: rest => picked n trait ++ picks n rest

theorem picks_flat (n : Node) (traits : List Trait) :
    picks n traits = traits.flatMap (picked n) := by
  induction traits with
  | nil => rfl
  | cons trait rest ih =>
      cases rest with
      | nil => simp [picks]
      | cons other others =>
          rw [picks, ih]
          · simp
          · simp

structure Stands (source : Source) (root : Node) (given : Subject → Prop) (n : Node) : Prop
    extends Sits root n where
  laid : WellLaid root
  exposed : ∀ subject, given subject → source.Exposed subject n

namespace Stands

variable {n m : Node} {r : Rule} (stands : Stands source root given n)
include stands

theorem own : Laid n :=
  stands.laid n stands.has

theorem goes (kind : n.kind = .rule r) : Goes (layouts r) n :=
  stands.own.rule r kind

theorem child (member : m ∈ n.solid) : Stands source root given m := by
  obtain ⟨inside, solid⟩ := List.mem_filter.mp member
  have below : n.Has m := .deeper inside (.self m)
  exact ⟨⟨stands.has.trans below, stands.firm.child inside, by simpa using solid⟩, stands.laid,
    fun subject holds => (stands.exposed subject holds).below below⟩

theorem picked {trait : Trait} (member : m ∈ picked n trait) : Stands source root given m :=
  stands.child (List.mem_of_mem_filter member)

theorem inside {nodes : List Node} (some : nodes.Sublist n.solid) (low high : Nat)
    (lies : Lies low [n] high) : Lies low nodes high :=
  ((stands.firm.here.ordered.sublist some).weaken lies.1).widen lies.2.2

/-- What can be found among the children echoes them all, if nothing is passed over. -/
theorem children {alternatives : List Layout} (goes : Goes alternatives n) (traits : List Trait)
    {visits : List Visit} {told : List Node}
    (echoes : Echoes source root given visits (picks n traits) told)
    (found : (Source.coveredBy alternatives traits && hasOrder alternatives traits) = true) :
    Echoes source root given visits n.solid told := by
  obtain ⟨covered, ordered⟩ := (Bool.and_eq_true _ _).mp found
  rw [picks_flat] at echoes
  refine echoes.moved (fun subject holds => List.Perm.append_right _ ?_) fun low high lies =>
    lies.sublist (picked_ordered goes traits ordered)
  exact source.picked_sounds n alternatives traits (stands.laid.below stands.has)
    (stands.exposed subject holds) goes covered

omit stands in
theorem untold (kind : n.kind = .rule r) (quiet : (statementTraits r).isEmpty = true) :
    n.statements = [] := by
  have none : n.states = fun _ => false := by
    funext child
    simp [Node.states, kind, List.isEmpty_iff.mp quiet]
  rw [Node.statements, none, List.filter_false]

-- The one kind of node where the tree itself counts: a call or an assignment.
theorem deed {whole : Visit} (kind : n.kind = .rule r) (apart : ∀ b, whole ≠ .block b)
    (free : whole.bounds? = none)
    (own : ∀ subject : Subject, (subject.span? whole).toList =
      if subject.marks n then [source.span n] else [])
    (inner : Echoes source root given whole.parts n.solid)
    (found : (!annotationRules.contains r && (statementTraits r).isEmpty) = true) :
    Echoes source root given [whole] [n] where
  same := by
    intro subject holds
    obtain ⟨apart, quiet⟩ := (Bool.and_eq_true _ _).mp found
    have plain : n.annotates = false := by
      simpa [Node.annotates, Node.is, kind, annotationRules] using apart
    have parts := source.sounds_solid subject n (stands.laid.below stands.has) plain
    have below := inner.same subject holds
    rw [untold kind quiet] at parts
    simp only [Source.spoken_nil, List.append_nil, List.flatMap_cons, List.flatMap_nil] at *
    rw [whole.heard_parts, own subject]
    exact (below.append_right _).trans (List.perm_append_comm.trans parts.symm)
  blocks := List.forall_mem_singleton.mpr
    (Echoes.block_places whole (fun b same => absurd same (apart b)) inner.blocks)
  nests := fun low high lies =>
    Echoes.free_nests free inner low high (stands.inside (List.Sublist.refl _) low high lies)

def undone (r : Rule) : Bool :=
  !(.methodInvocation :: .assignmentExpression :: annotationRules).contains r

theorem undone_children (kind : n.kind = .rule r) (plain : undone r = true) (subject : Subject) :
    (source.sounds subject n).Perm
      (n.solid.flatMap (source.sounds subject) ++ source.spoken subject n.statements) := by
  have apart : n.annotates = false ∧ subject.marks n = false := by
    simp only [undone, annotationRules, Bool.not_eq_true', List.contains_eq_mem,
      decide_eq_false_iff_not] at plain
    rcases subject with (_ | _) | _ <;>
      simp_all [Node.annotates, Node.is, Deed.rule, Subject.marks]
  have parts := source.sounds_solid subject n (stands.laid.below stands.has) apart.1
  simpa [apart.2] using parts

theorem around_told (kind : n.kind = .rule r) {visits : List Visit} {told : List Node}
    (echoes : Echoes source root given visits n.solid told) (same : told.Perm n.statements)
    (plain : undone r = true) : Echoes source root given visits [n] := by
  refine echoes.moved (fun subject _ => ?_) (stands.inside (List.Sublist.refl _))
  have parts := stands.undone_children kind plain subject
  rw [List.flatMap_singleton, Source.spoken_nil, List.append_nil]
  exact ((source.spoken_perm subject same).append_left _).trans parts.symm

def bare (r : Rule) : Bool :=
  undone r && (statementTraits r).isEmpty

theorem around (kind : n.kind = .rule r) {visits : List Visit}
    (echoes : Echoes source root given visits n.solid) (plain : bare r = true) :
    Echoes source root given visits [n] := by
  obtain ⟨plain, quiet⟩ := (Bool.and_eq_true _ _).mp plain
  refine stands.around_told kind echoes ?_ plain
  rw [untold kind quiet]

/-- The children with the traits are all that is looked for below the nodes of the rule. -/
def covers (r : Rule) (traits : List Trait) : Bool :=
  undone r && (Source.coveredBy (layouts r) traits && hasOrder (layouts r) traits)

def serves (r : Rule) (traits : List Trait) : Bool :=
  (statementTraits r).isEmpty && covers r traits

theorem made_of_told (kind : n.kind = .rule r) (traits : List Trait) {visits : List Visit}
    {told : List Node} (echoes : Echoes source root given visits (picks n traits) told)
    (same : told.Perm n.statements) (found : covers r traits = true) :
    Echoes source root given visits [n] := by
  obtain ⟨plain, found⟩ := (Bool.and_eq_true _ _).mp found
  exact stands.around_told kind (stands.children (stands.goes kind) traits echoes found) same plain

theorem made_of (kind : n.kind = .rule r) (traits : List Trait) {visits : List Visit}
    (echoes : Echoes source root given visits (picks n traits))
    (found : serves r traits = true) : Echoes source root given visits [n] := by
  obtain ⟨quiet, found⟩ := (Bool.and_eq_true _ _).mp found
  refine stands.made_of_told kind traits echoes ?_ found
  rw [untold kind quiet]

theorem vain (kind : n.kind = .rule r) (plain : undone r = true)
    (none : ∀ subject, given subject → source.sounds subject n = []) {trait : Trait}
    {visits : List Visit} (echoes : Echoes source root given visits (Grammar.picked n trait)) :
    Echoes source root given visits [n] := by
  refine echoes.moved (fun subject holds => ?_) (stands.inside List.filter_sublist)
  have empty := none subject holds
  have parts := stands.undone_children kind plain subject
  rw [empty] at parts
  have below := (List.append_eq_nil_iff.mp (List.nil_perm.mp parts)).1
  have nothing : (Grammar.picked n trait).flatMap (source.sounds subject) = [] :=
    List.flatMap_eq_nil_iff.mpr fun m member =>
      List.flatMap_eq_nil_iff.mp below m (List.mem_of_mem_filter member)
  simp [nothing, empty]

omit stands in
theorem silent (none : ∀ subject, given subject → source.sounds subject n = []) :
    Echoes source root given [] [n] :=
  ⟨fun subject holds => by simp [none subject holds], List.forall_mem_nil _,
    fun _ _ lies => .nil lies.order⟩

theorem mute (quiet : Source.mute n.kind = true) : Echoes source root given [] [n] :=
  silent fun _ _ => source.mute_sounds n (stands.laid.below stands.has) quiet

end Stands

theorem picked_statements {n : Node} {r : Rule} {trait : Trait} (kind : n.kind = .rule r)
    (only : statementTraits r = [trait]) : n.statements = picked n trait := by
  refine List.filter_congr fun child _ => ?_
  simp [Node.states, kind, only]

theorem branch_statements {n : Node} (kind : n.kind = .rule .ifStatement) :
    (picked n (.under .consequence) ++ picked n (.under .alternative)).Perm n.statements := by
  have parted := List.filter_append_perm (Trait.fits (.under .consequence)) n.statements
  have yes : n.statements.filter (Trait.fits (.under .consequence)) =
      picked n (.under .consequence) := by
    rw [Node.statements, List.filter_filter]
    refine List.filter_congr fun child _ => ?_
    cases fits : Trait.fits (.under .consequence) child <;>
      simp [Node.states, kind, statementTraits, fits]
  have no : n.statements.filter (fun child => !Trait.fits (.under .consequence) child) =
      picked n (.under .alternative) := by
    rw [Node.statements, List.filter_filter]
    refine List.filter_congr fun child _ => ?_
    by_cases yes : child.label = some .consequence
    · simp [Trait.fits, yes]
    · have other : (child.label == some .consequence) = false := by simpa using yes
      simp [Node.states, kind, statementTraits, Trait.fits, other]
  rwa [yes, no] at parted

theorem named_stated (nodes : List Node)
    (sorts : ∀ m ∈ nodes, m.isNamed = true → stated.admits m.kind = true) :
    nodes.filter (Trait.fits .named) = nodes.filter (Trait.fits (.of stated.rules)) := by
  refine List.filter_congr fun m member => ?_
  have sort := sorts m member
  cases kind : m.kind with
  | token text =>
      rw [Trait.fits_token kind]
      simp [Trait.fits, Node.isNamed, kind]
  | rule r =>
      have among : stated.rules.contains r = true := by
        simpa [Node.isNamed, kind, Sorts.admits] using sort
      rw [Trait.fits_rule kind, among]
      simp [Trait.fits, Node.isNamed, kind]

variable {α β : Type} {n : Node} {r : Rule}

theorem expression_echo (stands : Stands source root given n)
    (fair : ∀ subject, given subject → voiced.admits n.kind = true ∨ n.Hushed subject) :
    Yields (echoing source root) (fun e => Echoes source root given [.expression e] [n])
      (Below.expression n) := by
  refine ⟨⟨stands.toSits, trivial⟩, fun found echoes => echoes.weaken fun subject holds => ?_⟩
  exact ⟨stands.exposed subject holds, fair subject holds⟩

theorem statement_echo (stands : Stands source root given n)
    (sort : stated.admits n.kind = true) :
    Yields (echoing source root) (fun s => Echoes source root given [.statement s] [n] [n])
      (Below.statement n) :=
  ⟨⟨stands.toSits, sort⟩, fun _ echoes => echoes.weaken stands.exposed⟩

theorem type_echo (stands : Stands source root given n) (kind : TypeKind)
    (declares : typeKind? n = some kind) :
    Yields (echoing source root) (fun t => Echoes source root given [.type t] [n])
      (Below.type n kind) :=
  ⟨⟨stands.toSits, declares⟩, fun _ echoes => echoes.weaken stands.exposed⟩

/-- What relates visits to nodes as soon as it relates them piece by piece. -/
structure Joins (relates : List Visit → List Node → Prop) : Prop where
  nil : relates [] []
  append : ∀ first second nodes others, relates first nodes → relates second others →
    relates (first ++ second) (nodes ++ others)

theorem Echoes.joins : Joins fun visits nodes => Echoes source root given visits nodes :=
  ⟨Echoes.nil, fun _ _ _ _ one two => one.append two⟩

theorem Echoes.joins_told : Joins fun visits nodes => Echoes source root given visits nodes nodes :=
  ⟨Echoes.nil, fun _ _ _ _ one two => one.append two⟩

section
variable {relates : List Visit → List Node → Prop} (joins : Joins relates)
include joins

theorem map_echo {lower : Node → Plan α} {visits : α → List Visit} (nodes : List Node)
    (each : ∀ m ∈ nodes, Yields (echoing source root) (fun value => relates (visits value) [m])
      (lower m)) :
    Yields (echoing source root) (fun values => relates (values.flatMap visits) nodes)
      (nodes.mapM lower) := by
  induction nodes with
  | nil => exact Yields.ok [] joins.nil
  | cons m rest ih =>
      obtain ⟨first, others⟩ := List.forall_mem_cons.mp each
      rw [List.mapM_cons]
      refine first.bind fun value own => ?_
      refine (ih others).bind fun values behind => ?_
      exact Yields.ok _ (joins.append _ _ [m] rest own behind)

theorem each_echo {lower : Node → Plan α} {visit : α → Visit} (nodes : List Node)
    (each : ∀ m ∈ nodes, Yields (echoing source root) (fun value => relates [visit value] [m])
      (lower m)) :
    Yields (echoing source root) (fun values => relates (values.map visit) nodes)
      (nodes.mapM lower) := by
  refine (map_echo joins nodes each).mono fun values echoes => ?_
  rwa [← List.map_eq_flatMap] at echoes

theorem optional_echo {lower : Node → Plan α} {visit : α → Visit} (part : Option Node)
    (each : ∀ m ∈ part, Yields (echoing source root) (fun value => relates [visit value] [m])
      (lower m)) :
    Yields (echoing source root) (fun found => relates (found.toList.map visit) part.toList)
      (optional lower part) := by
  cases part with
  | none => exact Yields.ok none joins.nil
  | some m => exact Yields.map _ (each m rfl)

end

theorem fold_echo {step : α → Node → Plan α} {visits : α → List Visit} (nodes : List Node)
    (each : ∀ state m done told, m ∈ nodes → Echoes source root given (visits state) done told →
      Yields (echoing source root)
        (fun next => Echoes source root given (visits next) (done ++ [m]) (told ++ [m]))
        (step state m))
    (start : α) (done told : List Node)
    (holds : Echoes source root given (visits start) done told) :
    Yields (echoing source root)
      (fun last => Echoes source root given (visits last) (done ++ nodes) (told ++ nodes))
      (nodes.foldlM step start) := by
  induction nodes generalizing start done told with
  | nil =>
      rw [List.append_nil, List.append_nil]
      exact Yields.ok start holds
  | cons m rest ih =>
      rw [List.foldlM_cons]
      refine (each start m done told List.mem_cons_self holds).bind fun next own => ?_
      have further := ih (fun state other before seen member =>
        each state other before seen (List.mem_cons_of_mem _ member)) next (done ++ [m])
        (told ++ [m]) own
      rwa [List.append_assoc, List.append_assoc, List.singleton_append] at further

def sole (alternatives : List Layout) (trait : Trait) (sorts : Sorts) : Bool :=
  alwaysHas alternatives trait && hasFew alternatives trait && hasSorts alternatives trait sorts

def single (alternatives : List Layout) (trait : Trait) (sorts : Sorts) : Bool :=
  hasFew alternatives trait && hasSorts alternatives trait sorts

def anySort : Sorts := ⟨everyRule, none⟩

theorem word_kind (text : String) (m : Node) (admits : (word text).admits m = true) :
    m.kind = .token text := by
  have sort := (Slot.admits_split admits).2.1
  cases same : m.kind <;> simp_all [Sorts.admits, word]

section Fields
variable {alternatives : List Layout} (stands : Stands source root given n)
  (goes : Goes alternatives n)
include stands goes

theorem sole_child (trait : Trait) (sorts : Sorts)
    (found : sole alternatives trait sorts = true) :
    ∃ m, picked n trait = [m] ∧ Stands source root given m ∧ sorts.admits m.kind = true := by
  simp only [sole, Bool.and_eq_true] at found
  obtain ⟨m, only⟩ := picked_sole goes trait found.1.1 found.1.2
  have member : m ∈ picked n trait := by simp [only]
  exact ⟨m, only, stands.picked member, picked_sorted goes trait sorts found.2 m member⟩

theorem field_echo (f : Field) (sorts : Sorts)
    (found : sole alternatives (.under f) sorts = true) :
    Yields (echoing source root) (fun m => picked n (.under f) = [m] ∧
        Stands source root given m ∧ sorts.admits m.kind = true) (source.field n f) := by
  obtain ⟨m, only, inside, sort⟩ := sole_child stands goes (.under f) sorts found
  have first : n.get? f = some m := by rw [get_picked stands.own, only, List.head?_cons]
  rw [Source.field, first]
  exact Yields.ok m ⟨only, inside, sort⟩

theorem field_text_echo (f : Field) (text : Node → α)
    (found : sole alternatives (.under f) anySort = true) :
    Yields (echoing source root) (fun _ => True) ((source.field n f).map text) :=
  Yields.map _ ((field_echo stands goes f anySort found).mono fun _ _ => trivial)

theorem field_expression_echo (f : Field)
    (found : sole alternatives (.under f) voiced = true) :
    Yields (echoing source root)
      (fun e => Echoes source root given [.expression e] (picked n (.under f)))
      (fieldExpression source n f) := by
  refine (field_echo stands goes f voiced found).bind fun m ⟨only, inside, sort⟩ => ?_
  rw [only]
  exact expression_echo inside fun _ _ => Or.inl sort

theorem part_echo (text : String)
    (found : sole alternatives .named voiced = true) :
    Yields (echoing source root) (fun m => picked n .named = [m] ∧
        Stands source root given m ∧ voiced.admits m.kind = true)
      (source.require n text n.parts.head?) := by
  obtain ⟨m, only, inside, sort⟩ := sole_child stands goes .named voiced found
  have first : n.parts.head? = some m := by rw [parts_picked, only, List.head?_cons]
  rw [first]
  exact Yields.ok m ⟨only, inside, sort⟩

theorem part_expression_echo (text : String)
    (found : sole alternatives .named voiced = true) :
    Yields (echoing source root)
      (fun e => Echoes source root given [.expression e] (picked n .named))
      (source.require n text n.parts.head? >>= Below.expression) := by
  refine (part_echo stands goes text found).bind fun m ⟨only, inside, sort⟩ => ?_
  rw [only]
  exact expression_echo inside fun _ _ => Or.inl sort

theorem optional_picked_echo {relates : List Visit → List Node → Prop} (joins : Joins relates)
    {lower : Node → Plan α} {visit : α → Visit} (trait : Trait) (sorts : Sorts)
    (found : single alternatives trait sorts = true)
    (each : ∀ m, Stands source root given m → sorts.admits m.kind = true →
      Yields (echoing source root) (fun value => relates [visit value] [m]) (lower m)) :
    Yields (echoing source root)
      (fun found => relates (found.toList.map visit) (picked n trait))
      (optional lower (picked n trait).head?) := by
  obtain ⟨few, sorted⟩ := (Bool.and_eq_true _ _).mp found
  have found := optional_echo joins (picked n trait).head? fun m member =>
    have inside := List.mem_of_mem_head? member
    each m (stands.picked inside) (picked_sorted goes trait sorts sorted m inside)
  rwa [head_all goes trait few] at found

theorem optional_field_echo {relates : List Visit → List Node → Prop} (joins : Joins relates)
    {lower : Node → Plan α} {visit : α → Visit} (f : Field) (sorts : Sorts)
    (found : single alternatives (.under f) sorts = true)
    (each : ∀ m, Stands source root given m → sorts.admits m.kind = true →
      Yields (echoing source root) (fun value => relates [visit value] [m]) (lower m)) :
    Yields (echoing source root)
      (fun found => relates (found.toList.map visit) (picked n (.under f)))
      (optional lower (n.get? f)) := by
  rw [get_picked stands.own]
  exact optional_picked_echo stands goes joins (.under f) sorts found each

theorem optional_expression_echo (f : Field)
    (found : single alternatives (.under f) voiced = true) :
    Yields (echoing source root)
      (fun e => Echoes source root given (e.toList.map Visit.expression) (picked n (.under f)))
      (optional Below.expression (n.get? f)) :=
  optional_field_echo stands goes Echoes.joins f voiced found
    fun _ inside sort => expression_echo inside fun _ _ => Or.inl sort

theorem optional_part_echo (found : single alternatives .named voiced = true) :
    Yields (echoing source root)
      (fun e => Echoes source root given (e.toList.map Visit.expression) (picked n .named))
      (optional Below.expression n.parts.head?) := by
  rw [parts_picked]
  exact optional_picked_echo stands goes Echoes.joins .named voiced found
    fun _ inside sort => expression_echo inside fun _ _ => Or.inl sort

theorem list_cases (f : Field) (r : Rule)
    (found : single alternatives (.under f) (onlyRule r) = true) :
    (n.get? f = none ∧ picked n (.under f) = []) ∨
      ∃ list, n.get? f = some list ∧ picked n (.under f) = [list] ∧
        Stands source root given list ∧ list.kind = .rule r := by
  obtain ⟨few, sorted⟩ := (Bool.and_eq_true _ _).mp found
  have all := head_all goes (.under f) few
  rw [get_picked stands.own]
  cases first : (picked n (.under f)).head? with
  | none =>
      rw [first] at all
      exact Or.inl ⟨rfl, all.symm⟩
  | some list =>
      rw [first] at all
      have member := List.mem_of_mem_head? first
      exact Or.inr ⟨list, rfl, all.symm, stands.picked member,
        only_rule _ _ (picked_sorted goes _ _ sorted list member)⟩

theorem picked_expressions_echo (trait : Trait)
    (sorted : hasSorts alternatives trait voiced = true) :
    Yields (echoing source root)
      (fun es => Echoes source root given (es.map Visit.expression) (picked n trait))
      ((picked n trait).mapM Below.expression) :=
  each_echo Echoes.joins (picked n trait) fun m member => expression_echo (stands.picked member)
    fun _ _ => Or.inl (picked_sorted goes trait voiced sorted m member)

theorem picked_statements_echo (trait : Trait)
    (sorted : hasSorts alternatives trait stated = true) :
    Yields (echoing source root)
      (fun found => Echoes source root given (found.map Visit.statement) (picked n trait)
        (picked n trait))
      ((picked n trait).mapM Below.statement) :=
  each_echo Echoes.joins_told (picked n trait) fun m member => statement_echo (stands.picked member)
    (picked_sorted goes trait stated sorted m member)

end Fields

end JavaOutline.Lower
