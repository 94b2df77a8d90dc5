import JavaOutline.Proofs.Lower.Told

/-!
What outlines keep of concrete trees: calls, assignments and statements. All three are put together
in the same way, from the node itself, what its children hold and which of them are statements.
Where the children of a node that can hold something are all picked once, the picked ones hold what
the node holds.
-/
namespace JavaOutline

open Walk

inductive Subject where
  | deed (deed : Deed)
  | statement

abbrev Subject.call : Subject :=
  .deed .call

abbrev Subject.assignment : Subject :=
  .deed .assignment

def Subject.span? : Subject → Visit → Option Span
  | .deed d, visit => d.span? visit
  | .statement, visit => visit.statement?.map Statement.span

def Subject.marks : Subject → Tree.Node → Bool
  | .deed d, n => n.is d.rule
  | .statement, _ => false

/-- The spans of what is kept at and below a node of an outline, inner ones first. -/
def Walk.Visit.heard (subject : Subject) (whole : Visit) : List Span :=
  ((whole.tree.listed Join.behind).map Prod.snd).filterMap subject.span?

theorem Walk.Visit.heard_parts (subject : Subject) (whole : Visit) :
    whole.heard subject =
      whole.parts.flatMap (Visit.heard subject) ++ (subject.span? whole).toList := by
  have last : List.filterMap subject.span? [whole] = (subject.span? whole).toList := by
    cases same : subject.span? whole <;> simp [same]
  rw [Visit.heard, Visit.tree_unfolds.nodes_behind whole, List.filterMap_append,
    List.filterMap_flatMap, last]
  rfl

end JavaOutline

namespace JavaOutline.Tree.Node

open JavaOutline.Lower

def statements (n : Node) : List Node :=
  n.solid.filter n.states

def Hushed : Subject → Node → Prop
  | .deed deed, n => n.Silent deed
  | .statement, n => n.Wordless

theorem Hushed.below {subject : Subject} {n m : Node} (hushed : n.Hushed subject)
    (has : n.Has m) : m.Hushed subject := by
  cases subject with
  | deed deed => exact Silent.below hushed has
  | statement => exact Wordless.below hushed has

end JavaOutline.Tree.Node

namespace JavaOutline.Lower

open JavaOutline.Tree
open JavaOutline.Grammar

namespace Source

variable (source : Source) {subject : Subject}

/-- The spans of what is kept below a node of a tree, and at the node unless it is a statement. -/
def sounds : Subject → Node → List Span
  | .deed deed, n => source.deeds deed n
  | .statement, n => source.told false n

def spoken : Subject → List Node → List Span
  | .deed _, _ => []
  | .statement, nodes => nodes.map source.span

@[simp]
theorem spoken_nil (subject : Subject) : source.spoken subject [] = [] := by
  cases subject <;> rfl

theorem spoken_append (subject : Subject) (nodes others : List Node) :
    source.spoken subject (nodes ++ others) =
      source.spoken subject nodes ++ source.spoken subject others := by
  cases subject <;> simp [spoken]

theorem spoken_perm (subject : Subject) {nodes others : List Node} (same : nodes.Perm others) :
    (source.spoken subject nodes).Perm (source.spoken subject others) := by
  cases subject with
  | deed deed => exact List.Perm.refl _
  | statement => exact same.map _

theorem sounds_children (subject : Subject) (n : Node) (plain : n.annotates = false) :
    (source.sounds subject n).Perm ((if subject.marks n then [source.span n] else []) ++
      (n.children.flatMap (source.sounds subject) ++
        source.spoken subject (n.children.filter n.states))) := by
  cases subject with
  | deed deed =>
      simp only [sounds, Subject.marks, spoken, List.append_nil]
      rw [source.deeds_children n plain]
      exact List.Perm.refl _
  | statement =>
      have own (nodes : List Node) : (nodes.filter n.states).map source.span =
          nodes.flatMap fun child => if n.states child then [source.span child] else [] := by
        induction nodes with
        | nil => rfl
        | cons child rest ih => by_cases states : n.states child = true <;> simp [states, ih]
      have parted := List.flatMap_append_perm n.children
        (fun child => if n.states child then [source.span child] else []) (source.told false)
      simp only [sounds, Subject.marks, spoken, Bool.false_eq_true, ↓reduceIte, List.nil_append]
      rw [source.told_children false n plain, own]
      simp only [Bool.false_and, Bool.or_false]
      exact parted.symm.trans List.perm_append_comm

theorem annotating_sounds (n : Node) (annotating : n.annotates = true) :
    source.sounds subject n = [] := by
  cases subject with
  | deed deed => exact source.annotating_deeds n annotating
  | statement => exact source.annotating_told false n annotating

theorem hushed_sounds (n : Node) (hushed : n.Hushed subject) : source.sounds subject n = [] := by
  cases subject with
  | deed deed => exact source.silent_deeds n hushed
  | statement =>
      show source.told false n = []
      induction n using Node.induction with
      | step n below =>
          by_cases annotating : n.annotates = true
          · exact source.annotating_told false n annotating
          · rw [source.told_children false n (by simpa using annotating)]
            refine List.flatMap_eq_nil_iff.mpr fun child member => ?_
            have none : n.states child = false := by
              simpa using List.all_eq_true.mp (hushed n (.self n)) child member
            have inner := below child member (hushed.below (.deeper member (.self child)))
            simp [none, inner]

/-- Nothing of the subject stands at the node or below it where an outline leaves it out, or takes
something else for an expression. -/
def Exposed : Subject → Node → Prop
  | .deed deed, n => source.Clear deed n
  | .statement, n => source.Unveiled n

section
variable {source} {n m : Node} (exposed : source.Exposed subject n)
include exposed

theorem Exposed.below (has : n.Has m) : source.Exposed subject m := by
  cases subject with
  | deed deed => exact Clear.below exposed has
  | statement => exact fun other inside => exposed other (has.trans inside)

theorem Exposed.veils (veil : veiled.any n.is = true) : source.sounds subject n = [] := by
  cases subject with
  | deed deed => exact (exposed n (.self n)).veils veil
  | statement => exact (exposed n (.self n)).veils veil

theorem Exposed.sizes (size : n.is .dimensionsExpr = true)
    (noted : n.children.any Node.annotates = true) : n.Hushed subject := by
  cases subject with
  | deed deed => exact (exposed n (.self n)).sizes size noted
  | statement => exact (exposed n (.self n)).sizes size noted

theorem Exposed.shown (shows : (n.is .switchLabel || n.is .methodReference) = true)
    (member : m ∈ n.children) (sort : (.pattern :: typeRules).any m.is = true) :
    m.Hushed subject := by
  cases subject with
  | deed deed => exact (exposed n (.self n)).shown shows m member sort
  | statement => exact (exposed n (.self n)).shown shows m member sort

end

def muteRules : List Rule :=
  quietRules ++ annotationRules ++ commentRules

def mute : Kind → Bool
  | .rule r => muteRules.contains r
  | .token _ => true

set_option maxRecDepth 100000 in
theorem mute_layouts : ∀ r ∈ quietRules ++ commentRules, ∀ layout ∈ layouts r,
    ∀ slot ∈ slotsOf layout, ∀ own ∈ slot.sorts.rules, own ∈ muteRules := by
  have checked : ((quietRules ++ commentRules).all fun r => (layouts r).all fun layout =>
      (slotsOf layout).all fun slot => slot.sorts.rules.all muteRules.contains) = true := by
    decide
  simpa only [List.all_eq_true, List.contains_iff_mem] using checked

theorem mute_comment (n : Node) (comment : n.isComment = true) : mute n.kind = true := by
  rcases Node.comment_kind comment with kind | kind <;> (rw [kind]; decide)

theorem mute_children (n : Node) (laid : Laid n) (own : mute n.kind = true)
    (plain : n.annotates = false) : ∀ child ∈ n.children, mute child.kind = true := by
  intro child member
  by_cases comment : child.isComment = true
  · exact mute_comment child comment
  · have inside : child ∈ n.solid := List.mem_filter.mpr ⟨member, by simpa using comment⟩
    cases kind : n.kind with
    | token text =>
        rw [laid.token text kind] at inside
        cases inside
    | rule r =>
        obtain ⟨layout, among, accepts⟩ := laid.rule r kind
        obtain ⟨slot, stands, admits⟩ := accepts_slots layout n.solid accepts child inside
        have sort := (Slot.admits_split admits).2.1
        cases sorted : child.kind with
        | token text => rfl
        | rule other =>
            have quiet : r ∈ quietRules ++ commentRules := by
              simp only [mute, kind, muteRules, List.contains_iff_mem, List.mem_append] at own
              simp only [Node.annotates, Node.is, kind] at plain
              simp only [annotationRules, List.mem_cons, List.not_mem_nil, or_false] at own
              rcases own with (quiet | rfl | rfl) | comment
              · exact List.mem_append_left _ quiet
              · simp at plain
              · simp at plain
              · exact List.mem_append_right _ comment
            have stays := mute_layouts r quiet layout among slot stands other
              (by simpa [sorted, Sorts.admits] using sort)
            simpa [mute] using stays

theorem mute_apart (subject : Subject) (n child : Node) (own : mute n.kind = true) :
    subject.marks n = false ∧ n.states child = false := by
  cases kind : n.kind with
  | token text => cases subject <;> simp [Subject.marks, Node.states, Node.is, kind]
  | rule r =>
      rw [kind] at own
      have among : r ∈ muteRules := by simpa [mute] using own
      have silent : ∀ r ∈ muteRules, (statementTraits r).isEmpty = true := by decide
      have none : statementTraits r = [] := List.isEmpty_iff.mp (silent r among)
      refine ⟨?_, by simp [Node.states, kind, none]⟩
      cases subject with
      | statement => rfl
      | deed deed =>
          have apart : deed.rule ∉ muteRules := by cases deed <;> decide
          have other : r ≠ deed.rule := by
            rintro rfl
            exact apart among
          simpa [Subject.marks, Node.is, kind] using other

theorem mute_sounds (n : Node) (laid : WellLaid n) (own : mute n.kind = true) :
    source.sounds subject n = [] := by
  induction n using Node.induction with
  | step n below =>
      by_cases annotating : n.annotates = true
      · exact source.annotating_sounds n annotating
      · have plain : n.annotates = false := by simpa using annotating
        have inner : n.children.flatMap (source.sounds subject) = [] := by
          refine List.flatMap_eq_nil_iff.mpr fun child member => ?_
          refine below child member (laid.below (.deeper member (.self child))) ?_
          exact mute_children n (laid n (.self n)) own plain child member
        have statements : n.children.filter n.states = [] :=
          List.filter_eq_nil_iff.mpr fun child _ => by
            simp [(mute_apart subject n child own).2]
        have parts := source.sounds_children subject n plain
        rw [inner, statements, (mute_apart subject n n own).1] at parts
        cases subject <;> exact List.perm_nil.mp parts

theorem statement_trait (r : Rule) (trait : Trait) (among : trait ∈ statementTraits r) :
    trait = .of stated.rules ∨ ∃ f, trait = .under f := by
  unfold statementTraits at among
  split at among <;> simp only [List.mem_cons, List.not_mem_nil, or_false] at among
  -- Only a branch has two places for a statement.
  case h_6 => exact Or.inr (Or.elim among (fun same => ⟨_, same⟩) fun same => ⟨_, same⟩)
  all_goals first
    | exact Or.inl among
    | exact Or.inr ⟨_, among⟩

theorem comment_states (n child : Node) (laid : Laid n) (member : child ∈ n.children)
    (comment : child.isComment = true) : n.states child = false := by
  cases kind : n.kind with
  | token text => simp [Node.states, kind]
  | rule r =>
      simp only [Node.states, kind, List.any_eq_false]
      intro trait among
      rcases statement_trait r trait among with rfl | ⟨f, rfl⟩
      · rcases Node.comment_kind comment with own | own <;>
          (rw [Trait.fits_rule own]; decide)
      · simp [Trait.fits, laid.comments child member comment]

theorem flat_map_filter {α β : Type} (test : α → Bool) (f : α → List β) (items : List α)
    (nothing : ∀ item ∈ items, test item = false → f item = []) :
    items.flatMap f = (items.filter test).flatMap f := by
  induction items with
  | nil => rfl
  | cons item rest ih =>
      obtain ⟨first, others⟩ := List.forall_mem_cons.mp nothing
      rw [List.flatMap_cons, ih others]
      cases passes : test item with
      | true => simp [passes]
      | false => simp [passes, first passes]

theorem sounds_solid (subject : Subject) (n : Node) (laid : WellLaid n)
    (plain : n.annotates = false) :
    (source.sounds subject n).Perm ((if subject.marks n then [source.span n] else []) ++
      (n.solid.flatMap (source.sounds subject) ++ source.spoken subject n.statements)) := by
  have comments : n.children.flatMap (source.sounds subject) =
      n.solid.flatMap (source.sounds subject) := by
    refine flat_map_filter _ _ n.children fun child member comment => ?_
    have below : WellLaid child := laid.below (.deeper member (.self child))
    exact source.mute_sounds child below (mute_comment child (by simpa using comment))
  have statements : n.statements = n.children.filter n.states := by
    rw [Node.statements, Node.solid, List.filter_filter]
    refine List.filter_congr fun child member => ?_
    by_cases comment : child.isComment = true
    · simp [comment_states n child (laid n (.self n)) member comment]
    · simp [comment]
  rw [statements, ← comments]
  exact source.sounds_children subject n plain

/-- Items that count are found by exactly one of several tests. -/
theorem found_once {α β γ : Type} (fits : γ → α → Bool) (f : α → List β) (tests : List γ)
    (items : List α)
    (once : ∀ item ∈ items, f item ≠ [] → tests.countP (fun test => fits test item) = 1) :
    ((tests.flatMap fun test => items.filter (fits test)).flatMap f).Perm (items.flatMap f) := by
  induction items with
  | nil => simp
  | cons item rest ih =>
      have own : (tests.flatMap fun test => if fits test item then [item] else []).flatMap f =
          f item := by
        have many : (tests.flatMap fun test => if fits test item then [item] else []) =
            List.replicate (tests.countP fun test => fits test item) item := by
          clear once ih
          induction tests with
          | nil => rfl
          | cons test others ih =>
              by_cases hit : fits test item = true
              · simp [hit, ih, List.replicate_succ]
              · simp [hit, ih]
        rw [many]
        by_cases none : f item = []
        · rw [none]
          refine List.flatMap_eq_nil_iff.mpr fun other member => ?_
          rw [(List.mem_replicate.mp member).2, none]
        · simp [once item List.mem_cons_self none]
      have split : (tests.flatMap fun test => (item :: rest).filter (fits test)) =
          tests.flatMap fun test =>
            (if fits test item then [item] else []) ++ rest.filter (fits test) := by
        refine List.flatMap_congr fun test _ => ?_
        by_cases hit : fits test item = true <;> simp [hit]
      rw [split, List.flatMap_cons]
      have parted : List.Perm ((tests.flatMap fun test =>
            (if fits test item then [item] else []) ++ rest.filter (fits test)).flatMap f)
          (f item ++ (tests.flatMap fun test => rest.filter (fits test)).flatMap f) := by
        have apart := (List.flatMap_append_perm tests
          (fun test => if fits test item then [item] else [])
          fun test => rest.filter (fits test)).symm.flatMap_right f
        rwa [List.flatMap_append, own] at apart
      have others := ih fun other member => once other (List.mem_cons_of_mem _ member)
      exact parted.trans (others.append_left _)

def coveredBy (alternatives : List Layout) (traits : List Trait) : Bool :=
  alternatives.all fun layout => (slotsOf layout).all fun slot => slot.sorts.rules.all fun own =>
    (muteRules ++ veiled).contains own ||
      (traits.countP (Slot.must ⟨slot.tag, ⟨[own], some []⟩⟩) == 1 &&
        traits.countP (Slot.may ⟨slot.tag, ⟨[own], some []⟩⟩) == 1)

theorem picked_sounds (n : Node) (alternatives : List Layout) (traits : List Trait)
    (laid : WellLaid n) (exposed : source.Exposed subject n) (goes : Goes alternatives n)
    (covered : coveredBy alternatives traits = true) :
    ((traits.flatMap (picked n)).flatMap (source.sounds subject)).Perm
      (n.solid.flatMap (source.sounds subject)) := by
  refine found_once Trait.fits (source.sounds subject) traits n.solid fun child inside heard => ?_
  have member : child ∈ n.children := List.mem_of_mem_filter inside
  have below : n.Has child := .deeper member (.self child)
  obtain ⟨layout, among, accepts⟩ := goes
  obtain ⟨slot, stands, admits⟩ := accepts_slots layout n.solid accepts child inside
  obtain ⟨tagged, sort, solid⟩ := Slot.admits_split admits
  cases sorted : child.kind with
  | token text =>
      have none : source.sounds subject child = [] :=
        source.mute_sounds child (laid.below below) (by rw [sorted]; rfl)
      exact absurd none heard
  | rule own =>
      have within : own ∈ slot.sorts.rules := by simpa [sorted, Sorts.admits] using sort
      have checked := List.all_eq_true.mp (List.all_eq_true.mp
        (List.all_eq_true.mp covered layout among) slot stands) own within
      rcases (Bool.or_eq_true _ _).mp checked with deaf | once
      · rcases List.mem_append.mp (List.contains_iff_mem.mp deaf) with quiet | veil
        · refine absurd (source.mute_sounds child (laid.below below) ?_) heard
          rw [sorted]
          exact List.contains_iff_mem.mpr quiet
        · exact absurd ((exposed.below below).veils (by simpa [Node.is, sorted] using veil)) heard
      · -- The child is as its slot would have it with this rule alone.
        have narrow : Slot.admits ⟨slot.tag, ⟨[own], some []⟩⟩ child = true := by
          simp [Slot.admits, Sorts.admits, sorted, tagged, solid]
        obtain ⟨must, may⟩ := (Bool.and_eq_true _ _).mp once
        have least : traits.countP (Slot.must ⟨slot.tag, ⟨[own], some []⟩⟩) ≤
            traits.countP fun trait => trait.fits child :=
          List.countP_mono_left fun trait _ sure => Slot.must_sound sure narrow
        have greatest : traits.countP (fun trait => trait.fits child) ≤
            traits.countP (Slot.may ⟨slot.tag, ⟨[own], some []⟩⟩) :=
          List.countP_mono_left fun trait _ fits => Slot.may_sound fits narrow
        have one := beq_iff_eq.mp must
        have only := beq_iff_eq.mp may
        omega

end Source

end JavaOutline.Lower
