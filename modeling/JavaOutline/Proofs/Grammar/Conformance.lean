import JavaOutline.Proofs.Grammar.Analysis
import JavaOutline.Proofs.Grammar.Readings

/-!
Trees that are read are laid out as their rules say, at every node: the analysis of shapes is sound
for reading, and the goals of the grammar pass it.
-/
namespace JavaOutline.Tree.Node

def solid (n : Node) : List Node :=
  n.children.filter fun child => !child.isComment

theorem induction {motive : Node → Prop}
    (step : ∀ n : Node, (∀ child ∈ n.children, motive child) → motive n) (n : Node) : motive n := by
  match n with
  | .mk kind label start stop children =>
      refine step _ fun child member => ?_
      have smaller : sizeOf child < sizeOf children := List.sizeOf_lt_of_mem member
      exact induction step child
termination_by sizeOf n
decreasing_by
  simp only [mk.sizeOf_spec]
  omega

/-- The node itself, or one somewhere below it. -/
inductive Has : Node → Node → Prop where
  | self (n : Node) : Has n n
  | deeper {n child m : Node} (member : child ∈ n.children) (inside : Has child m) : Has n m

theorem Has.trans {n middle m : Node} (first : n.Has middle) (second : middle.Has m) :
    n.Has m := by
  induction first with
  | self => exact second
  | deeper member _ ih => exact .deeper member (ih second)

def Throughout (holds : Node → Prop) (n : Node) : Prop :=
  ∀ m, n.Has m → holds m

section
variable {holds : Node → Prop} {n : Node}

theorem Throughout.here (whole : n.Throughout holds) : holds n :=
  whole n (.self n)

theorem Throughout.below {m : Node} (whole : n.Throughout holds) (has : n.Has m) :
    m.Throughout holds :=
  fun other inside => whole other (has.trans inside)

theorem Throughout.child {child : Node} (whole : n.Throughout holds) (member : child ∈ n.children) :
    child.Throughout holds :=
  whole.below (.deeper member (.self child))

theorem Throughout.intro (own : holds n) (inside : ∀ child ∈ n.children, child.Throughout holds) :
    n.Throughout holds := by
  intro m has
  cases has with
  | self => exact own
  | deeper member inner => exact inside _ member m inner

end

theorem comment_kind {n : Node} (comment : n.isComment = true) :
    n.kind = .rule .lineComment ∨ n.kind = .rule .blockComment := by
  simpa [isComment, is] using comment

theorem has_labelled (f : Field) (n m : Node) (has : (n.labelled f).Has m) :
    m = n.labelled f ∨ ∃ child ∈ n.children, child.Has m := by
  cases n
  cases has with
  | self => exact Or.inl rfl
  | deeper member inside => exact Or.inr ⟨_, member, inside⟩

end JavaOutline.Tree.Node

namespace JavaOutline.Grammar

open JavaOutline.Tree

/-- The children of the node go through a layout of its rule; a bare token has none. Comments stand
under no field. -/
structure Laid (n : Node) : Prop where
  rule : ∀ r, n.kind = .rule r → ∃ layout ∈ layouts r, Accepts layout n.solid
  token : ∀ text, n.kind = .token text → n.solid = []
  comments : ∀ child ∈ n.children, child.isComment = true → child.label = none

def WellLaid (n : Node) : Prop :=
  n.Throughout Laid

theorem WellLaid.below {n m : Node} (laid : WellLaid n) (has : n.Has m) : WellLaid m :=
  Node.Throughout.below laid has

theorem WellLaid.intro {n : Node} (own : Laid n) (inside : ∀ child ∈ n.children, WellLaid child) :
    WellLaid n :=
  Node.Throughout.intro own inside

theorem WellLaid.labelled {n : Node} (f : Field) (laid : WellLaid n) :
    WellLaid (n.labelled f) := by
  intro m has
  rcases n.has_labelled f m has with rfl | ⟨child, member, inside⟩
  · obtain ⟨rule, token, comments⟩ := laid n (.self n)
    cases n
    exact ⟨rule, token, comments⟩
  · exact laid m (.deeper member inside)

/-! Going through layouts -/

theorem Sorts.admits_mono {small large : Sorts} (order : small.below large = true) (kind : Kind)
    (admits : small.admits kind = true) : large.admits kind = true := by
  obtain ⟨rules, texts⟩ := (Bool.and_eq_true _ _).mp order
  cases kind with
  | rule r => exact List.all_eq_true.mp rules r (by simpa [Sorts.admits] using admits)
  | token text =>
      obtain ⟨_, few⟩ := small
      obtain ⟨_, many⟩ := large
      cases many with
      | none => rfl
      | some others =>
          cases few with
          | none => cases texts
          | some given =>
              exact List.all_eq_true.mp texts text (by simpa [Sorts.admits] using admits)

theorem Slot.takes_sound {slot : Slot} {label : Option Field} {sorts : Sorts} {n : Node}
    (takes : slot.takes label sorts = true) (labelled : n.label = label)
    (admits : sorts.admits n.kind = true) : slot.admits n = true := by
  simp only [Slot.takes, Bool.and_eq_true, Bool.not_eq_true'] at takes
  obtain ⟨⟨tagged, order⟩, uncommented⟩ := takes
  have solid : n.isComment = false := by
    cases kind : n.kind with
    | token text => simp [Node.isComment, Node.is, kind]
    | rule r =>
        rw [kind] at admits
        have none := List.any_eq_false.mp uncommented r (by simpa [Sorts.admits] using admits)
        simpa [commentRules, Node.isComment, Node.is, kind] using none
  simp only [Slot.admits, Bool.and_eq_true, Bool.not_eq_true']
  exact ⟨⟨by rw [labelled]; exact tagged, Sorts.admits_mono order _ admits⟩, solid⟩

theorem passed_sound {label : Option Field} {sorts : Sorts} {n : Node} (labelled : n.label = label)
    (admits : sorts.admits n.kind = true) (layout : Layout) (count : Nat)
    (passes : passed label sorts layout = some count) (others : List Node)
    (accepts : Accepts (layout.drop count) others) : Accepts layout (n :: others) := by
  induction layout generalizing count with
  | nil => cases passes
  | cons item rest ih =>
      -- A stretch that may be empty is left out where it does not take the node.
      have skipped (empty : Accepts rest (n :: others) → Accepts (item :: rest) (n :: others))
          (later : (passed label sorts rest).map (· + 1) = some count) :
          Accepts (item :: rest) (n :: others) := by
        obtain ⟨fewer, found, rfl⟩ := Option.map_eq_some_iff.mp later
        exact empty (ih fewer found accepts)
      cases item with
      | one slot =>
          simp only [passed] at passes
          split at passes
          · cases passes
            exact ⟨n, others, rfl, Slot.takes_sound ‹_› labelled admits, accepts⟩
          · cases passes
      | maybe slot =>
          simp only [passed] at passes
          split at passes
          · cases passes
            refine ⟨some n, others, rfl, ?_, accepts⟩
            rintro _ ⟨⟩
            exact Slot.takes_sound ‹_› labelled admits
          · refine skipped (fun inner => ⟨none, n :: others, rfl, ?_, inner⟩) passes
            rintro _ ⟨⟩
      | several slots =>
          simp only [passed] at passes
          split at passes
          · cases passes
            obtain ⟨front, behind, rfl, each, inner⟩ := accepts
            refine ⟨n :: front, behind, rfl, List.forall_mem_cons.mpr ⟨?_, each⟩, inner⟩
            obtain ⟨slot, member, takes⟩ := List.any_eq_true.mp ‹_›
            exact List.any_eq_true.mpr ⟨slot, member, Slot.takes_sound takes labelled admits⟩
          · exact skipped (fun inner => ⟨[], n :: others, rfl, List.forall_mem_nil _, inner⟩) passes

def Leads (layout : Layout) (here : Nat) (nodes : List Node) (there : Nat) : Prop :=
  ∀ others, Accepts (layout.drop there) others → Accepts (layout.drop here) (nodes ++ others)

theorem Leads.stay (layout : Layout) (here : Nat) : Leads layout here [] here :=
  fun _ accepts => accepts

theorem Leads.append {layout : Layout} {here between there : Nat} {front back : List Node}
    (first : Leads layout here front between) (second : Leads layout between back there) :
    Leads layout here (front ++ back) there := by
  intro others accepts
  rw [List.append_assoc]
  exact first _ (second others accepts)

theorem advance_leads {layout : Layout} {label : Option Field} {sorts : Sorts} {here : Nat}
    {found : List Nat} {n : Node} (advanced : advance layout label sorts here = some found)
    (labelled : n.label = label) (admits : sorts.admits n.kind = true) :
    ∃ there ∈ found, Leads layout here [n] there := by
  obtain ⟨count, passes, rfl⟩ := Option.map_eq_some_iff.mp advanced
  refine ⟨_, List.mem_singleton.mpr rfl, fun others accepts => ?_⟩
  exact passed_sound labelled admits _ count passes others (by rwa [List.drop_drop])

theorem accepts_nothing (layout : Layout) (empty : mayEnd layout 0 = true) : Accepts layout [] := by
  induction layout with
  | nil => rfl
  | cons item rest ih =>
      simp only [mayEnd, List.drop_zero, List.all_cons, Bool.and_eq_true] at empty ih
      cases item with
      | one slot => cases empty.1
      | maybe slot => exact ⟨none, [], rfl, by rintro _ ⟨⟩, ih empty.2⟩
      | several slots => exact ⟨[], [], rfl, List.forall_mem_nil _, ih empty.2⟩

theorem accepts_whole {layout : Layout} {there : Nat} {nodes : List Node}
    (leads : Leads layout 0 nodes there) (ends : mayEnd layout there = true) :
    Accepts layout nodes := by
  have rest : Accepts (layout.drop there) [] := accepts_nothing _ (by simpa [mayEnd] using ends)
  simpa using leads [] rest

theorem mem_merge (first second : List Nat) (here : Nat) :
    here ∈ merge first second ↔ here ∈ first ∨ here ∈ second := by
  simp only [merge, List.mem_append, List.mem_filter, Bool.not_eq_true', List.contains_eq_mem]
  by_cases known : here ∈ first <;> simp [known]

theorem step_all_sound {step : Nat → Option (List Nat)} {heres ends : List Nat}
    (stepped : stepAll step heres = some ends) (here : Nat) (member : here ∈ heres) :
    ∃ found, step here = some found ∧ found ⊆ ends := by
  induction heres generalizing ends with
  | nil => cases member
  | cons first others ih =>
      obtain ⟨own, atFirst, rest⟩ := Option.bind_eq_some_iff.mp stepped
      obtain ⟨more, atOthers, rfl⟩ := Option.map_eq_some_iff.mp rest
      rcases List.mem_cons.mp member with rfl | later
      · exact ⟨own, atFirst, fun there inside => (mem_merge ..).mpr (Or.inl inside)⟩
      · obtain ⟨found, same, inside⟩ := ih atOthers later
        exact ⟨found, same, fun there inner => (mem_merge ..).mpr (Or.inr (inside inner))⟩

theorem spread_start (step : Nat → Option (List Nat)) (count : Nat) (heres : List Nat) :
    heres ⊆ spread step count heres := by
  induction count generalizing heres with
  | zero => exact List.Subset.refl _
  | succ count ih =>
      intro here member
      exact ih _ ((mem_merge ..).mpr (Or.inl member))

theorem repeated_sound {layout : Layout} {step : Nat → Option (List Nat)} {here : Nat}
    {heres : List Nat} (closed : repeated layout step here = some heres) :
    here ∈ heres ∧ ∀ there ∈ heres, ∃ found, step there = some found ∧ found ⊆ heres := by
  simp only [repeated] at closed
  split at closed
  · cases closed
    refine ⟨spread_start _ _ _ List.mem_cons_self, fun there member => ?_⟩
    cases stepped : stepAll step (spread step (layout.length + 1) [here]) with
    | none => simp_all
    | some ends =>
        obtain ⟨found, same, inside⟩ := step_all_sound stepped there member
        refine ⟨found, same, fun last inner => ?_⟩
        simp_all only [Option.elim_some, List.all_eq_true, List.contains_iff_mem]
        exact ‹∀ x ∈ ends, _› last (inside inner)
  · cases closed

/-! Reading -/

/-- A fresh node of some sorts. -/
structure Fresh (sorts : Sorts) (n : Node) : Prop where
  label : n.label = none
  sort : sorts.admits n.kind = true
  laid : WellLaid n

/-- Goals make one node of their sorts. -/
def Keeps (goal : Goal → List Token → Reading) : Prop :=
  ∀ g sorts, goalSorts g = some sorts → ∀ tokens made rest, goal g tokens = some (made, rest) →
    ∃ n, made = [n] ∧ Fresh sorts n

def Holds (held : Option Sorts) (built : List Node) : Prop :=
  ∀ sorts, held = some sorts → ∃ n, built = [n] ∧ Fresh sorts n

def relabelled : Option Field → Node → Node
  | none, n => n
  | some f, n => n.labelled f

theorem label_labelled (f : Field) (n : Node) : (n.labelled f).label = some f := by
  cases n
  rfl

theorem kind_labelled (f : Field) (n : Node) : (n.labelled f).kind = n.kind := by
  cases n
  rfl

theorem relabelled_none (nodes : List Node) : nodes.map (relabelled none) = nodes :=
  List.map_id nodes

theorem relabelled_kind (label : Option Field) (n : Node) :
    (relabelled label n).kind = n.kind := by
  cases label with
  | none => rfl
  | some f => exact kind_labelled f n

theorem relabelled_label (label : Option Field) (n : Node) (bare : n.label = none) :
    (relabelled label n).label = label := by
  cases label with
  | none => exact bare
  | some f => exact label_labelled f n

theorem relabelled_labelled (label : Option Field) (f : Field) (n : Node) :
    relabelled label (n.labelled f) = relabelled (label.or (some f)) n := by
  cases label with
  | none => rfl
  | some g => cases n; rfl

/-- What a shape makes goes where the analysis says. -/
structure Sound (goal : Goal → List Token → Reading) (form : Form) : Prop where
  leads : ∀ layout label held here found, (analyse form).ends layout label held here = some found →
    ∀ built tokens made rest, Holds held built → form.read goal built tokens = some (made, rest) →
      (∃ there ∈ found, Leads layout here (made.map (relabelled label)) there) ∧
        ∀ n ∈ made, WellLaid n
  fits : ∀ alternatives held, (analyse form).fits alternatives held = true →
    ∀ built tokens made rest, Holds held built → form.read goal built tokens = some (made, rest) →
      (∃ layout ∈ alternatives, Accepts layout made) ∧ ∀ n ∈ made, WellLaid n

theorem wholly_sound {layout : Layout} {ends : Option (List Nat)}
    (whole : Analysis.wholly layout ends = true) :
    ∃ found, ends = some found ∧ ∀ there ∈ found, mayEnd layout there = true := by
  cases ends with
  | none => cases whole
  | some found => exact ⟨found, rfl, List.all_eq_true.mp whole⟩

section Shapes
variable {goal : Goal → List Token → Reading}

/-- A shape without alternatives fits if it leads through one of the layouts. -/
theorem sound_plainly {form : Form}
    {ends : Layout → Option Field → Option Sorts → Nat → Option (List Nat)}
    (same : analyse form = Analysis.plainly ends)
    (leads : ∀ layout label held here found, ends layout label held here = some found →
      ∀ built tokens made rest, Holds held built →
        form.read goal built tokens = some (made, rest) →
        (∃ there ∈ found, Leads layout here (made.map (relabelled label)) there) ∧
          ∀ n ∈ made, WellLaid n) : Sound goal form := by
  constructor
  · rw [same]
    exact leads
  · intro alternatives held fits built tokens made rest holds read
    rw [same] at fits
    obtain ⟨layout, member, whole⟩ := List.any_eq_true.mp fits
    obtain ⟨found, ended, last⟩ := wholly_sound whole
    obtain ⟨⟨there, among, lead⟩, laid⟩ := leads layout none held 0 found ended _ _ _ _ holds read
    refine ⟨⟨layout, member, accepts_whole ?_ (last there among)⟩, laid⟩
    rwa [relabelled_none] at lead

theorem sound_nothing {form : Form} (same : analyse form = Analysis.nothing)
    (empty : ∀ built tokens made rest,
      form.read goal built tokens = some (made, rest) → made = []) : Sound goal form := by
  refine sound_plainly same ?_
  intro layout label held here found ended built tokens made rest _ read
  cases empty built tokens made rest read
  cases ended
  exact ⟨⟨here, List.mem_singleton.mpr rfl, Leads.stay layout here⟩, List.forall_mem_nil _⟩

theorem sound_node {form : Form} (sorts : Sorts) (same : analyse form = Analysis.node sorts)
    (fresh : ∀ built tokens made rest, form.read goal built tokens = some (made, rest) →
      ∃ n, made = [n] ∧ Fresh sorts n) : Sound goal form := by
  refine sound_plainly same ?_
  intro layout label held here found ended built tokens made rest _ read
  obtain ⟨n, rfl, bare, sort, laid⟩ := fresh built tokens made rest read
  have admits : sorts.admits (relabelled label n).kind = true := by rwa [relabelled_kind]
  exact ⟨advance_leads ended (relabelled_label label n bare) admits,
    List.forall_mem_singleton.mpr laid⟩

theorem sound_refused {form : Form} (same : analyse form = Analysis.refused) : Sound goal form := by
  refine sound_plainly same ?_
  intro layout label held here found ended
  cases ended

theorem bare_fresh (t : Token) (texts : List String) (among : texts.contains t.text = true) :
    Fresh ⟨[], some texts⟩ (bareNode t) := by
  refine ⟨rfl, among, WellLaid.intro ?_ (List.forall_mem_nil _)⟩
  refine ⟨?_, fun _ _ => rfl, List.forall_mem_nil _⟩
  intro r same
  cases same

theorem leaf_laid (r : Rule) (t : Token) (leaf : mayBeLeaf r = true) : WellLaid (leafNode r t) := by
  refine WellLaid.intro ⟨?_, ?_, List.forall_mem_nil _⟩ (List.forall_mem_nil _)
  · intro other same
    cases same
    obtain ⟨layout, member, empty⟩ := List.any_eq_true.mp leaf
    exact ⟨layout, member, accepts_nothing layout empty⟩
  · intro text same
    cases same

theorem Sound.single {form : Form} (sound : Sound goal form) {held : Option Sorts} {sorts : Sorts}
    (single : (analyse form).single held sorts = true) {built : List Node} {tokens : List Token}
    {made : List Node} {rest : List Token} (holds : Holds held built)
    (read : form.read goal built tokens = some (made, rest)) : ∃ n, made = [n] ∧ Fresh sorts n := by
  obtain ⟨found, ended, last⟩ := wholly_sound single
  obtain ⟨⟨there, among, lead⟩, laid⟩ := sound.leads _ none held 0 found ended _ _ _ _ holds read
  rw [relabelled_none] at lead
  obtain ⟨n, others, rfl, admits, rfl⟩ := accepts_whole lead (last there among)
  simp only [Slot.admits, plain, Tag.admits, Bool.and_eq_true, Option.isNone_iff_eq_none] at admits
  exact ⟨n, rfl, admits.1.1, admits.1.2, laid n List.mem_cons_self⟩

theorem rule_laid (r : Rule) (children : List Node)
    (accepted : ∃ layout ∈ layouts r, Accepts layout children)
    (solid : ∀ n ∈ children, n.isComment = false) (laid : ∀ n ∈ children, WellLaid n) :
    WellLaid (Node.ofRule r children) := by
  refine WellLaid.intro ⟨?_, ?_, ?_⟩ laid
  · intro other same
    cases same
    have all : (Node.ofRule r children).solid = children :=
      List.filter_eq_self.mpr fun n member => by simp [solid n member]
    rwa [all]
  · intro text same
    cases same
  · intro child member comment
    rw [solid child member] at comment
    cases comment

theorem Slot.solid_of_admits {slot : Slot} {n : Node} (admits : slot.admits n = true) :
    n.isComment = false := by
  simp only [Slot.admits, Bool.and_eq_true, Bool.not_eq_true'] at admits
  exact admits.2

theorem accepts_solid (layout : Layout) (nodes : List Node) (accepts : Accepts layout nodes) :
    ∀ n ∈ nodes, n.isComment = false := by
  induction layout generalizing nodes with
  | nil =>
      cases accepts
      exact List.forall_mem_nil _
  | cons item rest ih =>
      cases item with
      | one slot =>
          obtain ⟨first, others, rfl, admits, inner⟩ := accepts
          exact List.forall_mem_cons.mpr ⟨Slot.solid_of_admits admits, ih others inner⟩
      | maybe slot =>
          obtain ⟨first, others, rfl, admits, inner⟩ := accepts
          refine List.forall_mem_append.mpr ⟨fun n member => ?_, ih others inner⟩
          exact Slot.solid_of_admits (admits n (Option.mem_toList.mp member))
      | several slots =>
          obtain ⟨front, others, rfl, each, inner⟩ := accepts
          refine List.forall_mem_append.mpr ⟨fun n member => ?_, ih others inner⟩
          obtain ⟨slot, _, admits⟩ := List.any_eq_true.mp (each n member)
          exact Slot.solid_of_admits admits

/-! Each way to put shapes together -/

theorem sound_held : Sound goal .held := by
  refine sound_plainly rfl ?_
  intro layout label held here found ended built tokens made rest holds read
  obtain ⟨sorts, given, advanced⟩ := Option.bind_eq_some_iff.mp ended
  obtain ⟨n, rfl, bare, sort, laid⟩ := holds sorts given
  cases read
  refine ⟨advance_leads advanced (relabelled_label label n bare) ?_,
    List.forall_mem_singleton.mpr laid⟩
  rwa [relabelled_kind]

theorem sound_cut (text : String) : Sound goal (.cut text) := by
  refine sound_node ⟨[], some [text]⟩ rfl fun built tokens made rest read => ?_
  obtain ⟨t, _, last, -, -, rfl⟩ := Shape.read_cut read
  refine ⟨_, rfl, rfl, by simp [Sorts.admits, Node.kind], ?_⟩
  refine WellLaid.intro ⟨?_, fun _ _ => rfl, List.forall_mem_nil _⟩ (List.forall_mem_nil _)
  intro r same
  cases same

theorem sound_word (r : Rule) (admits : String → Bool) : Sound goal (.word r admits) := by
  by_cases leaf : mayBeLeaf r = true
  · refine sound_node ⟨[r], some []⟩ (if_pos leaf) fun built tokens made rest read => ?_
    obtain ⟨t, -, -, rfl⟩ := Shape.read_word read
    exact ⟨_, rfl, rfl, by simp [Sorts.admits, leafNode, Node.kind], leaf_laid r t leaf⟩
  · exact sound_refused (if_neg leaf)

theorem sound_lexeme (admits : Rule → Bool) : Sound goal (.lexeme admits) := by
  by_cases leaves : (everyRule.filter admits).all mayBeLeaf = true
  · refine sound_node ⟨everyRule.filter admits, some []⟩ (if_pos leaves)
      fun built tokens made rest read => ?_
    obtain ⟨t, r, -, admitted, rfl⟩ := Shape.read_lexeme read
    have among : r ∈ everyRule.filter admits := List.mem_filter.mpr ⟨mem_every_rule r, admitted⟩
    refine ⟨_, rfl, rfl, List.contains_iff_mem.mpr among, ?_⟩
    exact leaf_laid r t (List.all_eq_true.mp leaves r among)
  · exact sound_refused (if_neg leaves)

section
variable {first second probe yes no item body base step : Form}

theorem sound_seq (one : Sound goal first) (two : Sound goal second) :
    Sound goal (.seq first second) := by
  refine sound_plainly rfl ?_
  intro layout label held here found ended built tokens made rest holds read
  obtain ⟨nodes, behind, others, before, after, rfl⟩ := Shape.read_seq read
  obtain ⟨ends, atFirst, stepped⟩ := Option.bind_eq_some_iff.mp ended
  obtain ⟨⟨between, among, lead⟩, laid⟩ := one.leads _ _ _ _ _ atFirst _ _ _ _ holds before
  obtain ⟨further, atSecond, inside⟩ := step_all_sound stepped between among
  obtain ⟨⟨there, inner, follow⟩, alsoLaid⟩ := two.leads _ _ _ _ _ atSecond _ _ _ _ holds after
  refine ⟨⟨there, inside inner, ?_⟩, List.forall_mem_append.mpr ⟨laid, alsoLaid⟩⟩
  rw [List.map_append]
  exact lead.append follow

theorem sound_pick (one : Sound goal yes) (two : Sound goal no) :
    Sound goal (.pick probe yes no) := by
  constructor
  · intro layout label held here found ended built tokens made rest holds read
    obtain ⟨first, atYes, others⟩ := Option.bind_eq_some_iff.mp ended
    obtain ⟨second, atNo, rfl⟩ := Option.map_eq_some_iff.mp others
    rcases Shape.read_pick read with read | read
    · obtain ⟨⟨there, among, lead⟩, laid⟩ := one.leads _ _ _ _ _ atYes _ _ _ _ holds read
      exact ⟨⟨there, (mem_merge ..).mpr (Or.inl among), lead⟩, laid⟩
    · obtain ⟨⟨there, among, lead⟩, laid⟩ := two.leads _ _ _ _ _ atNo _ _ _ _ holds read
      exact ⟨⟨there, (mem_merge ..).mpr (Or.inr among), lead⟩, laid⟩
  · intro alternatives held fits built tokens made rest holds read
    obtain ⟨atYes, atNo⟩ := (Bool.and_eq_true _ _).mp fits
    rcases Shape.read_pick read with read | read
    · exact one.fits _ _ atYes _ _ _ _ holds read
    · exact two.fits _ _ atNo _ _ _ _ holds read

theorem sound_many (one : Sound goal item) : Sound goal (.many probe item) := by
  refine sound_plainly rfl ?_
  intro layout label held here heres ended built tokens made rest holds read
  obtain ⟨start, closed⟩ := repeated_sound ended
  -- The positions are closed under one more item: items lead from any of them to one of them.
  refine Shape.read_many (motive := fun _ made _ => ∀ here ∈ heres,
    (∃ there ∈ heres, Leads layout here (made.map (relabelled label)) there) ∧
      ∀ n ∈ made, WellLaid n) ?_ ?_ read here start
  · intro _ here member
    exact ⟨⟨here, member, Leads.stay layout here⟩, List.forall_mem_nil _⟩
  · intro tokens nodes behind others rest inner ih here member
    obtain ⟨ends, stepped, inside⟩ := closed here member
    obtain ⟨⟨between, among, lead⟩, laid⟩ := one.leads _ _ _ _ _ stepped _ _ _ _ holds inner
    obtain ⟨⟨there, last, follow⟩, alsoLaid⟩ := ih between (inside among)
    refine ⟨⟨there, last, ?_⟩, List.forall_mem_append.mpr ⟨laid, alsoLaid⟩⟩
    rw [List.map_append]
    exact lead.append follow

theorem sound_rule (r : Rule) (one : Sound goal body) : Sound goal (.node r body) := by
  refine sound_plainly rfl ?_
  intro layout label held here found ended built tokens made rest holds read
  split at ended
  · obtain ⟨nodes, inside, rfl⟩ := Shape.read_node read
    obtain ⟨accepted, laid⟩ := one.fits _ _ ‹_› _ _ _ _ holds inside
    have solid : ∀ n ∈ nodes, n.isComment = false := by
      obtain ⟨layout, _, accepts⟩ := accepted
      exact accepts_solid layout nodes accepts
    refine ⟨advance_leads ended (relabelled_label label _ rfl) ?_,
      List.forall_mem_singleton.mpr (rule_laid r nodes accepted solid laid)⟩
    rw [relabelled_kind]
    simp [Sorts.admits, Node.ofRule, Node.kind]
  · cases ended

theorem sound_field (f : Field) (one : Sound goal body) : Sound goal (.field f body) := by
  refine sound_plainly rfl ?_
  intro layout label held here found ended built tokens made rest holds read
  obtain ⟨nodes, inside, rfl⟩ := Shape.read_field read
  obtain ⟨⟨there, among, lead⟩, laid⟩ := one.leads _ _ _ _ _ ended _ _ _ _ holds inside
  refine ⟨⟨there, among, ?_⟩, List.forall_mem_map.mpr fun n member => (laid n member).labelled f⟩
  rw [List.map_map]
  simpa only [Function.comp_def, relabelled_labelled] using lead

theorem sound_chain (one : Sound goal base) (two : Sound goal step) :
    Sound goal (.chain base probe step) := by
  refine sound_plainly rfl ?_
  intro layout label held here found ended built tokens made rest holds read
  obtain ⟨sorts, chosen, advanced⟩ := Option.bind_eq_some_iff.mp ended
  have checked := List.find?_some chosen
  obtain ⟨starts, wraps⟩ := (Bool.and_eq_true _ _).mp checked
  -- The chain holds one node of its sorts throughout.
  obtain ⟨n, rfl, bare, sort, laid⟩ : ∃ n, made = [n] ∧ Fresh sorts n := by
    refine Shape.read_chain (motive := fun nodes _ => ∃ n, nodes = [n] ∧ Fresh sorts n) ?_ ?_ read
    · intro nodes behind before
      exact one.single starts holds before
    · rintro _ tokens nodes behind ⟨n, rfl, fresh⟩ inner
      exact two.single wraps (by rintro _ ⟨⟩; exact ⟨n, rfl, fresh⟩) inner
  refine ⟨advance_leads advanced (relabelled_label label n bare) ?_,
    List.forall_mem_singleton.mpr laid⟩
  rwa [relabelled_kind]

end

theorem sound_call (keeps : Keeps goal) (g : Goal) : Sound goal (.call g) := by
  cases given : goalSorts g with
  | none => exact sound_refused (by rw [analyse, given])
  | some sorts =>
      refine sound_node sorts (by rw [analyse, given]) fun built tokens made rest read => ?_
      exact keeps g sorts given tokens made rest read

/-- Reading keeps to the analysis. -/
theorem analyse_sound (keeps : Keeps goal) (form : Form) : Sound goal form := by
  induction form with
  | done => exact sound_nothing rfl fun _ _ _ _ read => by cases read; rfl
  | never => exact sound_plainly rfl fun _ _ _ _ _ _ _ _ _ _ _ read => by cases read
  | held => exact sound_held
  | heldIs admits => exact sound_nothing rfl fun _ _ _ _ read => (Shape.read_held_is read).1
  | peek admits => exact sound_nothing rfl fun _ _ _ _ read => (Shape.read_peek read).1
  | stop => exact sound_nothing rfl fun _ _ _ _ read => (Shape.read_stop read).1
  | keyword texts =>
      refine sound_node _ rfl fun built tokens made rest read => ?_
      obtain ⟨t, -, among, rfl⟩ := Shape.read_keyword read
      exact ⟨_, rfl, bare_fresh t texts among⟩
  | symbol texts =>
      refine sound_node _ rfl fun built tokens made rest read => ?_
      obtain ⟨t, -, among, rfl⟩ := Shape.read_symbol read
      exact ⟨_, rfl, bare_fresh t texts among⟩
  | cut text => exact sound_cut text
  | word r admits => exact sound_word r admits
  | lexeme admits => exact sound_lexeme admits
  | skip =>
      refine sound_nothing rfl fun _ _ _ _ read => ?_
      obtain ⟨_, -, none⟩ := Shape.read_skip read
      exact none
  | group =>
      refine sound_nothing rfl fun _ _ _ _ read => ?_
      obtain ⟨_, _, -, -, none⟩ := Shape.read_group read
      exact none
  | seq _ _ one two => exact sound_seq one two
  | pick _ _ _ _ one two => exact sound_pick one two
  | many _ _ _ one => exact sound_many one
  | node r _ one => exact sound_rule r one
  | field f _ one => exact sound_field f one
  | chain _ _ _ one _ two => exact sound_chain one two
  | call g => exact sound_call keeps g

end Shapes

theorem read_goal_keeps (passes : ∀ g, goalPasses g = true) (fuel : Nat) :
    Keeps (readGoal java fuel) := by
  refine Shape.read_goal_induction (motive := Keeps) ?_ (fun goal ih => ?_) fuel
  · intro g sorts given tokens made rest read
    cases read
  · intro g sorts given tokens made rest read
    have single : (analyse (java g)).single none sorts = true := by
      have passed := passes g
      rwa [goalPasses, given] at passed
    exact (analyse_sound ih (java g)).single single (by rintro _ ⟨⟩) read

/-! The goals of the grammar -/

theorem choose_single {held : Option Sorts} {sorts : Sorts} (alternatives : List (Form × Form))
    (each : ∀ entry ∈ alternatives, (analyse entry.2).single held sorts = true) :
    (analyse (Shape.choose alternatives .never)).single held sorts = true := by
  induction alternatives with
  | nil => rfl
  | cons entry rest ih =>
      obtain ⟨found, ended, last⟩ := wholly_sound (each entry List.mem_cons_self)
      obtain ⟨more, others, final⟩ := wholly_sound
        (ih fun other member => each other (List.mem_cons_of_mem _ member))
      have both : (analyse (Shape.choose (entry :: rest) .never)).ends [.one (plain sorts)] none
          held 0 = some (merge found more) := by
        show ((analyse entry.2).ends _ none held 0).bind _ = _
        rw [ended]
        show ((analyse (Shape.choose rest .never)).ends _ none held 0).map _ = _
        rw [others]
        rfl
      rw [Analysis.single, both]
      refine List.all_eq_true.mpr fun there member => ?_
      rcases (mem_merge ..).mp member with own | other
      · exact last there own
      · exact final there other

theorem links_first (level : Nat) (place : Place) :
    ∀ entry ∈ links level place, entry ∈ links 0 place := by
  intro entry member
  simp only [links, List.mem_append] at member ⊢
  rcases member with ((own | binary) | test) | choice
  · split at own <;> simp_all
  · obtain ⟨operator, among, rfl⟩ := List.mem_map.mp binary
    refine Or.inl (Or.inl (Or.inr (List.mem_map.mpr ⟨operator, ?_, rfl⟩)))
    exact List.mem_filter.mpr ⟨(List.mem_filter.mp among).1, by simp⟩
  · split at test <;> simp_all
  · split at choice <;> simp_all

set_option maxRecDepth 100000 in
theorem links_pass (place : Place) :
    ∀ entry ∈ links 0 place, (analyse entry.2).single (some expressions) expressions = true := by
  obtain ⟨inSum, inLabel⟩ := place
  rw [← List.all_eq_true]
  revert inSum inLabel
  decide

theorem expression_passes (level : Nat) (place : Place) :
    goalPasses (.expression level place) = true := by
  have step := choose_single (links level place) fun entry member =>
    links_pass place entry (links_first level place entry member)
  -- An operand is no name and no type, so that a chain of operands holds expressions.
  have found : (chainSorts.find? fun sorts =>
      (analyse (.call (.operand place))).single none sorts &&
        (analyse (Shape.choose (links level place) .never)).single (some sorts) sorts) =
      some expressions := by
    have operand : analyse (.call (.operand place)) = Analysis.node expressions := rfl
    have names : (Analysis.node expressions).single none ⟨nameRules, some []⟩ = false := by decide
    have typed : (Analysis.node expressions).single none types = false := by decide
    have own : (Analysis.node expressions).single none expressions = true := by decide
    simp [chainSorts, operand, names, typed, own, step]
  show Analysis.wholly [.one (plain expressions)] ((chainSorts.find? fun sorts =>
      (analyse (.call (.operand place))).single none sorts &&
        (analyse (Shape.choose (links level place) .never)).single (some sorts) sorts).bind
    fun sorts => advance [.one (plain expressions)] none sorts 0) = true
  rw [found]
  decide

set_option maxRecDepth 100000 in
theorem java_passes (g : Goal) : goalPasses g = true := by
  cases g with
  | expression level place => exact expression_passes level place
  | operand place =>
      obtain ⟨inSum, inLabel⟩ := place
      revert inSum inLabel
      decide
  | castValue place =>
      obtain ⟨inSum, inLabel⟩ := place
      revert inSum inLabel
      decide
  | primary place => exact (show goalPasses (.primary {}) = true by decide)
  | statement opens =>
      revert opens
      decide
  | anyType spot => cases spot <;> decide
  | plainType spot => cases spot <;> decide
  | simpleType spot => cases spot <;> decide
  | _ => decide

end JavaOutline.Grammar
