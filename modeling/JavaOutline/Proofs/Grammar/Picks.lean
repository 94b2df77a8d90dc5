import JavaOutline.Proofs.Grammar.Conformance
import Mathlib.Data.List.Basic

/-!
What can be picked among the children of a node. Children are looked for by field, by rule or as
the named ones; the layouts of a rule decide whether there is such a child, whether there is one at
most, and of which rules it can be.
-/
namespace JavaOutline.Grammar

open JavaOutline.Tree

def onlyRule (r : Rule) : Sorts := ⟨[r], some []⟩

theorem of_rules {rules : List Rule} {kind : Kind}
    (sort : Sorts.admits ⟨rules, some []⟩ kind = true) : ∃ r ∈ rules, kind = .rule r := by
  cases kind with
  | rule own => exact ⟨own, List.contains_iff_mem.mp sort, rfl⟩
  | token text => cases sort

theorem only_rule (r : Rule) (kind : Kind) (sort : (onlyRule r).admits kind = true) :
    kind = .rule r := by
  obtain ⟨own, same, rfl⟩ := of_rules sort
  rw [List.mem_singleton.mp same]

/-- By what children are looked for. -/
inductive Trait where
  | under (f : Field)
  | of (rules : List Rule)
  | named

def Trait.fits : Trait → Node → Bool
  | .under f, n => n.label == some f
  | .of rules, n => rules.any n.is
  | .named, n => n.isNamed

theorem Trait.fits_rule {n : Node} {r : Rule} (kind : n.kind = .rule r) (rules : List Rule) :
    Trait.fits (.of rules) n = rules.contains r := by
  rw [Bool.eq_iff_iff, List.contains_iff_mem, Trait.fits, List.any_eq_true]
  constructor
  · rintro ⟨own, member, same⟩
    obtain rfl := Kind.rule.inj (kind.symm.trans (beq_iff_eq.mp same))
    exact member
  · intro member
    exact ⟨r, member, beq_iff_eq.mpr kind⟩

theorem Trait.fits_token {n : Node} {text : String} (kind : n.kind = .token text)
    (rules : List Rule) : Trait.fits (.of rules) n = false := by
  simp [Trait.fits, Node.is, kind]

/-- The children with a trait, comments apart. -/
def picked (n : Node) (trait : Trait) : List Node :=
  n.solid.filter trait.fits

theorem mem_picked {n m : Node} {trait : Trait} (member : m ∈ picked n trait) :
    m ∈ n.children ∧ trait.fits m = true := by
  obtain ⟨inside, fits⟩ := List.mem_filter.mp member
  exact ⟨List.mem_of_mem_filter inside, fits⟩

theorem parts_picked (n : Node) : n.parts = picked n .named := by
  rw [picked, Node.solid, List.filter_filter]
  rfl

theorem all_picked {n : Node} (laid : Laid n) (f : Field) : n.all f = picked n (.under f) := by
  rw [picked, Node.solid, List.filter_filter]
  refine List.filter_congr fun child member => ?_
  show (child.label == some f) = (child.label == some f && !child.isComment)
  by_cases comment : child.isComment = true
  · simp [laid.comments child member comment]
  · simp [comment]

theorem get_picked {n : Node} (laid : Laid n) (f : Field) :
    n.get? f = (picked n (.under f)).head? := by
  rw [← all_picked laid, Node.all, List.head?_filter]
  rfl

theorem of_kind_picked (n : Node) (r : Rule) (solid : r ∉ commentRules) :
    n.ofKind? r = (picked n (.of [r])).head? := by
  have apart : n.children.filter (fun child => child.is r) = picked n (.of [r]) := by
    rw [picked, Node.solid, List.filter_filter]
    refine List.filter_congr fun child _ => ?_
    simp only [Trait.fits, List.any_cons, List.any_nil, Bool.or_false]
    by_cases own : child.kind = .rule r
    · have uncommented : child.isComment = false := by
        simpa [commentRules, Node.isComment, Node.is, own] using solid
      simp [uncommented]
    · simp [Node.is, own]
  rw [← apart, List.head?_filter]
  rfl

def Slot.must (slot : Slot) : Trait → Bool
  | .under f => slot.tag == .under f
  | .of rules => slot.sorts.rules.all rules.contains && slot.sorts.tokens == some []
  | .named => slot.sorts.tokens == some []

def Slot.may (slot : Slot) : Trait → Bool
  | .under f => slot.tag == .under f || slot.tag == .loose
  | .of rules => slot.sorts.rules.any rules.contains
  | .named => !slot.sorts.rules.isEmpty

theorem Slot.admits_split {slot : Slot} {n : Node} (admits : slot.admits n = true) :
    slot.tag.admits n.label = true ∧ slot.sorts.admits n.kind = true ∧ n.isComment = false := by
  simp only [Slot.admits, Bool.and_eq_true, Bool.not_eq_true'] at admits
  exact ⟨admits.1.1, admits.1.2, admits.2⟩

theorem Slot.must_sound {slot : Slot} {trait : Trait} {n : Node} (must : slot.must trait = true)
    (admits : slot.admits n = true) : trait.fits n = true := by
  obtain ⟨tagged, sort, _⟩ := Slot.admits_split admits
  have named (none : slot.sorts.tokens = some []) : ∃ r, n.kind = .rule r := by
    cases kind : n.kind with
    | rule r => exact ⟨r, rfl⟩
    | token text => simp [kind, Sorts.admits, none] at sort
  cases trait with
  | under f =>
      rw [beq_iff_eq.mp must] at tagged
      exact tagged
  | of rules =>
      obtain ⟨each, none⟩ := (Bool.and_eq_true _ _).mp must
      obtain ⟨own, kind⟩ := named (beq_iff_eq.mp none)
      have among : own ∈ slot.sorts.rules := by simpa [kind, Sorts.admits] using sort
      have inside := List.contains_iff_mem.mp (List.all_eq_true.mp each own among)
      simpa [Trait.fits, Node.is, kind] using inside
  | named =>
      obtain ⟨own, kind⟩ := named (beq_iff_eq.mp must)
      simp [Trait.fits, Node.isNamed, kind]

theorem Slot.may_sound {slot : Slot} {trait : Trait} {n : Node} (fits : trait.fits n = true)
    (admits : slot.admits n = true) : slot.may trait = true := by
  obtain ⟨tagged, sort, _⟩ := Slot.admits_split admits
  cases trait with
  | under f =>
      have label : n.label = some f := beq_iff_eq.mp fits
      rw [label] at tagged
      cases tag : slot.tag <;> simp_all [Slot.may, Tag.admits]
  | of rules =>
      obtain ⟨r, inside, own⟩ := List.any_eq_true.mp fits
      have kind : n.kind = .rule r := beq_iff_eq.mp own
      have among : r ∈ slot.sorts.rules := by simpa [kind, Sorts.admits] using sort
      exact List.any_eq_true.mpr ⟨r, among, List.contains_iff_mem.mpr inside⟩
  | named =>
      cases kind : n.kind with
      | token text => simp [Trait.fits, Node.isNamed, kind] at fits
      | rule r =>
          have among : r ∈ slot.sorts.rules := by simpa [kind, Sorts.admits] using sort
          simpa [Slot.may] using List.ne_nil_of_mem among

def Item.slots : Item → List Slot
  | .one slot | .maybe slot => [slot]
  | .several slots => slots

def slotsOf (layout : Layout) : List Slot :=
  layout.flatMap Item.slots

theorem accepts_slots (layout : Layout) (nodes : List Node) (accepts : Accepts layout nodes) :
    ∀ n ∈ nodes, ∃ slot ∈ slotsOf layout, slot.admits n = true := by
  induction layout generalizing nodes with
  | nil =>
      cases accepts
      exact List.forall_mem_nil _
  | cons item rest ih =>
      have later (others : List Node) (inner : Accepts rest others) :
          ∀ n ∈ others, ∃ slot ∈ slotsOf (item :: rest), slot.admits n = true := by
        intro n member
        obtain ⟨slot, among, admits⟩ := ih others inner n member
        exact ⟨slot, List.mem_append_right _ among, admits⟩
      cases item with
      | one slot =>
          obtain ⟨first, others, rfl, admits, inner⟩ := accepts
          refine List.forall_mem_cons.mpr ⟨⟨slot, List.mem_cons_self, admits⟩, later others inner⟩
      | maybe slot =>
          obtain ⟨first, others, rfl, admits, inner⟩ := accepts
          refine List.forall_mem_append.mpr ⟨fun n member => ?_, later others inner⟩
          exact ⟨slot, List.mem_cons_self, admits n (by simpa using member)⟩
      | several slots =>
          obtain ⟨front, others, rfl, each, inner⟩ := accepts
          refine List.forall_mem_append.mpr ⟨fun n member => ?_, later others inner⟩
          obtain ⟨slot, among, admits⟩ := List.any_eq_true.mp (each n member)
          exact ⟨slot, List.mem_append_left _ among, admits⟩

/-- Some child must be there that has the trait. -/
def demands (trait : Trait) : Layout → Bool
  | [] => false
  | .one slot :: rest => slot.must trait || demands trait rest
  | .maybe _ :: rest | .several _ :: rest => demands trait rest

theorem demands_sound (layout : Layout) (trait : Trait) (nodes : List Node)
    (demanded : demands trait layout = true) (accepts : Accepts layout nodes) :
    ∃ m ∈ nodes, trait.fits m = true := by
  induction layout generalizing nodes with
  | nil => cases demanded
  | cons item rest ih =>
      cases item with
      | one slot =>
          obtain ⟨first, others, rfl, admits, inner⟩ := accepts
          rcases (Bool.or_eq_true _ _).mp demanded with must | later
          · exact ⟨first, List.mem_cons_self, Slot.must_sound must admits⟩
          · obtain ⟨m, member, fits⟩ := ih others later inner
            exact ⟨m, List.mem_cons_of_mem _ member, fits⟩
      | maybe slot =>
          obtain ⟨first, others, rfl, _, inner⟩ := accepts
          obtain ⟨m, member, fits⟩ := ih others demanded inner
          exact ⟨m, List.mem_append_right _ member, fits⟩
      | several slots =>
          obtain ⟨front, others, rfl, _, inner⟩ := accepts
          obtain ⟨m, member, fits⟩ := ih others demanded inner
          exact ⟨m, List.mem_append_right _ member, fits⟩

def most (trait : Trait) : Layout → Option Nat
  | [] => some 0
  | .one slot :: rest | .maybe slot :: rest =>
    (most trait rest).map fun count => if slot.may trait then count + 1 else count
  | .several slots :: rest => if slots.any (·.may trait) then none else most trait rest

theorem most_sound (layout : Layout) (trait : Trait) (nodes : List Node) (count : Nat)
    (bound : most trait layout = some count) (accepts : Accepts layout nodes) :
    (nodes.filter trait.fits).length ≤ count := by
  induction layout generalizing nodes count with
  | nil =>
      cases accepts
      exact Nat.zero_le _
  | cons item rest ih =>
      -- A single child counts only where its slot can have the trait.
      have single (slot : Slot) (first : Option Node) (others : List Node)
          (bound : ((most trait rest).map fun count =>
            if slot.may trait then count + 1 else count) = some count)
          (admits : ∀ n ∈ first, slot.admits n = true) (inner : Accepts rest others) :
          ((first.toList ++ others).filter trait.fits).length ≤ count := by
        obtain ⟨fewer, found, rfl⟩ := Option.map_eq_some_iff.mp bound
        have behind := ih others fewer found inner
        rw [List.filter_append, List.length_append]
        by_cases may : slot.may trait = true
        · have own := List.length_filter_le trait.fits first.toList
          have small : first.toList.length ≤ 1 := by cases first <;> simp
          simp only [may, if_true]
          omega
        · have none : first.toList.filter trait.fits = [] := by
            refine List.filter_eq_nil_iff.mpr fun n member fits => may ?_
            exact Slot.may_sound fits (admits n (by simpa using member))
          simp only [none, List.length_nil, may]
          simpa using behind
      cases item with
      | one slot =>
          obtain ⟨first, others, rfl, admits, inner⟩ := accepts
          refine single slot (some first) others bound ?_ inner
          rintro _ ⟨⟩
          exact admits
      | maybe slot =>
          obtain ⟨first, others, rfl, admits, inner⟩ := accepts
          exact single slot first others bound admits inner
      | several slots =>
          obtain ⟨front, others, rfl, each, inner⟩ := accepts
          simp only [most] at bound
          split at bound
          · cases bound
          · rename_i apart
            have none : front.filter trait.fits = [] := by
              refine List.filter_eq_nil_iff.mpr fun n member fits => apart ?_
              obtain ⟨slot, among, admits⟩ := List.any_eq_true.mp (each n member)
              exact List.any_eq_true.mpr ⟨slot, among, Slot.may_sound fits admits⟩
            rw [List.filter_append, none, List.nil_append]
            exact ih others count bound inner

def lacks (layout : Layout) (trait : Trait) : Bool :=
  (slotsOf layout).all fun slot => !slot.may trait

theorem lacks_sound (layout : Layout) (trait : Trait) (nodes : List Node)
    (lacking : lacks layout trait = true) (accepts : Accepts layout nodes) :
    nodes.filter trait.fits = [] := by
  refine List.filter_eq_nil_iff.mpr fun n member fits => ?_
  obtain ⟨slot, among, admits⟩ := accepts_slots layout nodes accepts n member
  have never := List.all_eq_true.mp lacking slot among
  simp [Slot.may_sound fits admits] at never

theorem accepts_split (front back : Layout) (nodes : List Node)
    (accepts : Accepts (front ++ back) nodes) :
    ∃ first second, nodes = first ++ second ∧ Accepts front first ∧ Accepts back second := by
  induction front generalizing nodes with
  | nil => exact ⟨[], nodes, rfl, rfl, accepts⟩
  | cons item rest ih =>
      cases item with
      | one slot =>
          obtain ⟨n, others, rfl, admits, inner⟩ := accepts
          obtain ⟨first, second, rfl, fore, behind⟩ := ih others inner
          exact ⟨n :: first, second, rfl, ⟨n, first, rfl, admits, fore⟩, behind⟩
      | maybe slot =>
          obtain ⟨n, others, rfl, admits, inner⟩ := accepts
          obtain ⟨first, second, rfl, fore, behind⟩ := ih others inner
          refine ⟨n.toList ++ first, second, by simp, ⟨n, first, rfl, admits, fore⟩, behind⟩
      | several slots =>
          obtain ⟨nodes, others, rfl, each, inner⟩ := accepts
          obtain ⟨first, second, rfl, fore, behind⟩ := ih others inner
          refine ⟨nodes ++ first, second, by simp, ⟨nodes, first, rfl, each, fore⟩, behind⟩

/-- The layout falls into stretches, one behind the other, such that the children with a trait stand
in its stretch alone. -/
def inOrder : List Trait → Layout → Bool
  | [], _ => true
  | trait :: rest, layout => (List.range (layout.length + 1)).any fun cut =>
    lacks (layout.drop cut) trait && rest.all (lacks (layout.take cut)) &&
      inOrder rest (layout.drop cut)

theorem in_order_sound (traits : List Trait) (layout : Layout) (nodes : List Node)
    (ordered : inOrder traits layout = true) (accepts : Accepts layout nodes) :
    (traits.flatMap fun trait => nodes.filter trait.fits).Sublist nodes := by
  induction traits generalizing layout nodes with
  | nil => exact List.nil_sublist _
  | cons trait rest ih =>
      obtain ⟨cut, _, parted⟩ := List.any_eq_true.mp ordered
      simp only [Bool.and_eq_true] at parted
      obtain ⟨⟨behindLacks, frontLacks⟩, inner⟩ := parted
      rw [← List.take_append_drop cut layout] at accepts
      obtain ⟨first, second, rfl, front, behind⟩ := accepts_split _ _ nodes accepts
      have own : (first ++ second).filter trait.fits = first.filter trait.fits := by
        rw [List.filter_append, lacks_sound _ trait second behindLacks behind, List.append_nil]
      have later : (rest.flatMap fun other => (first ++ second).filter other.fits) =
          rest.flatMap fun other => second.filter other.fits := by
        refine List.flatMap_congr fun other member => ?_
        have none := lacks_sound _ other first (List.all_eq_true.mp frontLacks other member) front
        rw [List.filter_append, none, List.nil_append]
      rw [List.flatMap_cons, own, later]
      exact List.filter_sublist.append (ih _ second inner behind)

def Goes (alternatives : List Layout) (n : Node) : Prop :=
  ∃ layout ∈ alternatives, Accepts layout n.solid

def alwaysHas (alternatives : List Layout) (trait : Trait) : Bool :=
  alternatives.all (demands trait)

def hasFew (alternatives : List Layout) (trait : Trait) : Bool :=
  alternatives.all fun layout => (most trait layout).any (· ≤ 1)

def hasSorts (alternatives : List Layout) (trait : Trait) (sorts : Sorts) : Bool :=
  alternatives.all fun layout =>
    (slotsOf layout).all fun slot => !slot.may trait || slot.sorts.below sorts

def allSorts (alternatives : List Layout) (sorts : Sorts) : Bool :=
  alternatives.all fun layout => (slotsOf layout).all fun slot => slot.sorts.below sorts

def hasOrder (alternatives : List Layout) (traits : List Trait) : Bool :=
  alternatives.all (inOrder traits)

section
variable {n : Node} {alternatives : List Layout} (goes : Goes alternatives n)
include goes

theorem picked_ordered (traits : List Trait) (ordered : hasOrder alternatives traits = true) :
    (traits.flatMap (picked n)).Sublist n.solid := by
  obtain ⟨layout, member, accepts⟩ := goes
  exact in_order_sound traits layout n.solid (List.all_eq_true.mp ordered layout member) accepts

theorem picked_some (trait : Trait) (demanded : alwaysHas alternatives trait = true) :
    ∃ m rest, picked n trait = m :: rest := by
  obtain ⟨layout, member, accepts⟩ := goes
  have here := List.all_eq_true.mp demanded layout member
  obtain ⟨m, inside, fits⟩ := demands_sound layout trait n.solid here accepts
  exact List.exists_cons_of_ne_nil (List.ne_nil_of_mem (List.mem_filter.mpr ⟨inside, fits⟩))

theorem picked_few (trait : Trait) (few : hasFew alternatives trait = true) :
    (picked n trait).length ≤ 1 := by
  obtain ⟨layout, member, accepts⟩ := goes
  have here := List.all_eq_true.mp few layout member
  obtain ⟨count, bound, small⟩ := (Option.any_eq_true _ _).mp here
  have most := most_sound layout trait n.solid count bound accepts
  exact Nat.le_trans most (by simpa using small)

theorem picked_sole (trait : Trait) (demanded : alwaysHas alternatives trait = true)
    (few : hasFew alternatives trait = true) : ∃ m, picked n trait = [m] := by
  obtain ⟨m, rest, same⟩ := picked_some goes trait demanded
  have bound := picked_few goes trait few
  rw [same, List.length_cons] at bound
  have none : rest = [] := List.eq_nil_of_length_eq_zero (by omega)
  exact ⟨m, by rw [same, none]⟩

theorem picked_sorted (trait : Trait) (sorts : Sorts)
    (sorted : hasSorts alternatives trait sorts = true) :
    ∀ m ∈ picked n trait, sorts.admits m.kind = true := by
  intro m member
  obtain ⟨inside, fits⟩ := List.mem_filter.mp member
  obtain ⟨layout, among, accepts⟩ := goes
  obtain ⟨slot, stands, admits⟩ := accepts_slots layout n.solid accepts m inside
  have checked := List.all_eq_true.mp (List.all_eq_true.mp sorted layout among) slot stands
  rw [Slot.may_sound fits admits, Bool.not_true, Bool.false_or] at checked
  exact Sorts.admits_mono checked m.kind (Slot.admits_split admits).2.1

theorem solid_sorted (sorts : Sorts) (sorted : allSorts alternatives sorts = true) :
    ∀ m ∈ n.solid, sorts.admits m.kind = true := by
  intro m member
  obtain ⟨layout, among, accepts⟩ := goes
  obtain ⟨slot, stands, admits⟩ := accepts_slots layout n.solid accepts m member
  have checked := List.all_eq_true.mp (List.all_eq_true.mp sorted layout among) slot stands
  exact Sorts.admits_mono checked m.kind (Slot.admits_split admits).2.1

theorem head_all (trait : Trait) (few : hasFew alternatives trait = true) :
    (picked n trait).head?.toList = picked n trait := by
  have bound := picked_few goes trait few
  match picked n trait, bound with
  | [], _ => rfl
  | [_], _ => rfl

end

end JavaOutline.Grammar
