import JavaOutline.Proofs.Lower.Faithful

/-!
Outlines are well formed. Variables are declared by statements, at the start of loops and by
resources, and nowhere else; calls, assignments and declarations have the span of the expression
around them; and class bodies keep constructors and methods apart. All of this is known of a single
node and its parts, and lowering keeps to it level by level.
-/
namespace JavaOutline

open Walk

namespace Walk.Visit

def Everywhere (holds : Visit → Prop) (whole : Visit) : Prop :=
  ∀ place part, whole.at? place = some part → holds part

theorem Everywhere.intro {holds : Visit → Prop} {whole : Visit} (own : holds whole)
    (inner : ∀ part ∈ whole.parts, part.Everywhere holds) : whole.Everywhere holds := by
  intro place part stands
  cases place with
  | nil =>
      cases stands
      exact own
  | cons index rest =>
      obtain ⟨next, found, inside⟩ := Option.bind_eq_some_iff.mp stands
      exact inner next (List.mem_of_getElem? found) rest part inside

theorem Everywhere.here {holds : Visit → Prop} {whole : Visit} (all : whole.Everywhere holds) :
    holds whole :=
  all [] whole rfl

theorem Everywhere.inner {holds : Visit → Prop} {whole : Visit} (all : whole.Everywhere holds) :
    ∀ part ∈ whole.parts, part.Everywhere holds := by
  intro part member place inner stands
  obtain ⟨index, found⟩ := List.mem_iff_getElem?.mp member
  exact all (index :: place) inner (Option.bind_eq_some_iff.mpr ⟨part, found, stands⟩)

theorem Everywhere.below {holds : Visit → Prop} {whole part : Visit} {place : Place}
    (all : whole.Everywhere holds) (stands : whole.at? place = some part) :
    part.Everywhere holds := by
  intro further inner inside
  exact all (place ++ further) inner
    ((part_at_below _ place further whole part stands).trans inside)

/-- Variables are declared only in parts where the node may declare some. -/
def Placed (whole : Visit) : Prop :=
  ∀ (index : Nat) (part : Visit), whole.parts[index]? = some part → part.isDeclaration = true →
    index < whole.declarable

theorem placed_undeclared (whole : Visit)
    (apart : ∀ part ∈ whole.parts, part.isDeclaration = false) : whole.Placed := by
  intro index part found declares
  rw [apart part (List.mem_of_getElem? found)] at declares
  cases declares

theorem Rests.placed {holds : Visit → Prop} {whole : Visit} (rests : whole.Rests holds)
    (apart : ∀ part, holds part → part.isDeclaration = false) : whole.Placed := by
  intro index part found declares
  by_contra late
  have behind : (whole.parts.drop whole.declarable)[index - whole.declarable]? = some part := by
    rw [List.getElem?_drop, Nat.add_sub_cancel' (Nat.not_lt.mp late), found]
  rw [apart part (rests.others part (List.mem_of_getElem? behind))] at declares
  cases declares

end Walk.Visit

/-- The span of the call, assignment or declaration that an expression is. -/
def ExpressionKind.inner? : ExpressionKind → Option Span
  | .call c => some c.span
  | .assign a => some a.span
  | .declaration d => some d.span
  | _ => none

namespace Lower

open JavaOutline.Tree

structure Sound (source : Source) (among : Node → Prop) (whole : Visit) : Prop
    extends Made source among whole where
  placed : whole.Placed

variable {source : Source} {among : Node → Prop}

theorem declaration_sound (d : VariableDeclaration)
    (inner : (Visit.declaration d).Everywhere (Sound source among)) :
    (Visit.expression ⟨.declaration d, d.span⟩).Everywhere (Sound source among) := by
  have spans := inner.here.spans
  refine .intro ⟨⟨?_, rfl, trivial, List.forall_mem_nil _, List.forall_mem_nil _⟩, ?_⟩
    (List.forall_mem_singleton.mpr inner)
  · exact List.forall_mem_singleton.mpr (spans d.span List.mem_cons_self)
  · exact Visit.placed_undeclared _ (List.forall_mem_singleton.mpr rfl)

theorem sound_stacked (children : ∀ n, among n → ∀ child ∈ n.children, among child) :
    Stacked source among fun _ whole =>
      whole.Everywhere (Sound source among) ∧ whole.isDeclaration = false where
  layered left := by
    refine ⟨children, fun whole joint made inner => ⟨.intro ⟨made, ?_⟩ ?_, ?_⟩⟩
    · exact whole.placed_undeclared fun part member => (inner part member).2
    · exact fun part member => (inner part member).1
    · cases whole <;> first | rfl | cases joint
  above left whole made rests apart := by
    refine ⟨.intro ⟨made, rests.placed fun _ both => both.2⟩ fun part member => ?_, apart⟩
    rcases rests.each part member with taken | ⟨d, rfl, inner⟩
    · exact taken.1
    · exact declaration_sound d inner.1

theorem unit_sound (among : Node → Prop) (chars : List Char) (limit : Nat) (root : Node)
    (children : ∀ n, among n → ∀ child ∈ n.children, among child) (here : among root)
    (u : CompilationUnit) (ok : unit chars limit root = .ok u) :
    (Visit.unit u).Everywhere (Sound ⟨chars⟩ among) := by
  obtain ⟨made, inner⟩ := unit_stacked chars limit root (sound_stacked children) here u ok
  refine .intro ⟨made, ?_⟩ fun part member => (inner part member).1
  exact Visit.placed_undeclared _ fun part member => (inner part member).2

theorem inner_span {e : Expression} {span : Span}
    (particulars : Particulars source among (.expression e)) (inner : e.kind.inner? = some span) :
    span = e.span := by
  obtain ⟨kind, own⟩ := e
  cases kind with
  | declaration d =>
      cases inner
      exact particulars
  | call c =>
      cases inner
      obtain ⟨n, _, rfl, same⟩ := particulars
      exact same
  | assign a =>
      cases inner
      obtain ⟨n, _, rfl, same⟩ := particulars
      exact same
  | _ => cases inner

end Lower

def StatementKind.MayDeclare (index : Nat) (e : Expression) : StatementKind → Prop
  | .expression value => index = 0 ∧ value = e
  | .forLoop init _ _ _ => init[index]? = some e
  | .attempt tried => tried.resources[index]? = some e
  | _ => False

theorem StatementKind.may_declare (kind : StatementKind) (index : Nat) (e : Expression)
    (found : kind.parts[index]? = some (.expression e)) (early : index < kind.declarable) :
    kind.MayDeclare index e := by
  -- The parts that may declare variables are the first ones of their statement.
  have leading (values : List Expression) (rest : List Visit)
      (parts : kind.parts = values.map Visit.expression ++ rest)
      (size : kind.declarable = values.length) : values[index]? = some e := by
    rw [parts, List.getElem?_append_left (by simpa [size] using early), List.getElem?_map] at found
    obtain ⟨value, same, equal⟩ := Option.map_eq_some_iff.mp found
    rw [same, Visit.expression.inj equal]
  cases kind with
  | expression value =>
      obtain rfl : index = 0 := by simpa [declarable] using early
      exact ⟨rfl, Visit.expression.inj (Option.some.inj found)⟩
  | forLoop init condition update body =>
      exact leading init _ (by simp only [parts, List.append_assoc]; rfl) rfl
  | attempt tried =>
      exact leading tried.resources _ (by simp only [parts, Attempt.parts, List.append_assoc]; rfl)
        rfl
  | _ => exact absurd early (Nat.not_lt_zero index)

namespace CompilationUnit

/-- Variable declarations stand where statements have room for them; calls, assignments and
declarations have the span of their expression; and class bodies list constructors and methods by
whether they have a return type. A body is made of its members in order, so that each of these
stands somewhere in the unit. -/
structure WellFormed (u : CompilationUnit) : Prop where
  declarations : ∀ place e d, (Visit.unit u).at? place = some (.expression e) →
    e.kind = .declaration d → ∃ above index s, place = above ++ [index] ∧
      (Visit.unit u).at? above = some (.statement s) ∧ s.kind.MayDeclare index e
  spans : ∀ place e span, (Visit.unit u).at? place = some (.expression e) →
    e.kind.inner? = some span → span = e.span
  methods : ∀ place b, (Visit.unit u).at? place = some (.classBody b) →
    ∀ m ∈ b.methods, m.returnType.isSome = true ∧ m.isConstructor = false
  constructors : ∀ place b, (Visit.unit u).at? place = some (.classBody b) →
    ∀ m ∈ b.constructors, m.returnType = none ∧ m.isConstructor = true
  bodies : ∀ place b, (Visit.unit u).at? place = some (.classBody b) →
    b = ClassBody.ofMembers b.members

variable {u : CompilationUnit}

theorem declaration_above {place : Place} {e : Expression} {d : VariableDeclaration}
    (placed : (Visit.unit u).Everywhere Visit.Placed)
    (stands : (Visit.unit u).at? place = some (.expression e)) (kind : e.kind = .declaration d) :
    ∃ above index s, place = above ++ [index] ∧
      (Visit.unit u).at? above = some (.statement s) ∧ s.kind.MayDeclare index e := by
  rcases List.eq_nil_or_concat place with rfl | ⟨above, index, rfl⟩
  · cases stands
  · rw [List.concat_eq_append] at stands
    obtain ⟨whole, atAbove, found⟩ := part_at_last _ stands
    have declares : (Visit.expression e).isDeclaration = true := by
      obtain ⟨_, _⟩ := e
      cases kind
      rfl
    have early := placed above whole atAbove index _ found declares
    cases whole with
    | statement s =>
        exact ⟨above, index, s, List.concat_eq_append, atAbove,
          s.kind.may_declare index e found early⟩
    | _ => exact absurd early (Nat.not_lt_zero index)

end CompilationUnit

/-- What is read is sound, and all of it is made of nodes of the tree. -/
theorem read_sound (path : String) (chars : List Char) (limit : Nat) (u : CompilationUnit)
    (accepted : CompilationUnit.read path chars limit = .ok u) :
    ∃ root, Grammar.tree? chars = some root ∧
      (Visit.unit u).Everywhere (Lower.Sound ⟨chars⟩ root.Has) := by
  obtain ⟨root, follows, lowered⟩ := read_lowered path chars limit u accepted
  refine ⟨root, follows, Lower.unit_sound root.Has chars _ root ?_ (.self root) u lowered⟩
  exact fun n has child member => has.trans (.deeper member (.self child))

theorem lowered_well_formed (chars : List Char) (limit : Nat) (root : Tree.Node)
    (u : CompilationUnit) (ok : Lower.unit chars limit root = .ok u) : u.WellFormed := by
  have sound := Lower.unit_sound (fun _ => True) chars limit root (fun _ _ _ _ => trivial) trivial
    u ok
  have made (place : Place) (visit : Visit) (stands : (Visit.unit u).at? place = some visit) :=
    (sound place visit stands).particulars
  refine ⟨fun place e d stands kind => ?_, fun place e span stands inner => ?_,
    fun place b stands => ?_, fun place b stands => ?_,
    fun place b stands => (made place _ stands).1⟩
  · exact CompilationUnit.declaration_above
      (fun above whole atAbove => (sound above whole atAbove).placed) stands kind
  · exact Lower.inner_span (made place _ stands) inner
  · intro m member
    have typed := (made place _ stands).2.2 m member
    exact ⟨typed, by simpa [MethodDeclaration.isConstructor] using typed⟩
  · intro m member
    have untyped := (made place _ stands).2.1 m member
    exact ⟨untyped, by simp [MethodDeclaration.isConstructor, untyped]⟩

set_option maxRecDepth 100000 in
/-- A constructor with a loop over a declared variable, and a method. -/
theorem loop_variable_declared :
    ∃ root u b part,
      Grammar.tree? "class T{T(){for(int i=0;;);}int m(){}}".toList = some root ∧
        Lower.unit "class T{T(){for(int i=0;;);}int m(){}}".toList 8 root = .ok u ∧
        (Visit.unit u).at? [0, 0] = some (.classBody b) ∧
        (b.constructors.length, b.methods.length) = (1, 1) ∧
        (Visit.unit u).at? [0, 0, 0, 0, 0, 0] = some part ∧ part.isDeclaration = true ∧
        u.WellFormed := by
  obtain ⟨u, visit, accepted, stands, passes⟩ := read_place
    "class T{T(){for(int i=0;;);}int m(){}}" 8 [0, 0] (fun visit =>
      match visit with
      | .classBody b => (b.constructors.length, b.methods.length) == (1, 1) &&
        (visit.at? [0, 0, 0, 0]).any Visit.isDeclaration
      | _ => false) (by decide +kernel)
  obtain ⟨root, follows, lowered⟩ := read_lowered _ _ 8 u accepted
  split at passes
  · rename_i b
    obtain ⟨sorts, declares⟩ := (Bool.and_eq_true _ _).mp passes
    obtain ⟨part, inside, declaration⟩ := (Option.any_eq_true _ _).mp declares
    refine ⟨root, u, b, part, follows, lowered, stands, by simpa using sorts, ?_, declaration,
      lowered_well_formed _ 8 root u lowered⟩
    exact (part_at_below _ [0, 0] [0, 0, 0, 0] _ _ stands).trans inside
  · cases passes

end JavaOutline
