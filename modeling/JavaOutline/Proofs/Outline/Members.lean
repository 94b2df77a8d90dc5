import JavaOutline.Outline.Members
import Mathlib.Data.List.Basic
import Mathlib.Data.List.Induction

/-!
Class bodies give back what was put into them, in one order and sort by sort. Every slot of a body
that grows by pushing members points into the list of its sort, and longer lists do not change what
stands in a slot.
-/
namespace JavaOutline

def Slot.Within (body : ClassBody) : Slot → Prop
  | .constant index => index < body.constants.length
  | .field index => index < body.fields.length
  | .initializer index => index < body.initializers.length
  | .constructor index => index < body.constructors.length
  | .method index => index < body.methods.length
  | .type index => index < body.types.length

namespace Member

def constant? : Member → Option EnumConstant
  | .constant c => some c
  | _ => none

def field? : Member → Option VariableDeclaration
  | .field f => some f
  | _ => none

def initializer? : Member → Option Block
  | .initializer b => some b
  | _ => none

def constructor? : Member → Option MethodDeclaration
  | .constructor m => some m
  | _ => none

def method? : Member → Option MethodDeclaration
  | .method m => some m
  | _ => none

def type? : Member → Option TypeDeclaration
  | .type t => some t
  | _ => none

end Member

namespace ClassBody

def Sound (body : ClassBody) : Prop :=
  ∀ slot ∈ body.order, slot.Within body

def memberAt? (body : ClassBody) : Slot → Option Member :=
  Slot.pick? (body.constants.map .constant) (body.fields.map .field)
    (body.initializers.map .initializer) (body.constructors.map .constructor)
    (body.methods.map .method) (body.types.map .type)

def freshSlot (body : ClassBody) : Member → Slot
  | .constant _ => .constant body.constants.length
  | .field _ => .field body.fields.length
  | .initializer _ => .initializer body.initializers.length
  | .constructor _ => .constructor body.constructors.length
  | .method _ => .method body.methods.length
  | .type _ => .type body.types.length

theorem push_order (body : ClassBody) (member : Member) :
    (body.push member).order = body.order ++ [body.freshSlot member] := by
  cases member <;> rfl

theorem push_fresh (body : ClassBody) (member : Member) :
    (body.freshSlot member).Within (body.push member) ∧
      (body.push member).memberAt? (body.freshSlot member) = some member := by
  cases member <;> simp [freshSlot, push, Slot.Within, memberAt?, Slot.pick?]

theorem push_old (body : ClassBody) (member : Member) (slot : Slot) (within : slot.Within body) :
    slot.Within (body.push member) ∧
      (body.push member).memberAt? slot = body.memberAt? slot := by
  cases member <;> cases slot <;> simp only [Slot.Within] at within <;>
    simp [push, Slot.Within, memberAt?, Slot.pick?, List.getElem?_append_left, within] <;> omega

theorem push_sound (body : ClassBody) (member : Member) (sound : body.Sound) :
    (body.push member).Sound := by
  intro slot found
  rw [push_order] at found
  rcases List.mem_append.mp found with old | new
  · exact (body.push_old member slot (sound slot old)).1
  · rw [List.mem_singleton.mp new]
    exact (body.push_fresh member).1

/-- The body stands for a sequence of members: replayed one after the other, every slot in use, and
sort by sort, each sort in the order of the sequence. -/
structure Replays (body : ClassBody) (sequence : List Member) : Prop where
  members : body.members = sequence
  slots : body.order.map body.memberAt? = sequence.map some
  constants : body.constants = sequence.filterMap Member.constant?
  fields : body.fields = sequence.filterMap Member.field?
  initializers : body.initializers = sequence.filterMap Member.initializer?
  constructors : body.constructors = sequence.filterMap Member.constructor?
  methods : body.methods = sequence.filterMap Member.method?
  types : body.types = sequence.filterMap Member.type?
  size : body.size = sequence.length

theorem members_of_slots (body : ClassBody) (sequence : List Member)
    (slots : body.order.map body.memberAt? = sequence.map some) : body.members = sequence := by
  have replayed : body.members = (body.order.map body.memberAt?).filterMap id := by
    rw [List.filterMap_map]
    rfl
  rw [replayed, slots, List.filterMap_map]
  exact List.filterMap_some

theorem push_replays (body : ClassBody) (sequence : List Member) (member : Member)
    (sound : body.Sound) (replays : body.Replays sequence) :
    (body.push member).Replays (sequence ++ [member]) := by
  have slots : (body.push member).order.map (body.push member).memberAt? =
      (sequence ++ [member]).map some := by
    have kept : body.order.map (body.push member).memberAt? = body.order.map body.memberAt? :=
      List.map_congr_left fun slot old => (body.push_old member slot (sound slot old)).2
    rw [push_order, List.map_append, kept, replays.slots, List.map_append, List.map_singleton,
      (body.push_fresh member).2, List.map_singleton]
  have size : (body.push member).size = (sequence ++ [member]).length := by
    rw [ClassBody.size, push_order, List.length_append, List.length_append, ← replays.size]
    rfl
  obtain ⟨_, _, constants, fields, initializers, constructors, methods, types, _⟩ := replays
  refine ⟨members_of_slots _ _ slots, slots, ?_, ?_, ?_, ?_, ?_, ?_, size⟩ <;>
    cases member <;> simp [push, Member.constant?, Member.field?, Member.initializer?,
      Member.constructor?, Member.method?, Member.type?, *]

/-- Pushing keeps what a body says about the members before, so a fold of pushes says it of all. -/
theorem fold_replays (members : List Member) :
    (members.foldl push empty).Sound ∧ (members.foldl push empty).Replays members := by
  induction members using List.reverseRecOn with
  | nil =>
      refine ⟨fun slot none => absurd none List.not_mem_nil, ?_⟩
      exact ⟨rfl, rfl, rfl, rfl, rfl, rfl, rfl, rfl, rfl⟩
  | append_singleton front last ih =>
      obtain ⟨sound, replays⟩ := ih
      rw [List.foldl_append, List.foldl_cons, List.foldl_nil]
      exact ⟨push_sound _ last sound, push_replays _ front last sound replays⟩

theorem members_replay (members : List Member) : (ofMembers members).members = members :=
  (fold_replays members).2.members

theorem of_members_mem (members : List Member) :
    (∀ c ∈ (ofMembers members).constants, .constant c ∈ members) ∧
      (∀ m ∈ (ofMembers members).constructors, .constructor m ∈ members) ∧
      ∀ m ∈ (ofMembers members).methods, .method m ∈ members := by
  obtain ⟨_, replays⟩ := fold_replays members
  refine ⟨fun c found => ?_, fun m found => ?_, fun m found => ?_⟩
  · obtain ⟨member, inside, same⟩ := List.mem_filterMap.mp (replays.constants ▸ found)
    cases member <;> cases same
    exact inside
  · obtain ⟨member, inside, same⟩ := List.mem_filterMap.mp (replays.constructors ▸ found)
    cases member <;> cases same
    exact inside
  · obtain ⟨member, inside, same⟩ := List.mem_filterMap.mp (replays.methods ▸ found)
    cases member <;> cases same
    exact inside

end ClassBody

end JavaOutline
