import JavaOutline.Outline.Basic

/-!
Members of a type in the order of the source. A class body keeps its members by sort; the slots
remember the order, and replaying them gives the members back one after the other. This is
`ClassBody` with its `push` and `members`.
-/
namespace JavaOutline

inductive Member where
  | constant (constant : EnumConstant)
  | field (field : VariableDeclaration)
  | initializer (block : Block)
  | constructor (method : MethodDeclaration)
  | method (method : MethodDeclaration)
  | type (type : TypeDeclaration)

namespace ClassBody

def empty : ClassBody :=
  ⟨[], [], [], [], [], [], []⟩

def push (body : ClassBody) : Member → ClassBody
  | .constant c =>
    { body with
      constants := body.constants ++ [c]
      order := body.order ++ [.constant body.constants.length] }
  | .field f =>
    { body with
      fields := body.fields ++ [f]
      order := body.order ++ [.field body.fields.length] }
  | .initializer b =>
    { body with
      initializers := body.initializers ++ [b]
      order := body.order ++ [.initializer body.initializers.length] }
  | .constructor m =>
    { body with
      constructors := body.constructors ++ [m]
      order := body.order ++ [.constructor body.constructors.length] }
  | .method m =>
    { body with
      methods := body.methods ++ [m]
      order := body.order ++ [.method body.methods.length] }
  | .type t =>
    { body with
      types := body.types ++ [t]
      order := body.order ++ [.type body.types.length] }

def ofMembers (members : List Member) : ClassBody :=
  members.foldl push empty

end ClassBody

/-- What stands in a slot, given what stands for the members of each sort. -/
def Slot.pick? {α : Type} (constants fields initializers constructors methods types : List α) :
    Slot → Option α
  | .constant i => constants[i]?
  | .field i => fields[i]?
  | .initializer i => initializers[i]?
  | .constructor i => constructors[i]?
  | .method i => methods[i]?
  | .type i => types[i]?

namespace ClassBody

/-- The members in the order in which they were added. -/
def members (body : ClassBody) : List Member :=
  body.order.filterMap
    (Slot.pick? (body.constants.map .constant) (body.fields.map .field)
      (body.initializers.map .initializer) (body.constructors.map .constructor)
      (body.methods.map .method) (body.types.map .type))

def size (body : ClassBody) : Nat :=
  body.order.length

end ClassBody

end JavaOutline
