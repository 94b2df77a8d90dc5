import JavaOutline.Proofs.Lower.Origins
import JavaOutline.Proofs.Lower.Yields
import Mathlib.Data.List.Forall2

/-!
Members of a body are listed in the order of the tree. Each child of a body makes at most one
member, of its own sort and at its own place; the declarations behind the constants of an
enumeration are listed where they stand.
-/
namespace JavaOutline.Lower

open JavaOutline.Tree

variable {source : Source} {n : Node}

/-- Everything may be asked for and everything may fail; answers are about what was asked for. -/
def answering (source : Source) : Contract where
  asks := fun _ => True
  answers := Answers source
  faults := fun _ => True

theorem Yields.anything {α : Type} (plan : Plan α) :
    Yields (answering source) (fun _ => True) plan := by
  induction plan with
  | done value => trivial
  | fault reason => trivial
  | ask request next ih => exact ⟨trivial, fun found _ => ih found⟩

theorem Yields.behind {α β : Type} {property : β → Prop} {plan : Plan α} {next : α → Plan β}
    (after : ∀ value, Yields (answering source) property (next value)) :
    Yields (answering source) property (plan >>= next) :=
  (Yields.anything plan).bind fun value _ => after value

theorem block_spanned :
    Yields (answering source) (fun b => b.span = source.span n) (block source n) :=
  Yields.behind fun _ => Yields.ok _ rfl

theorem method_spanned :
    Yields (answering source) (fun m => m.span = source.span n) (method source n) := by
  refine Yields.behind fun name => ?_
  dsimp only
  split <;> exact Yields.behind fun _ => Yields.behind fun _ => Yields.ok _ rfl

theorem variables_spanned :
    Yields (answering source) (fun d => d.span = Span.ofRange source.chars n.start
      (((n.all .declarator).getLast?.map Node.stop).getD n.stop)) (variableDeclaration source n) :=
  Yields.behind fun _ => Yields.behind fun _ => Yields.ok _ rfl

/-- One member is listed for the node it stems from. -/
theorem member_listed {α : Type} {plan : Plan α} (member : α → Member)
    (same : memberNode? n = some n)
    (stems : Yields (answering source) (fun value => Stems source (member value) n) plan) :
    Yields (answering source)
      (fun found => List.Forall₂ (Stems source) found.toList (memberNode? n).toList)
      (plan.map fun value => some (member value)) := by
  rw [same]
  exact Yields.map _ (stems.mono fun _ stem => .cons stem .nil)

theorem plain_member_listed (constant : n.kind ≠ .rule .enumConstant) :
    Yields (answering source)
      (fun found => List.Forall₂ (Stems source) found.toList (memberNode? n).toList)
      (plainMember source n) := by
  unfold plainMember
  split
  case h_1 kind =>
    exact member_listed .method (by simp [memberNode?, kind])
      (method_spanned.mono fun _ span => ⟨.inl kind, span⟩)
  case h_2 kind =>
    exact member_listed .method (by simp [memberNode?, kind])
      (method_spanned.mono fun _ span => ⟨.inr kind, span⟩)
  case h_3 kind =>
    exact member_listed .constructor (by simp [memberNode?, kind])
      (method_spanned.mono fun _ span => ⟨.inl kind, span⟩)
  case h_4 kind =>
    exact member_listed .constructor (by simp [memberNode?, kind])
      (method_spanned.mono fun _ span => ⟨.inr kind, span⟩)
  case h_5 kind =>
    exact member_listed .field (by simp [memberNode?, kind])
      (variables_spanned.mono fun _ span => ⟨.inl kind, span⟩)
  case h_6 kind =>
    exact member_listed .field (by simp [memberNode?, kind])
      (variables_spanned.mono fun _ span => ⟨.inr kind, span⟩)
  case h_7 kind =>
    have inner : memberNode? n = n.ofKind? .block := by simp [memberNode?, kind]
    rw [inner]
    cases found : n.ofKind? .block with
    | none => exact Yields.ok none .nil
    | some b =>
        have block : b.kind = .rule .block := by
          simpa [Node.is] using List.find?_some found
        exact Yields.map _ (Yields.map _ (block_spanned.mono fun _ span =>
          .cons ⟨block, span⟩ .nil))
  case h_8 kind =>
    exact member_listed .initializer (by simp [memberNode?, kind])
      (block_spanned.mono fun _ span => ⟨kind, span⟩)
  case h_9 =>
    have other : memberNode? n = if (typeKind? n).isSome then some n else none := by
      unfold memberNode?
      split <;> first | rfl | exact absurd ‹_› constant | (exfalso; solve_by_elim)
    split
    · rename_i kind sort
      refine member_listed .type (by simp [other, sort]) ⟨trivial, fun t relied => ?_⟩
      exact ⟨sort.trans (congrArg some relied.2.symm), relied.1⟩
    · rename_i none
      rw [other, none]
      exact Yields.ok _ .nil

theorem members_listed (nodes : List Node) :
    Yields (answering source)
      (fun found => List.Forall₂ (Stems source) found (memberNodes nodes))
      (members source nodes) := by
  match nodes with
  | [] =>
      rw [members, memberNodes]
      exact Yields.ok [] .nil
  | .mk kind label start stop children :: rest =>
      rw [members, memberNodes]
      have joined (first : List Member) (front : List Node)
          (own : List.Forall₂ (Stems source) first front) :
          Yields (answering source)
            (fun found => List.Forall₂ (Stems source) found (front ++ memberNodes rest))
            (members source rest >>= fun others => pure (first ++ others)) :=
        (members_listed rest).bind fun others behind =>
          Yields.ok _ (List.rel_append own behind)
      split
      · exact (members_listed children).bind fun first own => joined first _ own
      · split
        · rename_i constant
          have sort : kind = .rule .enumConstant := beq_iff_eq.mp constant
          refine Yields.behind fun name => Yields.behind fun arguments => ?_
          refine Yields.behind fun body => ?_
          refine joined _ _ ?_
          simp only [memberNode?, Node.kind, sort, Option.toList_some]
          exact .cons ⟨rfl, rfl⟩ .nil
        · rename_i other
          have plain : (Node.mk kind label start stop children).kind ≠ .rule .enumConstant :=
            fun same => other (beq_iff_eq.mpr same)
          exact (Yields.map _ (plain_member_listed plain)).bind fun first own => joined first _ own

end JavaOutline.Lower
