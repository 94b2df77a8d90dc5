import JavaOutline.Proofs.Grammar.Conformance

/-!
Trees without their comments. All other nodes stay where they were, and whatever is looked for by
rule, by field or among the parts of a node is found as before. The first and the last child are the
same where no comment stands there.
-/
namespace JavaOutline.Tree.Node

mutual

/-- The tree without its comments. All other nodes keep their ranges. -/
def uncommented : Node → Node
  | .mk kind label start stop children => .mk kind label start stop (uncommentedAll children)

def uncommentedAll : List Node → List Node
  | [] => []
  | n :: rest => if n.isComment then uncommentedAll rest else uncommented n :: uncommentedAll rest

end

/-- Comments below the node stand under no field, and neither first nor last. -/
structure Tidy (n : Node) : Prop where
  bare : ∀ child ∈ n.children, child.isComment = true → child.label = none
  front : ∀ child ∈ n.children.head?, child.isComment = false
  back : ∀ child ∈ n.children.getLast?, child.isComment = false

def Spaced (n : Node) : Prop :=
  n.Throughout Tidy

theorem Spaced.tidy {n : Node} (spaced : n.Spaced) : n.Tidy :=
  Throughout.here spaced

theorem Spaced.child {n child : Node} (spaced : n.Spaced) (member : child ∈ n.children) :
    child.Spaced :=
  Throughout.child spaced member

section
variable {α : Type} (n : Node)

@[simp] theorem kind_uncommented : n.uncommented.kind = n.kind := by
  cases n
  rw [uncommented]
  rfl

@[simp] theorem label_uncommented : n.uncommented.label = n.label := by
  cases n
  rw [uncommented]
  rfl

@[simp] theorem start_uncommented : n.uncommented.start = n.start := by
  cases n
  rw [uncommented]
  rfl

@[simp] theorem stop_uncommented : n.uncommented.stop = n.stop := by
  cases n
  rw [uncommented]
  rfl

@[simp] theorem is_uncommented (r : Rule) : n.uncommented.is r = n.is r := by
  simp [is]

@[simp] theorem is_named_uncommented : n.uncommented.isNamed = n.isNamed := by
  simp [isNamed]

@[simp] theorem is_comment_uncommented : n.uncommented.isComment = n.isComment := by
  simp [isComment]

theorem uncommented_all (nodes : List Node) :
    uncommentedAll nodes = (nodes.filter fun n => !n.isComment).map uncommented := by
  induction nodes with
  | nil => rw [uncommentedAll, List.filter_nil, List.map_nil]
  | cons n rest ih =>
      rw [uncommentedAll, List.filter_cons, ih]
      by_cases comment : n.isComment = true
      · simp [comment]
      · simp [comment]

theorem children_uncommented : n.uncommented.children = n.solid.map uncommented := by
  cases n
  rw [uncommented, children, uncommented_all]
  rfl

theorem filter_uncommented (test : Node → Bool) (same : ∀ m, test m.uncommented = test m)
    (fails : ∀ child ∈ n.children, child.isComment = true → test child = false) :
    n.uncommented.children.filter test = (n.children.filter test).map uncommented := by
  rw [children_uncommented, List.filter_map, solid, List.filter_filter]
  refine congrArg _ (List.filter_congr fun child member => ?_)
  rw [Function.comp_apply, same]
  by_cases comment : child.isComment = true
  · simp [fails child member comment]
  · simp [comment]

theorem filter_map_uncommented (pick : Node → Option α)
    (same : ∀ child ∈ n.children, pick child.uncommented = pick child)
    (none : ∀ child, child.isComment = true → pick child = none) :
    n.uncommented.children.filterMap pick = n.children.filterMap pick := by
  rw [children_uncommented, solid]
  generalize n.children = nodes at same
  induction nodes with
  | nil => rfl
  | cons first rest ih =>
      obtain ⟨own, others⟩ := List.forall_mem_cons.mp same
      by_cases comment : first.isComment = true
      · simpa [comment, none first comment] using ih others
      · simp only [Bool.not_eq_true] at comment
        simp [comment, own, List.filterMap_cons, ih others]

theorem find_uncommented (test : Node → Bool) (same : ∀ m, test m.uncommented = test m)
    (fails : ∀ child ∈ n.children, child.isComment = true → test child = false) :
    n.uncommented.children.find? test = (n.children.find? test).map uncommented := by
  rw [← List.head?_filter, filter_uncommented n test same fails, List.head?_map, List.head?_filter]

@[simp] theorem parts_uncommented : n.uncommented.parts = n.parts.map uncommented := by
  apply filter_uncommented
  · simp
  · intro child _ comment
    simp [comment]

theorem of_kind_uncommented (r : Rule) (line : r ≠ .lineComment) (block : r ≠ .blockComment) :
    n.uncommented.ofKind? r = (n.ofKind? r).map uncommented := by
  apply find_uncommented
  · simp
  · intro child _ comment
    cases own : child.is r with
    | false => rfl
    | true =>
        have kind : child.kind = .rule r := by simpa [is] using own
        simp [isComment, is, kind, line, block] at comment

end

section
variable {n : Node} (tidy : n.Tidy)
include tidy

theorem get_uncommented (f : Field) : n.uncommented.get? f = (n.get? f).map uncommented := by
  apply find_uncommented
  · simp
  · intro child member comment
    simp [tidy.bare child member comment]

theorem all_uncommented (f : Field) : n.uncommented.all f = (n.all f).map uncommented := by
  apply filter_uncommented
  · simp
  · intro child member comment
    simp [tidy.bare child member comment]

theorem head_uncommented : n.uncommented.children.head? = n.children.head?.map uncommented := by
  rw [children_uncommented, List.head?_map, solid]
  cases same : n.children with
  | nil => rfl
  | cons first rest =>
      have kept := tidy.front first (by simp [same])
      simp [kept]

theorem last_uncommented :
    n.uncommented.children.getLast? = n.children.getLast?.map uncommented := by
  rw [children_uncommented, List.getLast?_map, solid]
  rcases List.eq_nil_or_concat n.children with same | ⟨front, last, same⟩
  · simp [same]
  · have kept := tidy.back last (by simp [same])
    simp [same, kept]

end

section
variable {n : Node} (spaced : n.Spaced)
include spaced

theorem Spaced.parts : ∀ part ∈ n.parts, part.Spaced :=
  fun _ member => spaced.child (List.mem_filter.mp member).1

theorem Spaced.get (f : Field) : ∀ part ∈ n.get? f, part.Spaced :=
  fun _ found => spaced.child (List.mem_of_find?_eq_some found)

theorem Spaced.all (f : Field) : ∀ part ∈ n.all f, part.Spaced :=
  fun _ member => spaced.child (List.mem_filter.mp member).1

theorem Spaced.ofKind (r : Rule) : ∀ part ∈ n.ofKind? r, part.Spaced :=
  fun _ found => spaced.child (List.mem_of_find?_eq_some found)

end

end JavaOutline.Tree.Node
