import Mathlib.Data.Nat.Find
import JavaOutline.Lower.Unit

/-!
The depth limit of lowering decides only whether a source is refused. A run that is not refused for
depth asks the same questions under every larger limit and gets the same answers, so each source
has one threshold: below it every limit refuses, and from it on the limit does not matter.
-/
namespace JavaOutline

namespace Lower

variable {α : Type}

/-- The larger limit agrees wherever the smaller one does not refuse for depth. -/
def Result.Extends (larger smaller : Result α) : Prop :=
  smaller ≠ .error .tooDeep → larger = smaller

-- A run ends at its first error. Were an answer refused for depth, so would the whole run be; hence
-- every answer that the smaller run gets is the one that the larger run gets.
theorem run_extends (plan : Plan α) (larger smaller : (request : Ask) → Result request.Answer)
    (each : ∀ request, (larger request).Extends (smaller request)) :
    (plan.run larger).Extends (plan.run smaller) := by
  induction plan with
  | done value =>
      intro _
      rfl
  | fault reason =>
      intro _
      rfl
  | ask request next ih =>
      intro kept
      simp only [Plan.run] at kept ⊢
      have answered : smaller request ≠ .error .tooDeep := by
        intro refused
        exact kept (by rw [refused]; rfl)
      rw [each request answered]
      cases found : smaller request with
      | error reason => rfl
      | ok value =>
          rw [found] at kept
          exact ih value kept

theorem levels_extend (source : Source) (fewer more : Nat) (order : fewer ≤ more)
    (request : Ask) : (levels source more request).Extends (levels source fewer request) := by
  induction fewer generalizing more request with
  | zero =>
      intro kept
      exact absurd rfl kept
  | succ fewer ih =>
      obtain ⟨rest, rfl⟩ : ∃ rest, more = rest + 1 := ⟨more - 1, by omega⟩
      apply run_extends
      intro asked
      exact ih rest (by omega) asked

theorem unit_extends (chars : List Char) (root : Tree.Node) (fewer more : Nat)
    (order : fewer ≤ more) : (unit chars more root).Extends (unit chars fewer root) := by
  apply run_extends
  intro request
  exact levels_extend ⟨chars⟩ fewer more order request

end Lower

def Refused (path : String) (chars : List Char) (limit : Nat) : Prop :=
  CompilationUnit.read path chars limit = .error (.depthExceeded (min limit largestDepth))

section
variable (path : String) (chars : List Char)

theorem refused_of_depth_exceeded {limit bound : Nat}
    (refused : CompilationUnit.read path chars limit = .error (.depthExceeded bound)) :
    Refused path chars limit := by
  simp only [Refused, CompilationUnit.read] at refused ⊢
  split at refused
  · cases refused
  · split at refused
    · cases refused
    · rfl
    · cases refused

theorem read_extends {limit larger : Nat} (order : limit ≤ larger)
    (kept : ¬ Refused path chars limit) :
    CompilationUnit.read path chars larger = CompilationUnit.read path chars limit := by
  have bounds : min limit largestDepth ≤ min larger largestDepth := by omega
  simp only [Refused, CompilationUnit.read] at kept ⊢
  cases found : Grammar.tree? chars with
  | none => rfl
  | some root =>
      simp only [found] at kept ⊢
      have deep : Lower.unit chars (min limit largestDepth) root ≠ .error .tooDeep := by
        intro refused
        exact kept (by rw [refused])
      rw [Lower.unit_extends chars root _ _ bounds deep]
      split
      · rfl
      · contradiction
      · rfl

theorem read_clamped (limit : Nat) :
    CompilationUnit.read path chars limit =
      CompilationUnit.read path chars (min limit largestDepth) := by
  simp [CompilationUnit.read]

theorem refused_clamped (limit : Nat) :
    Refused path chars limit ↔ Refused path chars (min limit largestDepth) := by
  unfold Refused
  rw [← read_clamped, Nat.min_assoc, Nat.min_self]

theorem refused_below {limit larger : Nat} (order : limit ≤ larger)
    (refused : Refused path chars larger) : Refused path chars limit := by
  by_contra kept
  have same := read_extends path chars order kept
  exact kept (refused_of_depth_exceeded path chars (same.symm.trans refused))

/-- The smallest limit that does not refuse, or one more than the largest where all refuse. -/
theorem threshold_exists :
    ∃ threshold ≤ largestDepth + 1,
      ∀ limit, Refused path chars limit ↔ min limit largestDepth < threshold := by
  classical
  have last : ∃ threshold, threshold = largestDepth + 1 ∨ ¬ Refused path chars threshold :=
    ⟨_, .inl rfl⟩
  refine ⟨Nat.find last, Nat.find_min' last (.inl rfl), ?_⟩
  intro limit
  rw [refused_clamped]
  constructor
  · intro refused
    by_contra reached
    rcases Nat.find_spec last with whole | kept
    · omega
    · exact kept (refused_below path chars (Nat.le_of_not_lt reached) refused)
  · intro below
    by_contra kept
    exact Nat.find_min last below (.inr kept)

theorem limit_only_refuses :
    (∀ limit larger, limit ≤ larger →
      (∀ bound, CompilationUnit.read path chars limit ≠ .error (.depthExceeded bound)) →
      CompilationUnit.read path chars larger = CompilationUnit.read path chars limit) ∧
    (∀ limit larger u, limit ≤ larger → CompilationUnit.read path chars larger = .ok u →
      CompilationUnit.read path chars limit = .ok u ∨
      CompilationUnit.read path chars limit =
        .error (.depthExceeded (min limit largestDepth))) ∧
    ∃ threshold ≤ largestDepth + 1,
      (∀ limit, CompilationUnit.read path chars limit =
          .error (.depthExceeded (min limit largestDepth)) ↔
        min limit largestDepth < threshold) ∧
      ∀ limit larger, threshold ≤ min limit largestDepth → limit ≤ larger →
        CompilationUnit.read path chars larger = CompilationUnit.read path chars limit := by
  refine ⟨?_, ?_, ?_⟩
  · intro limit larger order kept
    exact read_extends path chars order (kept _)
  · intro limit larger u order accepted
    by_cases refused : Refused path chars limit
    · exact .inr refused
    · exact .inl ((read_extends path chars order refused).symm.trans accepted)
  · obtain ⟨threshold, most, exact⟩ := threshold_exists path chars
    refine ⟨threshold, most, exact, ?_⟩
    intro limit larger reached order
    apply read_extends path chars order
    intro refused
    have below := (exact limit).mp refused
    omega

end

set_option maxRecDepth 100000 in
/-- The initial value `((1))` needs four levels. -/
theorem nested_parentheses_threshold :
    CompilationUnit.read "T.java" "class T{int x=((1));}".toList 3 =
        .error (.depthExceeded 3) ∧
      ∃ u, ∀ limit, 4 ≤ limit →
        CompilationUnit.read "T.java" "class T{int x=((1));}".toList limit = .ok u := by
  have accepted : (CompilationUnit.read "T.java" "class T{int x=((1));}".toList 4).toOption.isSome =
      true := by decide +kernel
  obtain ⟨u, found⟩ := Option.isSome_iff_exists.mp accepted
  have opens : CompilationUnit.read "T.java" "class T{int x=((1));}".toList 4 = .ok u := by
    cases same : CompilationUnit.read "T.java" "class T{int x=((1));}".toList 4 <;>
      simp_all [Except.toOption]
  have law := limit_only_refuses "T.java" "class T{int x=((1));}".toList
  constructor
  · rcases law.2.1 3 4 u (by decide) opens with open' | refused
    · have closed : (CompilationUnit.read "T.java" "class T{int x=((1));}".toList
        3).toOption.isSome = false := by decide +kernel
      rw [open'] at closed
      cases closed
    · exact refused
  · refine ⟨u, fun limit order => ?_⟩
    rw [law.1 4 limit order (by intro bound; rw [opens]; exact fun h => nomatch h), opens]

end JavaOutline
