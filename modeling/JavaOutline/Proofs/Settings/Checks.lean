import JavaOutline.Proofs.Attempts
import JavaOutline.Settings.Loading

/-!
Which settings are in force. Wherever settings come from they were checked, so their depth is in
range and each of their patterns can be read; they leave out the paths that one of the patterns
matches, and no others.
-/
namespace JavaOutline.Settings

structure Sound (settings : Settings) : Prop where
  deep : 1 ≤ settings.maxDepth
  bounded : settings.maxDepth ≤ 1024
  compiles : ∀ text ∈ settings.excludedPaths, ∃ pattern, Glob.parse text = .ok pattern

def Keeps (settings : Settings) (path : String) : Prop :=
  ∀ text ∈ settings.excludedPaths, ∀ pattern, Glob.parse text = .ok pattern →
    Glob.isMatch pattern path = false

theorem exclusion_ok_iff (text : String) (pattern : Glob.Pattern) :
    exclusion text = .ok pattern ↔ Glob.parse text = .ok pattern :=
  map_error_ok_iff _ _ _

variable {settings : Settings}

theorem exclusions_member {patterns : List Glob.Pattern}
    (read : settings.exclusions = .ok patterns) (pattern : Glob.Pattern) :
    pattern ∈ patterns ↔ ∃ text ∈ settings.excludedPaths, Glob.parse text = .ok pattern := by
  have same := (mapM_ok_iff _ _ _).mp read
  have shown : pattern ∈ patterns ↔ Except.ok pattern ∈ settings.excludedPaths.map exclusion := by
    simp [same]
  simp [shown, exclusion_ok_iff]

theorem exclusions_ok_iff :
    (∃ patterns, settings.exclusions = .ok patterns) ↔
      ∀ text ∈ settings.excludedPaths, ∃ pattern, Glob.parse text = .ok pattern := by
  constructor
  · rintro ⟨patterns, read⟩ text member
    have same := (mapM_ok_iff _ _ _).mp read
    have among : exclusion text ∈ patterns.map Except.ok :=
      same ▸ List.mem_map.mpr ⟨text, member, rfl⟩
    obtain ⟨pattern, -, found⟩ := List.mem_map.mp among
    exact ⟨pattern, (exclusion_ok_iff text pattern).mp found.symm⟩
  · intro all
    cases read : settings.exclusions with
    | ok patterns => exact ⟨patterns, rfl⟩
    | error fault =>
        obtain ⟨front, text, back, whole, -, failed⟩ := (mapM_error_iff _ _ _).mp read
        obtain ⟨pattern, parsed⟩ := all text (whole ▸ List.mem_append_cons_self)
        cases failed.symm.trans ((exclusion_ok_iff text pattern).mpr parsed)

/-- A check gives the settings back, if they are sound. -/
theorem checked_iff (other : Settings) :
    settings.checked = .ok other ↔ other = settings ∧ settings.Sound := by
  have sound : settings.Sound ↔
      ¬ (settings.maxDepth = 0 ∨ settings.maxDepth > 1024) ∧
        ∃ patterns, settings.exclusions = .ok patterns := by
    rw [exclusions_ok_iff]
    constructor
    · rintro ⟨deep, bounded, compiles⟩
      exact ⟨by omega, compiles⟩
    · rintro ⟨inRange, compiles⟩
      exact ⟨by omega, by omega, compiles⟩
  rw [sound]
  unfold checked largestDepth
  by_cases outside : settings.maxDepth = 0 ∨ settings.maxDepth > 1024
  · rw [if_pos (by simpa using outside)]
    simp [outside]
  · rw [if_neg (by simpa using outside)]
    cases settings.exclusions <;> simp only [Except.map, outside, not_false_eq_true,
      reduceCtorEq, Except.ok.injEq, exists_eq', exists_false, and_false, and_true, eq_comm]

theorem read_sound (source : Source) (disk : Files.Disk) (read : source.read disk = .ok settings) :
    settings.Sound := by
  rw [Source.read, map_error_ok_iff] at read
  split at read
  · rw [parse.eq_def] at read
    split at read
    · obtain ⟨rfl, sound⟩ := (checked_iff settings).mp read
      exact sound
    · cases read
  · cases read

theorem not_excluded_iff (sound : settings.Sound) (path : String) :
    settings.isExcluded path = false ↔ settings.Keeps path := by
  obtain ⟨patterns, read⟩ := exclusions_ok_iff.mpr sound.compiles
  have every : settings.isExcluded path = false ↔
      ∀ pattern ∈ patterns, Glob.isMatch pattern path = false := by
    simp [isExcluded, read]
  rw [every]
  constructor
  · intro kept text member pattern parsed
    exact kept pattern ((exclusions_member read pattern).mpr ⟨text, member, parsed⟩)
  · intro kept pattern member
    obtain ⟨text, among, parsed⟩ := (exclusions_member read pattern).mp member
    exact kept text among pattern parsed

end JavaOutline.Settings
