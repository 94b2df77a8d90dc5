import Mathlib.Data.List.Forall2

/-!
Attempts that give a value or fail. A sequence of attempts succeeds with the values of all, or fails
as the first that fails does; wording a fault anew changes no value.
-/
namespace JavaOutline

theorem ok_of_option {ε α : Type} {answer : Except ε α} {value : α}
    (found : answer.toOption = some value) : answer = .ok value := by
  cases answer with
  | error fault => cases found
  | ok other => exact congrArg Except.ok (Option.some.inj found)

theorem bind_ok {ε α β : Type} {first : Except ε α} {next : α → Except ε β} {b : β}
    (passed : first >>= next = .ok b) : ∃ a, first = .ok a ∧ next a = .ok b := by
  cases own : first with
  | error error =>
      rw [own] at passed
      cases passed
  | ok a =>
      rw [own] at passed
      exact ⟨a, rfl, passed⟩

theorem map_ok {ε α β : Type} {attempt : Except ε α} {change : α → β} {b : β}
    (passed : attempt.map change = .ok b) : ∃ a, attempt = .ok a ∧ b = change a := by
  cases attempt with
  | error fault => cases passed
  | ok a => exact ⟨a, rfl, (Except.ok.inj passed).symm⟩

theorem map_fails_iff {ε α β : Type} (attempt : Except ε α) (change : α → β) :
    (∃ fault, attempt.map change = .error fault) ↔ ∃ fault, attempt = .error fault := by
  cases attempt <;> simp [Except.map]

theorem map_error_ok_iff {α β γ : Type} (wording : α → β) (attempt : Except α γ) (value : γ) :
    attempt.mapError wording = .ok value ↔ attempt = .ok value := by
  constructor
  · intro made
    cases attempt with
    | error fault => cases made
    | ok given => exact congrArg Except.ok (Except.ok.inj made)
  · rintro rfl
    rfl

section

variable {α β ε : Type} (attempt : α → Except ε β)

theorem mapM_ok_iff (items : List α) (found : List β) :
    items.mapM attempt = .ok found ↔ items.map attempt = found.map .ok := by
  induction items generalizing found with
  | nil => cases found <;> simp [pure, Except.pure]
  | cons item rest ih =>
      rw [List.mapM_cons]
      cases first : attempt item with
      | error fault => cases found <;> simp [bind, Except.bind, first]
      | ok value =>
          cases others : rest.mapM attempt <;> cases found <;>
            simp [bind, Except.bind, pure, Except.pure, first, others, ← ih]

theorem mapM_ok_forall_iff (items : List α) (found : List β) :
    items.mapM attempt = .ok found ↔
      List.Forall₂ (fun item value => attempt item = .ok value) items found := by
  rw [mapM_ok_iff, ← List.forall₂_map_right_iff (f := Except.ok),
    ← List.forall₂_map_left_iff (f := attempt), List.forall₂_eq_eq_eq]

/-- The first item without a value decides what goes wrong. -/
theorem mapM_error_iff (items : List α) (fault : ε) :
    items.mapM attempt = .error fault ↔ ∃ front item back, items = front ++ item :: back ∧
      (∀ earlier ∈ front, ∃ value, attempt earlier = .ok value) ∧ attempt item = .error fault := by
  induction items with
  | nil => simp [pure, Except.pure]
  | cons item rest ih =>
      rw [List.mapM_cons]
      cases first : attempt item with
      | error reason =>
          simp only [bind, Except.bind, Except.error.injEq]
          constructor
          · rintro rfl
            exact ⟨[], item, rest, rfl, by simp, first⟩
          · rintro ⟨_ | ⟨earlier, front⟩, failing, back, split, passed, failed⟩
            · obtain ⟨rfl, rfl⟩ := List.cons.inj split
              exact Except.error.inj (first.symm.trans failed)
            · obtain ⟨rfl, -⟩ := List.cons.inj split
              obtain ⟨value, reported⟩ := passed item List.mem_cons_self
              cases first.symm.trans reported
      | ok value =>
          have later : (do let others ← rest.mapM attempt; pure (value :: others)) =
              Except.error fault ↔ rest.mapM attempt = .error fault := by
            cases rest.mapM attempt <;> simp [bind, Except.bind, pure, Except.pure]
          refine later.trans (ih.trans ⟨?_, ?_⟩)
          · rintro ⟨front, failing, back, rfl, passed, failed⟩
            exact ⟨item :: front, failing, back, rfl,
              List.forall_mem_cons.mpr ⟨⟨value, first⟩, passed⟩, failed⟩
          · rintro ⟨_ | ⟨earlier, front⟩, failing, back, split, passed, failed⟩
            · obtain ⟨rfl, -⟩ := List.cons.inj split
              cases first.symm.trans failed
            · obtain ⟨rfl, rfl⟩ := List.cons.inj split
              exact ⟨front, failing, back, rfl, (List.forall_mem_cons.mp passed).2, failed⟩

theorem mapM_fails_iff (items : List α) :
    (∃ fault, items.mapM attempt = .error fault) ↔
      ∃ item ∈ items, ∃ fault, attempt item = .error fault := by
  constructor
  · rintro ⟨fault, failed⟩
    obtain ⟨front, item, back, rfl, -, own⟩ := (mapM_error_iff attempt items fault).mp failed
    exact ⟨item, List.mem_append_cons_self, fault, own⟩
  · rintro ⟨item, member, fault, failed⟩
    cases found : items.mapM attempt with
    | error reason => exact ⟨reason, rfl⟩
    | ok values =>
        have among : attempt item ∈ values.map Except.ok :=
          (mapM_ok_iff attempt items values).mp found ▸ List.mem_map.mpr ⟨item, member, rfl⟩
        rw [failed] at among
        simp at among

end

end JavaOutline
