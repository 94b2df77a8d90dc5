import JavaOutline.Grammar.Reading

/-!
What a reading says of a shape: the tokens and nodes of a single step, and the readings of the parts
that a reading of a shape is put together from. What is told of all readings rests on these alone.
-/
namespace JavaOutline.Grammar.Shape

open JavaOutline.Tree

section
variable {Goal : Type} {goal : Goal → List Token → Reading} {built made : List Node}
  {tokens rest : List Token}

theorem read_held_is {admits : Kind → Bool}
    (read : (heldIs admits).read goal built tokens = some (made, rest)) :
    made = [] ∧ rest = tokens := by
  obtain ⟨_, same⟩ := Option.ite_none_right_eq_some.mp read
  cases same
  exact ⟨rfl, rfl⟩

theorem read_peek {admits : Token → Bool}
    (read : (peek admits).read goal built tokens = some (made, rest)) :
    made = [] ∧ rest = tokens := by
  obtain ⟨_, same⟩ := Option.ite_none_right_eq_some.mp read
  cases same
  exact ⟨rfl, rfl⟩

theorem read_stop (read : stop.read goal built tokens = some (made, rest)) :
    made = [] ∧ rest = tokens := by
  obtain ⟨_, same⟩ := Option.ite_none_right_eq_some.mp read
  cases same
  exact ⟨rfl, rfl⟩

theorem read_keyword {words : List String}
    (read : (keyword words).read goal built tokens = some (made, rest)) :
    ∃ t, tokens = t :: rest ∧ words.contains t.text = true ∧ made = [bareNode t] := by
  cases tokens with
  | nil => cases read
  | cons t behind =>
      obtain ⟨admitted, same⟩ := Option.ite_none_right_eq_some.mp read
      cases same
      exact ⟨t, rfl, ((Bool.and_eq_true _ _).mp admitted).2, rfl⟩

theorem read_symbol {symbols : List String}
    (read : (symbol symbols).read goal built tokens = some (made, rest)) :
    ∃ t, tokens = t :: rest ∧ symbols.contains t.text = true ∧ made = [bareNode t] := by
  cases tokens with
  | nil => cases read
  | cons t behind =>
      obtain ⟨admitted, same⟩ := Option.ite_none_right_eq_some.mp read
      cases same
      exact ⟨t, rfl, ((Bool.and_eq_true _ _).mp admitted).2, rfl⟩

theorem read_cut {text : String}
    (read : (cut text).read goal built tokens = some (made, rest)) :
    ∃ t behind last, tokens = t :: behind ∧
      cutFrom? none text.toList tokens = some (last, rest) ∧
      made = [.mk (.token text) none t.start last []] := by
  cases tokens with
  | nil => cases read
  | cons t behind =>
      obtain ⟨found, taken, same⟩ := Option.map_eq_some_iff.mp read
      cases same
      exact ⟨t, behind, found.1, rfl, taken, rfl⟩

theorem read_word {r : Rule} {admits : String → Bool}
    (read : (word r admits).read goal built tokens = some (made, rest)) :
    ∃ t, tokens = t :: rest ∧ t.isWord = true ∧ made = [leafNode r t] := by
  cases tokens with
  | nil => cases read
  | cons t behind =>
      obtain ⟨admitted, same⟩ := Option.ite_none_right_eq_some.mp read
      cases same
      exact ⟨t, rfl, ((Bool.and_eq_true _ _).mp admitted).1, rfl⟩

theorem read_lexeme {admits : Rule → Bool}
    (read : (lexeme admits).read goal built tokens = some (made, rest)) :
    ∃ t r, tokens = t :: rest ∧ admits r = true ∧ made = [leafNode r t] := by
  cases tokens with
  | nil => cases read
  | cons t behind =>
      simp only [Shape.read] at read
      split at read
      · split at read <;> cases read
        exact ⟨t, _, rfl, ‹_›, rfl⟩
      · cases read

theorem read_skip (read : skip.read goal built tokens = some (made, rest)) :
    ∃ t, tokens = t :: rest ∧ made = [] := by
  cases tokens with
  | nil => cases read
  | cons t behind =>
      cases read
      exact ⟨t, rfl, rfl⟩

theorem read_group (read : group.read goal built tokens = some (made, rest)) :
    ∃ t behind, tokens = t :: behind ∧ closing? 0 behind = some rest ∧ made = [] := by
  cases tokens with
  | nil => cases read
  | cons t behind =>
      obtain ⟨_, found⟩ := Option.ite_none_right_eq_some.mp read
      obtain ⟨_, closed, same⟩ := Option.map_eq_some_iff.mp found
      cases same
      exact ⟨t, behind, rfl, closed, rfl⟩

theorem read_seq {first second : Shape Goal}
    (read : (seq first second).read goal built tokens = some (made, rest)) :
    ∃ nodes behind others, first.read goal built tokens = some (nodes, behind) ∧
      second.read goal built behind = some (others, rest) ∧ made = nodes ++ others := by
  obtain ⟨⟨nodes, behind⟩, before, further⟩ := Option.bind_eq_some_iff.mp read
  obtain ⟨⟨others, last⟩, after, same⟩ := Option.bind_eq_some_iff.mp further
  cases same
  exact ⟨nodes, behind, others, before, after, rfl⟩

theorem read_pick {probe yes no : Shape Goal}
    (read : (pick probe yes no).read goal built tokens = some (made, rest)) :
    yes.read goal built tokens = some (made, rest) ∨
      no.read goal built tokens = some (made, rest) := by
  by_cases holds : (probe.read goal built tokens).isSome = true
  · exact .inl ((if_pos holds).symm.trans read)
  · exact .inr ((if_neg holds).symm.trans read)

theorem read_node {r : Rule} {body : Shape Goal}
    (read : (node r body).read goal built tokens = some (made, rest)) :
    ∃ nodes, body.read goal built tokens = some (nodes, rest) ∧ made = [Node.ofRule r nodes] := by
  obtain ⟨found, inside, same⟩ := Option.map_eq_some_iff.mp read
  cases same
  exact ⟨found.1, inside, rfl⟩

theorem read_field {f : Field} {body : Shape Goal}
    (read : (field f body).read goal built tokens = some (made, rest)) :
    ∃ nodes, body.read goal built tokens = some (nodes, rest) ∧
      made = nodes.map (Node.labelled f) := by
  obtain ⟨found, inside, same⟩ := Option.map_eq_some_iff.mp read
  cases same
  exact ⟨found.1, inside, rfl⟩

/-- What holds where no item is read, and with one more item in front, holds of any number. -/
theorem many_induction {probe : List Token → Bool} {item : List Token → Reading}
    {motive : List Token → List Node → List Token → Prop}
    (nothing : ∀ tokens, motive tokens [] tokens)
    (more : ∀ tokens nodes behind others rest, item tokens = some (nodes, behind) →
      motive behind others rest → motive tokens (nodes ++ others) rest)
    {fuel : Nat} (read : readMany probe item fuel tokens = some (made, rest)) :
    motive tokens made rest := by
  induction fuel generalizing tokens made with
  | zero =>
      cases read
      exact nothing _
  | succ fuel ih =>
      by_cases holds : probe tokens = true
      · rw [readMany, if_pos holds] at read
        obtain ⟨⟨nodes, behind⟩, first, further⟩ := Option.bind_eq_some_iff.mp read
        obtain ⟨⟨others, last⟩, again, same⟩ := Option.bind_eq_some_iff.mp further
        cases same
        exact more tokens nodes behind others rest first (ih again)
      · rw [readMany, if_neg holds] at read
        cases read
        exact nothing _

/-- What holds of nodes, and is kept by every step that wraps what is held, holds of a chain. -/
theorem chain_induction {probe : List Node → List Token → Bool}
    {step : List Node → List Token → Reading} {motive : List Node → List Token → Prop}
    (wraps : ∀ held tokens nodes behind, motive held tokens →
      step held tokens = some (nodes, behind) → motive nodes behind)
    {fuel : Nat} {held : List Node} (start : motive held tokens)
    (read : readChain probe step fuel held tokens = some (made, rest)) : motive made rest := by
  induction fuel generalizing held tokens with
  | zero =>
      cases read
      exact start
  | succ fuel ih =>
      by_cases holds : probe held tokens = true
      · rw [readChain, if_pos holds] at read
        obtain ⟨⟨nodes, behind⟩, one, again⟩ := Option.bind_eq_some_iff.mp read
        exact ih (wraps held tokens nodes behind start one) again
      · rw [readChain, if_neg holds] at read
        cases read
        exact start

theorem read_many {probe item : Shape Goal} {motive : List Token → List Node → List Token → Prop}
    (nothing : ∀ tokens, motive tokens [] tokens)
    (more : ∀ tokens nodes behind others rest,
      item.read goal built tokens = some (nodes, behind) → motive behind others rest →
      motive tokens (nodes ++ others) rest)
    (read : (many probe item).read goal built tokens = some (made, rest)) :
    motive tokens made rest :=
  many_induction nothing more read

theorem read_chain {base probe step : Shape Goal} {motive : List Node → List Token → Prop}
    (first : ∀ nodes behind, base.read goal built tokens = some (nodes, behind) →
      motive nodes behind)
    (wraps : ∀ held tokens nodes behind, motive held tokens →
      step.read goal held tokens = some (nodes, behind) → motive nodes behind)
    (read : (chain base probe step).read goal built tokens = some (made, rest)) :
    motive made rest := by
  obtain ⟨⟨held, behind⟩, before, after⟩ := Option.bind_eq_some_iff.mp read
  exact chain_induction wraps (first held behind before) after

end

/-- What holds of readers that read nothing, and of readers one call deeper, holds at any depth. -/
theorem read_goal_induction {Goal : Type} {grammar : Goal → Shape Goal}
    {motive : (Goal → List Token → Reading) → Prop} (never : motive fun _ _ => none)
    (deeper : ∀ goal, motive goal → motive fun g tokens => (grammar g).read goal [] tokens)
    (fuel : Nat) : motive (readGoal grammar fuel) := by
  induction fuel with
  | zero => exact never
  | succ fuel ih => exact deeper _ ih

end JavaOutline.Grammar.Shape
