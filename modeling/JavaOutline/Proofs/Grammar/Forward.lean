import JavaOutline.Proofs.Grammar.Ranges

/-!
What a shape reads, told from the marks of a text: its words and its single symbols. Rules say for
each shape when it reads certain marks, and when it refuses them, so that the reading of a text is
put together from the readings of its parts.
-/
namespace JavaOutline.Grammar

open JavaOutline.Tree

/-- Tokens that make marks when angle brackets are taken apart. Words do not touch each other. -/
inductive Bears : List Token → List Token → Prop
  | nil : Bears [] []
  | same {tokens marks : List Token} (t : Token)
      (apart : ∀ next ∈ marks.head?, t.isWord = true → next.isWord = true → t.stop < next.start)
      (bears : Bears tokens marks) : Bears (t :: tokens) (t :: marks)
  | split {tokens marks : List Token} (text : String) (start stop : Nat)
      (brackets : text = ">" ∨ text = ">>")
      (bears : Bears (⟨.symbol, text, start + 1, stop⟩ :: tokens) marks) :
      Bears (⟨.symbol, ">" ++ text, start, stop⟩ :: tokens)
        (⟨.symbol, ">", start, start + 1⟩ :: marks)

/-- The number of marks that are no closing angle brackets. -/
def solid (marks : List Token) : Nat :=
  marks.countP fun t => t.text != ">"

theorem solid_cons (t : Token) (marks : List Token) :
    solid (t :: marks) = solid marks + if t.text = ">" then 0 else 1 := by
  rw [solid, List.countP_cons, solid]
  by_cases bracket : t.text = ">" <;> simp [bracket]

theorem solid_append (front marks : List Token) :
    solid (front ++ marks) = solid front + solid marks :=
  List.countP_append

theorem solid_fewer {t : Token} (other : t.text ≠ ">") (front marks : List Token) :
    solid marks < solid (t :: (front ++ marks)) := by
  rw [solid_cons, if_neg other, solid_append]
  omega

namespace Bears

variable {tokens marks : List Token} {t : Token}

theorem solid (bears : Bears tokens marks) : solid marks ≤ tokens.length := by
  induction bears with
  | nil => exact Nat.le_refl 0
  | same t _ _ ih =>
      rw [Grammar.solid, List.countP_cons, List.length_cons]
      rw [Grammar.solid] at ih
      split <;> omega
  | split text start stop _ _ ih => simpa [Grammar.solid, List.countP_cons] using ih

theorem empty (bears : Bears tokens []) : tokens = [] := by
  cases bears
  rfl

/-- A mark that is no closing angle bracket is a token itself. -/
theorem cons (bears : Bears tokens (t :: marks)) (other : t.shape = .symbol → t.text ≠ ">") :
    ∃ others, tokens = t :: others ∧ Bears others marks := by
  cases bears with
  | same _ _ inner => exact ⟨_, rfl, inner⟩
  | split => exact absurd rfl (other rfl)

theorem head (bears : Bears tokens (t :: marks)) :
    ∃ first others, tokens = first :: others ∧ first.start = t.start ∧ first.shape = t.shape ∧
      (first.text = t.text ∨
        t.shape = .symbol ∧ t.text = ">" ∧ (first.text = ">>" ∨ first.text = ">>>")) := by
  cases bears with
  | same _ _ _ => exact ⟨t, _, rfl, rfl, rfl, .inl rfl⟩
  | split text start stop brackets _ =>
      refine ⟨_, _, rfl, rfl, rfl, .inr ⟨rfl, rfl, ?_⟩⟩
      rcases brackets with rfl | rfl
      · exact .inl rfl
      · exact .inr rfl

theorem begins {c : Char} {own : List Char} (bears : Bears tokens (t :: marks))
    (mark : t.text.toList = c :: own) :
    ∃ first others more, tokens = first :: others ∧ first.start = t.start ∧
      first.text.toList = c :: more := by
  obtain ⟨first, others, rfl, start, _, same⟩ := bears.head
  rcases same with same | ⟨_, bracket, same | same⟩
  · exact ⟨first, others, own, rfl, start, by rw [same, mark]⟩
  · rw [bracket] at mark
    obtain ⟨rfl, _⟩ := List.cons.inj mark
    exact ⟨first, others, ['>'], rfl, start, by rw [same]; rfl⟩
  · rw [bracket] at mark
    obtain ⟨rfl, _⟩ := List.cons.inj mark
    exact ⟨first, others, ['>', '>'], rfl, start, by rw [same]; rfl⟩

theorem word (bears : Bears tokens (t :: marks)) (word : t.shape = .word) :
    ∃ others, tokens = t :: others ∧ Bears others marks ∧
      ∀ next ∈ marks.head?, next.shape = .word → t.stop < next.start := by
  cases bears with
  | same _ apart inner =>
      refine ⟨_, rfl, inner, fun next first also => apart next first ?_ ?_⟩
      · simp [Token.isWord, word]
      · simp [Token.isWord, also]
  | split => cases word

/-- A closing angle bracket can be cut off. -/
theorem bracket (bears : Bears tokens (t :: marks)) (shape : t.shape = .symbol)
    (text : t.text = ">") (tight : t.stop = t.start + 1) :
    ∃ others, cutFrom? none ['>'] tokens = some (t.stop, others) ∧ Bears others marks := by
  have chars : ">".toList = ['>'] := rfl
  cases bears with
  | same _ _ bears =>
      refine ⟨_, ?_, bears⟩
      simp [cutFrom?, text, chars, List.isPrefixOf]
  | split text start stop brackets bears =>
      refine ⟨_, ?_, bears⟩
      rcases brackets with rfl | rfl <;> simp [cutFrom?, List.isPrefixOf, Token.isWord]

end Bears

/-- A shape reads marks up to the rest and makes nodes, whatever tokens bear the marks. -/
def Reads (fuel : Nat) (form : Form) (built : List Node) (marks : List Token) (nodes : List Node)
    (rest : List Token) : Prop :=
  ∀ tokens, Bears tokens marks → ∃ others,
    form.read (readGoal java fuel) built tokens = some (nodes, others) ∧ Bears others rest

/-- A shape reads nothing that starts with marks. -/
def Refuses (fuel : Nat) (form : Form) (built : List Node) (marks : List Token) : Prop :=
  ∀ tokens, Bears tokens marks → form.read (readGoal java fuel) built tokens = none

section Rules

variable {fuel : Nat} {built nodes more : List Node} {marks between rest : List Token} {t : Token}
  {front back probe yes no body : Form}

theorem Reads.done : Reads fuel .done built marks [] marks :=
  fun tokens bears => ⟨tokens, rfl, bears⟩

theorem Reads.held : Reads fuel .held built marks built marks :=
  fun tokens bears => ⟨tokens, rfl, bears⟩

theorem Reads.heldIs {admits : Kind → Bool}
    (fits : built.getLast?.any (fun n => admits n.kind) = true) :
    Reads fuel (.heldIs admits) built marks [] marks :=
  fun tokens bears => ⟨tokens, if_pos fits, bears⟩

theorem Refuses.heldIs {admits : Kind → Bool}
    (misfits : built.getLast?.any (fun n => admits n.kind) = false) :
    Refuses fuel (.heldIs admits) built marks :=
  fun _ _ => if_neg (by simp [misfits])

theorem Refuses.never : Refuses fuel .never built marks :=
  fun _ _ => rfl

theorem Reads.seq (before : Reads fuel front built marks nodes between)
    (after : Reads fuel back built between more rest) :
    Reads fuel (.seq front back) built marks (nodes ++ more) rest := by
  intro tokens bears
  obtain ⟨others, found, inner⟩ := before tokens bears
  obtain ⟨others, also, last⟩ := after others inner
  refine ⟨others, ?_, last⟩
  simp [Shape.read, found, also]

theorem Refuses.early (refuses : Refuses fuel front built marks) :
    Refuses fuel (.seq front back) built marks := by
  intro tokens bears
  simp [Shape.read, refuses tokens bears]

theorem Refuses.late (before : Reads fuel front built marks nodes between)
    (refuses : Refuses fuel back built between) :
    Refuses fuel (.seq front back) built marks := by
  intro tokens bears
  obtain ⟨others, found, inner⟩ := before tokens bears
  simp [Shape.read, found, refuses others inner]

theorem Reads.pick (holds : Reads fuel probe built marks more between)
    (reads : Reads fuel yes built marks nodes rest) :
    Reads fuel (.pick probe yes no) built marks nodes rest := by
  intro tokens bears
  obtain ⟨others, found, _⟩ := holds tokens bears
  simpa [Shape.read, found] using reads tokens bears

theorem Reads.pass (fails : Refuses fuel probe built marks)
    (reads : Reads fuel no built marks nodes rest) :
    Reads fuel (.pick probe yes no) built marks nodes rest := by
  intro tokens bears
  simpa [Shape.read, fails tokens bears] using reads tokens bears

theorem Refuses.pick (holds : Reads fuel probe built marks more between)
    (refuses : Refuses fuel yes built marks) :
    Refuses fuel (.pick probe yes no) built marks := by
  intro tokens bears
  obtain ⟨others, found, _⟩ := holds tokens bears
  simpa [Shape.read, found] using refuses tokens bears

theorem Refuses.pass (fails : Refuses fuel probe built marks)
    (refuses : Refuses fuel no built marks) :
    Refuses fuel (.pick probe yes no) built marks := by
  intro tokens bears
  simpa [Shape.read, fails tokens bears] using refuses tokens bears

theorem Reads.node {r : Rule} (reads : Reads fuel body built marks nodes rest) :
    Reads fuel (.node r body) built marks [Node.ofRule r nodes] rest := by
  intro tokens bears
  obtain ⟨others, found, inner⟩ := reads tokens bears
  exact ⟨others, by simp [Shape.read, found], inner⟩

theorem Reads.field {f : Field} (reads : Reads fuel body built marks nodes rest) :
    Reads fuel (.field f body) built marks (nodes.map (Node.labelled f)) rest := by
  intro tokens bears
  obtain ⟨others, found, inner⟩ := reads tokens bears
  exact ⟨others, by simp [Shape.read, found], inner⟩

theorem Reads.call {g : Goal} (reads : Reads fuel (java g) [] marks nodes rest) :
    Reads (fuel + 1) (.call g) built marks nodes rest :=
  reads

theorem Refuses.call {g : Goal} (refuses : Refuses fuel (java g) [] marks) :
    Refuses (fuel + 1) (.call g) built marks :=
  refuses

theorem Reads.whenever (holds : Reads fuel probe built marks more between)
    (reads : Reads fuel body built marks nodes rest) :
    Reads fuel (Shape.whenever probe body) built marks nodes rest :=
  .pick holds reads

theorem Reads.omitted (fails : Refuses fuel probe built marks) :
    Reads fuel (Shape.whenever probe body) built marks [] marks :=
  .pass fails .done

theorem Reads.absent (fails : Refuses fuel probe built marks) :
    Reads fuel (Shape.absent probe) built marks [] marks :=
  .pass fails .done

theorem Refuses.absent (holds : Reads fuel probe built marks more between) :
    Refuses fuel (Shape.absent probe) built marks :=
  .pick holds .never

theorem Refuses.choose {alternatives : List (Form × Form)} {otherwise : Form}
    (fails : ∀ entry ∈ alternatives, Refuses fuel entry.1 built marks)
    (refuses : Refuses fuel otherwise built marks) :
    Refuses fuel (Shape.choose alternatives otherwise) built marks := by
  induction alternatives with
  | nil => exact refuses
  | cons entry others ih =>
      obtain ⟨own, inner⟩ := List.forall_mem_cons.mp fails
      exact .pass own (ih inner)

theorem Refuses.either {probes : List Form}
    (fails : ∀ probe ∈ probes, Refuses fuel probe built marks) :
    Refuses fuel (Shape.either probes) built marks := by
  apply Refuses.choose _ .never
  intro entry member
  obtain ⟨probe, among, rfl⟩ := List.mem_map.mp member
  exact fails probe among

theorem Reads.choose {before after : List (Form × Form)} {otherwise : Form}
    (fails : ∀ entry ∈ before, Refuses fuel entry.1 built marks)
    (reads : Reads fuel (Shape.choose after otherwise) built marks nodes rest) :
    Reads fuel (Shape.choose (before ++ after) otherwise) built marks nodes rest := by
  induction before with
  | nil => exact reads
  | cons entry others ih =>
      obtain ⟨own, inner⟩ := List.forall_mem_cons.mp fails
      exact .pass own (ih inner)

/-- Items are read as long as the probe holds, with a turn for each mark that can start one. -/
def Repeats (fuel : Nat) (probe item : Form) (built : List Node) (marks : List Token)
    (nodes : List Node) (rest : List Token) : Prop :=
  ∀ count tokens, solid marks ≤ count → Bears tokens marks → ∃ others,
    readMany (fun ts => (probe.read (readGoal java fuel) built ts).isSome)
      (fun ts => item.read (readGoal java fuel) built ts) count tokens = some (nodes, others) ∧
      Bears others rest

theorem Repeats.stop {item : Form} (fails : Refuses fuel probe built marks) :
    Repeats fuel probe item built marks [] marks := by
  intro count tokens _ bears
  refine ⟨tokens, ?_, bears⟩
  cases count with
  | zero => rfl
  | succ count => simp [readMany, fails tokens bears]

theorem Repeats.turn {item : Form} {probed : List Node} {ahead : List Token}
    (holds : Reads fuel probe built marks probed ahead)
    (reads : Reads fuel item built marks nodes between) (fewer : solid between < solid marks)
    (again : Repeats fuel probe item built between more rest) :
    Repeats fuel probe item built marks (nodes ++ more) rest := by
  intro count tokens enough bears
  cases count with
  | zero => omega
  | succ count =>
      obtain ⟨_, probed, _⟩ := holds tokens bears
      obtain ⟨others, found, inner⟩ := reads tokens bears
      obtain ⟨others, also, last⟩ := again count others (by omega) inner
      refine ⟨others, ?_, last⟩
      simp [readMany, probed, found, also]

theorem Reads.many {item : Form} (repeats : Repeats fuel probe item built marks nodes rest) :
    Reads fuel (.many probe item) built marks nodes rest := by
  intro tokens bears
  exact repeats _ tokens (Nat.le_succ_of_le bears.solid) bears

theorem Reads.unrepeated {item : Form} (fails : Refuses fuel probe built marks) :
    Reads fuel (.many probe item) built marks [] marks :=
  .many (.stop fails)

def Continues (fuel : Nat) (probe step : Form) (held : List Node) (marks : List Token)
    (nodes : List Node) (rest : List Token) : Prop :=
  ∀ count tokens, solid marks ≤ count → Bears tokens marks → ∃ others,
    readChain (fun ns ts => (probe.read (readGoal java fuel) ns ts).isSome)
      (fun ns ts => step.read (readGoal java fuel) ns ts) count held tokens =
        some (nodes, others) ∧ Bears others rest

theorem Continues.stop {step : Form} {held : List Node} (fails : Refuses fuel probe held marks) :
    Continues fuel probe step held marks held marks := by
  intro count tokens _ bears
  refine ⟨tokens, ?_, bears⟩
  cases count with
  | zero => rfl
  | succ count => simp [readChain, fails tokens bears]

theorem Continues.turn {step : Form} {held probed : List Node} {ahead : List Token}
    (holds : Reads fuel probe held marks probed ahead)
    (reads : Reads fuel step held marks nodes between) (fewer : solid between < solid marks)
    (again : Continues fuel probe step nodes between more rest) :
    Continues fuel probe step held marks more rest := by
  intro count tokens enough bears
  cases count with
  | zero => omega
  | succ count =>
      obtain ⟨_, probed, _⟩ := holds tokens bears
      obtain ⟨others, found, inner⟩ := reads tokens bears
      obtain ⟨others, also, last⟩ := again count others (by omega) inner
      refine ⟨others, ?_, last⟩
      simp [readChain, probed, found, also]

theorem Reads.chain {base step : Form} (reads : Reads fuel base built marks nodes between)
    (continues : Continues fuel probe step nodes between more rest) :
    Reads fuel (.chain base probe step) built marks more rest := by
  intro tokens bears
  obtain ⟨others, found, inner⟩ := reads tokens bears
  obtain ⟨last, also, bears⟩ := continues _ others (Nat.le_succ_of_le inner.solid) inner
  exact ⟨last, by simp [Shape.read, found, also], bears⟩

theorem Refuses.chain {base step : Form} (refuses : Refuses fuel base built marks) :
    Refuses fuel (.chain base probe step) built marks := by
  intro tokens bears
  simp [Shape.read, refuses tokens bears]

theorem Reads.keyword {words : List String} (word : t.shape = .word) (among : t.text ∈ words) :
    Reads fuel (.keyword words) built (t :: rest) [bareNode t] rest := by
  intro tokens bears
  obtain ⟨others, rfl, inner⟩ := bears.cons (by simp [word])
  exact ⟨others, by simp [Shape.read, Token.isWord, word, among], inner⟩

theorem Refuses.keyword {words : List String} (other : t.shape = .word → t.text ∉ words) :
    Refuses fuel (.keyword words) built (t :: rest) := by
  intro tokens bears
  obtain ⟨first, others, rfl, _, shape, text | ⟨symbol, _⟩⟩ := bears.head
  · by_cases word : t.shape = .word
    · simp [Shape.read, Token.isWord, shape, text, word, other word]
    · simp [Shape.read, Token.isWord, shape, word]
  · simp [Shape.read, Token.isWord, shape, symbol]

theorem Reads.symbol {symbols : List String} (symbol : t.shape = .symbol)
    (among : t.text ∈ symbols) (other : t.text ≠ ">") :
    Reads fuel (.symbol symbols) built (t :: rest) [bareNode t] rest := by
  intro tokens bears
  obtain ⟨others, rfl, inner⟩ := bears.cons (fun _ => other)
  exact ⟨others, by simp [Shape.read, symbol, among], inner⟩

def Apart (t : Token) (symbols : List String) : Prop :=
  t.shape = .symbol → t.text ∉ symbols ∧ ">>" ∉ symbols ∧ ">>>" ∉ symbols

theorem Apart.subset {few symbols : List String} (apart : Apart t symbols)
    (within : few ⊆ symbols) : Apart t few := by
  intro symbol
  obtain ⟨other, two, three⟩ := apart symbol
  exact ⟨fun member => other (within member), fun member => two (within member),
    fun member => three (within member)⟩

theorem Apart.single {symbols : List String} (apart : Apart t symbols) {text : String}
    (member : text ∈ symbols) : Apart t [text] :=
  apart.subset (by simpa using member)

theorem Refuses.symbol {symbols : List String} (other : Apart t symbols) :
    Refuses fuel (.symbol symbols) built (t :: rest) := by
  intro tokens bears
  obtain ⟨first, others, rfl, _, shape, text | ⟨symbol, _, text⟩⟩ := bears.head
  · by_cases symbol : t.shape = .symbol
    · simp [Shape.read, shape, text, symbol, (other symbol).1]
    · simp [Shape.read, shape, symbol]
  · rcases text with text | text <;> simp [Shape.read, shape, symbol, text, other symbol]

theorem Reads.word {r : Rule} {admits : String → Bool} (word : t.shape = .word)
    (fits : admits t.text = true) :
    Reads fuel (.word r admits) built (t :: rest) [leafNode r t] rest := by
  intro tokens bears
  obtain ⟨others, rfl, inner⟩ := bears.cons (by simp [word])
  exact ⟨others, by simp [Shape.read, Token.isWord, word, fits], inner⟩

theorem Refuses.word {r : Rule} {admits : String → Bool}
    (misfits : t.shape = .word → admits t.text = false) :
    Refuses fuel (.word r admits) built (t :: rest) := by
  intro tokens bears
  obtain ⟨first, others, rfl, _, shape, text | ⟨symbol, _⟩⟩ := bears.head
  · by_cases word : t.shape = .word
    · simp [Shape.read, Token.isWord, shape, text, word, misfits word]
    · simp [Shape.read, Token.isWord, shape, word]
  · simp [Shape.read, Token.isWord, shape, symbol]

theorem Reads.nextWord {texts : List String} (word : t.shape = .word) (among : t.text ∈ texts) :
    Reads fuel (Shape.nextWord texts) built (t :: rest) [] (t :: rest) := by
  intro tokens bears
  obtain ⟨others, rfl, _⟩ := bears.cons (by simp [word])
  exact ⟨_, by simp [Shape.nextWord, Shape.read, word, among], bears⟩

theorem Refuses.nextWord {texts : List String} (other : t.shape = .word → t.text ∉ texts) :
    Refuses fuel (Shape.nextWord texts) built (t :: rest) := by
  intro tokens bears
  obtain ⟨first, others, rfl, _, shape, text | ⟨symbol, _⟩⟩ := bears.head
  · by_cases word : t.shape = .word
    · simp [Shape.nextWord, Shape.read, shape, text, word, other word]
    · simp [Shape.nextWord, Shape.read, shape, word]
  · simp [Shape.nextWord, Shape.read, shape, symbol]

theorem Reads.otherWord {texts : List String} (word : t.shape = .word) (missing : t.text ∉ texts) :
    Reads fuel (Shape.otherWord texts) built (t :: rest) [] (t :: rest) := by
  intro tokens bears
  obtain ⟨others, rfl, _⟩ := bears.cons (by simp [word])
  exact ⟨_, by simp [Shape.otherWord, Shape.read, word, missing], bears⟩

theorem Reads.nextSymbol {texts : List String} (symbol : t.shape = .symbol)
    (among : t.text ∈ texts) (other : t.text ≠ ">") :
    Reads fuel (Shape.nextSymbol texts) built (t :: rest) [] (t :: rest) := by
  intro tokens bears
  obtain ⟨others, rfl, _⟩ := bears.cons (fun _ => other)
  exact ⟨_, by simp [Shape.nextSymbol, Shape.read, symbol, among], bears⟩

theorem Refuses.nextSymbol {texts : List String} (other : Apart t texts) :
    Refuses fuel (Shape.nextSymbol texts) built (t :: rest) := by
  intro tokens bears
  obtain ⟨first, others, rfl, _, shape, text | ⟨symbol, _, text⟩⟩ := bears.head
  · by_cases symbol : t.shape = .symbol
    · simp [Shape.nextSymbol, Shape.read, shape, text, symbol, (other symbol).1]
    · simp [Shape.nextSymbol, Shape.read, shape, symbol]
  · rcases text with text | text <;>
      simp [Shape.nextSymbol, Shape.read, shape, symbol, text, other symbol]

theorem Reads.bracket (symbol : t.shape = .symbol) (text : t.text = ">")
    (tight : t.stop = t.start + 1) :
    Reads fuel (.cut ">") built (t :: rest) [.mk (.token ">") none t.start t.stop []] rest := by
  intro tokens bears
  obtain ⟨first, others, rfl, start, _⟩ := bears.head
  obtain ⟨others, found, inner⟩ := bears.bracket symbol text tight
  have chars : ">".toList = ['>'] := rfl
  exact ⟨others, by simp [Shape.read, chars, found, start], inner⟩

theorem Refuses.cut {text : String} {c d : Char} {own wanted : List Char}
    (mark : t.text.toList = c :: own) (cut : text.toList = d :: wanted) (apart : c ≠ d) :
    Refuses fuel (.cut text) built (t :: rest) := by
  intro tokens bears
  obtain ⟨first, others, more, rfl, _, begins⟩ := bears.begins mark
  simp [Shape.read, cutFrom?, begins, cut, List.isPrefixOf, apart, apart.symm]

/-- A word without a hyphen is no front of the hyphenated modifier, unless the next mark touches it
and goes on with that modifier. -/
theorem Refuses.cutNonSealed {u : Token} (word : t.shape = .word) (free : '-' ∉ t.text.toList)
    (next : u.shape = .word ∨ ∃ d own, u.text.toList = d :: own ∧ d ∉ ['o', 'n', '-']) :
    Refuses fuel (.cut "non-sealed") built (t :: u :: rest) := by
  intro tokens bears
  obtain ⟨others, rfl, inner, touches⟩ := bears.word word
  have wanted : "non-sealed".toList = ['n', 'o', 'n', '-', 's', 'e', 'a', 'l', 'e', 'd'] := rfl
  -- What is left of the modifier behind the word cannot be cut off the next token.
  have stuck (d : Char) (more : List Char) (among : d ∈ ['o', 'n', '-']) :
      cutFrom? (some t.stop) (d :: more) others = none := by
    rcases next with also | ⟨e, own, mark, apart⟩
    · obtain ⟨tail, rfl, _⟩ := inner.word also
      have later : u.start ≠ t.stop := Nat.ne_of_gt (touches u rfl also)
      simp [cutFrom?, later.symm]
    · obtain ⟨first, tail, further, rfl, _, begins⟩ := inner.begins mark
      have other : e ≠ d := fun same => apart (same ▸ among)
      by_cases touch : t.stop = first.start
      · simp [cutFrom?, touch, begins, List.isPrefixOf, other, other.symm]
      · simp [cutFrom?, touch]
  have whole : cutFrom? none "non-sealed".toList (t :: others) = none := by
    rw [wanted, cutFrom?]
    dsimp only
    by_cases front : t.text.toList.isPrefixOf ['n', 'o', 'n', '-', 's', 'e', 'a', 'l', 'e', 'd'] = true
    · rw [if_neg (by simp), if_pos front]
      rcases chars : t.text.toList with _ | ⟨_, _ | ⟨_, _ | ⟨_, _ | ⟨d, _⟩⟩⟩⟩
      · exact stuck 'n' _ (by simp)
      · exact stuck 'o' _ (by simp)
      · exact stuck 'n' _ (by simp)
      · exact stuck '-' _ (by simp)
      · have hyphen : d = '-' := by
          rw [chars] at front
          simp only [List.isPrefixOf, Bool.and_eq_true, beq_iff_eq] at front
          exact front.2.2.2.1
        exact absurd (by simp [chars, hyphen]) free
    · have behind : ¬ ['n', 'o', 'n', '-', 's', 'e', 'a', 'l', 'e', 'd'].isPrefixOf
          t.text.toList = true := by
        intro front
        have within := (List.isPrefixOf_iff_prefix.mp front).subset
        exact free (within (by simp))
      rw [if_neg (by simp), if_neg front, if_neg behind]
  simp only [Shape.read, whole, Option.map_none]

theorem Reads.cutNonSealed {a : Nat} :
    Reads fuel (.cut "non-sealed") built (⟨.word, "non", a, a + 3⟩ :: ⟨.symbol, "-", a + 3, a + 4⟩ ::
      ⟨.word, "sealed", a + 4, a + 10⟩ :: rest) [.mk (.token "non-sealed") none a (a + 10) []] rest := by
  intro tokens bears
  obtain ⟨_, rfl, second⟩ := bears.cons (by simp)
  obtain ⟨_, rfl, third⟩ := second.cons (by simp)
  obtain ⟨others, rfl, inner⟩ := third.cons (by simp)
  refine ⟨others, ?_, inner⟩
  have wanted : "non-sealed".toList = ['n', 'o', 'n', '-', 's', 'e', 'a', 'l', 'e', 'd'] := rfl
  have first : "non".toList = ['n', 'o', 'n'] := rfl
  have hyphen : "-".toList = ['-'] := rfl
  have last : "sealed".toList = ['s', 'e', 'a', 'l', 'e', 'd'] := rfl
  simp [Shape.read, cutFrom?, wanted, first, hyphen, last, List.isPrefixOf]

theorem Reads.skip (other : t.shape = .symbol → t.text ≠ ">") :
    Reads fuel .skip built (t :: rest) [] rest := by
  intro tokens bears
  obtain ⟨others, rfl, inner⟩ := bears.cons other
  exact ⟨others, rfl, inner⟩

theorem Reads.stop : Reads fuel .stop built [] [] [] := by
  intro tokens bears
  rw [bears.empty]
  exact ⟨[], rfl, .nil⟩

theorem Refuses.stop : Refuses fuel .stop built (t :: rest) := by
  intro tokens bears
  obtain ⟨first, others, rfl, _⟩ := bears.head
  rfl

end Rules

end JavaOutline.Grammar
