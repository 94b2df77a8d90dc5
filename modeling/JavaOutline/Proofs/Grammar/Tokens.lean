import JavaOutline.Proofs.Grammar.Layout
import JavaOutline.Proofs.Text.Blank
import JavaOutline.Tree.Lexer

/-!
Where tokens and comments lie. Both are cut out of a text from its start to its end, so tokens lie
one behind the other, comments do too, and no comment reaches into a token. None of them is empty:
a piece of no characters would be cut again and again until the fuel is spent.
-/
namespace JavaOutline.Tree

theorem space_blank {c : Char} (space : isSpace c = true) : Text.isBlank c = true := by
  have known : c.toNat = 32 ∨ 9 ≤ c.toNat ∧ c.toNat ≤ 13 := by
    simpa [isSpace, Char.ext_iff, ← UInt32.toNat_inj] using space
  unfold Text.isBlank
  rcases known with same | ⟨low, high⟩
  · rw [same]
    rfl
  · simp [low, high]

def Comment.Apart (c : Comment) (start stop : Nat) : Prop :=
  c.stop ≤ start ∨ stop ≤ c.start

theorem Comment.Apart.join {c : Comment} {first between last : Nat} (filled : c.start < c.stop)
    (front : c.Apart first between) (back : c.Apart between last) : c.Apart first last := by
  rcases front with before | behind
  · exact .inl before
  · rcases back with before | further
    · omega
    · exact .inr further

def Lined : Nat → List Token → Prop
  | _, [] => True
  | low, t :: rest => low ≤ t.start ∧ 0 < t.text.length ∧ t.start + t.text.length ≤ t.stop ∧
    Lined t.stop rest

theorem Lined.weaken {low lower : Nat} {tokens : List Token} (order : lower ≤ low)
    (lined : Lined low tokens) : Lined lower tokens := by
  cases tokens with
  | nil => trivial
  | cons t rest => exact ⟨Nat.le_trans order lined.1, lined.2⟩

theorem Lined.above {low : Nat} {tokens : List Token} (lined : Lined low tokens) :
    ∀ t ∈ tokens, low ≤ t.start := by
  induction tokens generalizing low with
  | nil => exact List.forall_mem_nil _
  | cons t rest ih =>
      obtain ⟨first, _, room, later⟩ := lined
      refine List.forall_mem_cons.mpr ⟨first, fun other member => ?_⟩
      have behind := ih later other member
      omega

/-- Tokens and comments as they are cut out of a text from a byte on. -/
structure Cut (offset : Nat) (tokens : List Token) (comments : List Comment) : Prop where
  lined : Lined offset tokens
  filled : ∀ c ∈ comments, offset ≤ c.start ∧ c.start < c.stop
  ordered : comments.Pairwise fun c later => c.stop ≤ later.start
  apart : ∀ c ∈ comments, ∀ t ∈ tokens, c.Apart t.start t.stop

section
variable {offset stop : Nat} {tokens : List Token} {comments : List Comment}

theorem Cut.nil : Cut offset [] [] :=
  ⟨trivial, List.forall_mem_nil _, List.Pairwise.nil, List.forall_mem_nil _⟩

theorem Cut.blank (order : offset ≤ stop) (cut : Cut stop tokens comments) :
    Cut offset tokens comments where
  lined := cut.lined.weaken order
  filled := fun c member => ⟨Nat.le_trans order (cut.filled c member).1, (cut.filled c member).2⟩
  ordered := cut.ordered
  apart := cut.apart

theorem Cut.comment (r : Rule) (order : offset < stop) (cut : Cut stop tokens comments) :
    Cut offset tokens (⟨r, offset, stop⟩ :: comments) where
  lined := cut.lined.weaken (Nat.le_of_lt order)
  filled := by
    refine List.forall_mem_cons.mpr ⟨⟨Nat.le_refl _, order⟩, ?_⟩
    exact (cut.blank (Nat.le_of_lt order)).filled
  ordered := List.pairwise_cons.mpr ⟨fun c member => (cut.filled c member).1, cut.ordered⟩
  apart := by
    refine List.forall_mem_cons.mpr ⟨fun t member => ?_, cut.apart⟩
    exact .inl (cut.lined.above t member)

theorem Cut.token (t : Token) (start : t.start = offset) (filled : 0 < t.text.length)
    (room : t.start + t.text.length ≤ t.stop) (cut : Cut t.stop tokens comments) :
    Cut offset (t :: tokens) comments where
  lined := ⟨Nat.le_of_eq start.symm, filled, room, cut.lined⟩
  filled := (cut.blank (by omega)).filled
  ordered := cut.ordered
  apart := fun c member => List.forall_mem_cons.mpr
    ⟨.inr (cut.filled c member).1, cut.apart c member⟩

end

/-- What is known of the next piece, by what it is: it takes characters, or the text goes on in the
same way behind it. -/
structure Piece.Known (modes : List Mode) (chars : List Char) (piece : Piece) : Prop where
  moves : 0 < piece.size ∨ piece.modes = modes
  blank : piece.role = .blank → ∀ c ∈ chars.take piece.size, isSpace c = true
  comment : ∀ r, piece.role = .comment r → r ∈ Grammar.commentRules
  word : piece.role = .token .word → ∀ c ∈ chars.take piece.size, Text.isWordPart c = true

section
variable {modes : List Mode} {chars : List Char} {piece : Piece}

theorem Piece.Known.other {shape : Token.Class} (role : piece.role = .token shape)
    (wordless : shape ≠ .word) (moves : 0 < piece.size ∨ piece.modes = modes) :
    piece.Known modes chars where
  moves := moves
  blank := by simp [role]
  comment := by simp [role]
  word := by simp [role, wordless]

theorem take_run (p : Char → Bool) (chars : List Char) :
    ∀ c ∈ chars.take (chars.takeWhile p).length, p c = true := by
  rw [← List.prefix_iff_eq_take.mp (List.takeWhile_prefix p)]
  exact List.all_eq_true.mp List.all_takeWhile

theorem Piece.Known.spaces (modes : List Mode) (chars : List Char) :
    Piece.Known modes chars ⟨(chars.takeWhile isSpace).length, .blank, modes⟩ where
  moves := .inr rfl
  blank := fun _ => take_run isSpace chars
  comment := nofun
  word := nofun

theorem Piece.Known.remark {r : Rule} {size : Nat} {behind : List Char}
    (found : comment? behind = some (r, size)) :
    Piece.Known modes chars ⟨size, .comment r, modes⟩ where
  moves := .inr rfl
  blank := nofun
  comment := by
    rintro _ ⟨⟩
    unfold comment? at found
    split at found
    · cases found
      simp [Grammar.commentRules]
    · obtain ⟨_, _, same⟩ := Option.map_eq_some_iff.mp found
      cases same
      simp [Grammar.commentRules]
    · cases found
  word := nofun

theorem code_piece_known {braces : Nat} {outer : List Mode}
    (found : codePiece? braces outer chars = some piece) :
    piece.Known (.code braces :: outer) chars := by
  unfold codePiece? at found
  dsimp only at found
  split at found
  case h_5 =>
    split at found <;>
      · cases found
        exact .other rfl (by decide) (.inl Nat.one_pos)
  case h_6 =>
    obtain ⟨_, _, rfl⟩ := Option.map_eq_some_iff.mp found
    exact .other rfl (by decide) (.inr rfl)
  case h_7 =>
    split at found
    · cases found
      exact .spaces _ _
    · split at found
      · cases found
        exact ⟨.inr rfl, nofun, nofun, fun _ => take_run Text.isWordPart _⟩
      · split at found
        · cases found
          exact .remark ‹_›
        · split at found
          · cases found
            exact .other rfl (by simp) (.inr rfl)
          · split at found <;> cases found
            exact .other rfl (by decide) (.inr rfl)
  all_goals
    cases found
    try exact .other rfl (by decide) (.inl (Nat.succ_pos _))

theorem line_piece_known {outer : List Mode} (found : linePiece? outer chars = some piece) :
    piece.Known (.line :: outer) chars := by
  unfold linePiece? at found
  split at found
  case h_4 =>
    obtain ⟨_, _, rfl⟩ := Option.map_eq_some_iff.mp found
    exact .other rfl (by decide) (.inr rfl)
  case h_5 =>
    cases found
    exact .other rfl (by decide) (.inr rfl)
  all_goals
    cases found
    try exact .other rfl (by decide) (.inl (Nat.succ_pos _))

theorem block_piece_known {outer : List Mode} (found : blockPiece? outer chars = some piece) :
    piece.Known (.block :: outer) chars := by
  unfold blockPiece? at found
  dsimp only at found
  split at found
  case h_7 =>
    split at found
    · split at found
      · split at found
        · cases found
          exact .remark ‹_›
        · cases found
          exact .spaces _ _
      · cases found
        exact .other rfl (by decide) (.inr rfl)
    · cases found
      exact .other rfl (by decide) (.inr rfl)
  all_goals
    cases found
    try exact .other rfl (by decide) (.inl (Nat.succ_pos _))

theorem piece_known (found : piece? modes chars = some piece) : piece.Known modes chars := by
  unfold piece? at found
  split at found
  · cases found
  · exact code_piece_known found
  · exact line_piece_known found
  · exact block_piece_known found

end

theorem byte_size_length (chars : List Char) : chars.length ≤ Text.byteSize chars := by
  induction chars with
  | nil => exact Nat.le_refl _
  | cons c rest ih =>
      have positive := c.utf8Size_pos
      simp only [Text.byteSize, List.foldr_cons, List.length_cons] at ih ⊢
      omega

theorem scan_stuck (fuel : Nat) (modes : List Mode) (offset : Nat) (c : Char) (rest : List Char)
    (piece : Piece) (found : piece? modes (c :: rest) = some piece) (empty : piece.size = 0)
    (same : piece.modes = modes) : scan fuel modes offset (c :: rest) = none := by
  induction fuel generalizing offset with
  | zero => rfl
  | succ fuel ih => simp [scan, found, empty, same, ih]

/-- What holds at the end of a text, and with each piece in front of what it holds for, holds of all
that is scanned. No piece is empty. -/
theorem scan_induction {motive : Nat → List Char → List Token → List Comment → Prop}
    (nothing : ∀ offset, motive offset [] [] [])
    (step : ∀ modes offset chars piece tokens comments, piece? modes chars = some piece →
      0 < (chars.take piece.size).length →
      motive (offset + Text.byteSize (chars.take piece.size)) (chars.drop piece.size) tokens
        comments →
      (piece.role = .blank → motive offset chars tokens comments) ∧
      (∀ r, piece.role = .comment r → motive offset chars tokens
        (⟨r, offset, offset + Text.byteSize (chars.take piece.size)⟩ :: comments)) ∧
      ∀ shape, piece.role = .token shape → motive offset chars
        (⟨shape, String.ofList (chars.take piece.size), offset,
          offset + Text.byteSize (chars.take piece.size)⟩ :: tokens) comments)
    {fuel : Nat} {modes : List Mode} {offset : Nat} {chars : List Char} {tokens : List Token}
    {comments : List Comment} (scanned : scan fuel modes offset chars = some (tokens, comments)) :
    motive offset chars tokens comments := by
  induction fuel generalizing modes offset chars tokens comments with
  | zero =>
      cases chars with
      | nil =>
          cases scanned
          exact nothing offset
      | cons c rest => cases scanned
  | succ fuel ih =>
      cases chars with
      | nil =>
          cases scanned
          exact nothing offset
      | cons c rest =>
          have whole := scanned
          simp only [scan, Option.bind_eq_bind, Option.bind_eq_some_iff, Prod.exists] at scanned
          obtain ⟨piece, found, others, later, again, same⟩ := scanned
          -- An empty piece that leaves the modes as they are would be cut until the fuel is spent.
          have filled : 0 < piece.size := by
            rcases (piece_known found).moves with moves | stays
            · exact moves
            · by_cases empty : piece.size = 0
              · rw [scan_stuck _ modes offset c rest piece found empty stays] at whole
                cases whole
              · omega
          have long : 0 < ((c :: rest).take piece.size).length := by
            simp only [List.length_take, List.length_cons]
            omega
          obtain ⟨blank, comment, token⟩ :=
            step modes offset (c :: rest) piece others later found long (ih again)
          split at same
          · cases same
            exact blank ‹_›
          · cases same
            exact comment _ ‹_›
          · cases same
            exact token _ ‹_›

theorem scan_cut (fuel : Nat) (modes : List Mode) (offset : Nat) (chars : List Char)
    (tokens : List Token) (comments : List Comment)
    (scanned : scan fuel modes offset chars = some (tokens, comments)) :
    Cut offset tokens comments := by
  refine scan_induction (motive := fun offset _ => Cut offset) (fun _ => Cut.nil) ?_ scanned
  intro _ offset chars piece tokens comments _ long inner
  have room := byte_size_length (chars.take piece.size)
  refine ⟨fun _ => inner.blank (Nat.le_add_right _ _), fun r _ => inner.comment _ (by omega),
    fun shape _ => Cut.token _ rfl ?_ ?_ inner⟩
  · simpa using long
  · simpa using room

theorem tokens_cut (chars : List Char) (tokens : List Token) (comments : List Comment)
    (found : tokens? chars = some (tokens, comments)) : Cut 0 tokens comments := by
  unfold tokens? at found
  split at found
  · split at found
    · exact (scan_cut _ _ _ _ _ _ found).blank (Nat.zero_le _)
    · exact scan_cut _ _ _ _ _ _ found
  · cases found
    exact Cut.nil

theorem tokens_solid (chars : List Char) (tokens : List Token) (comments : List Comment)
    (found : tokens? chars = some (tokens, comments)) :
    ∀ t ∈ tokens, t.isWord = true → ∀ c ∈ t.text.toList, Text.isBlank c = false := by
  have scanned (fuel : Nat) (modes : List Mode) (offset : Nat) (chars : List Char)
      (found : scan fuel modes offset chars = some (tokens, comments)) :
      ∀ t ∈ tokens, t.isWord = true → ∀ c ∈ t.text.toList, Text.isBlank c = false := by
    refine scan_induction (motive := fun _ _ tokens _ => ∀ t ∈ tokens, t.isWord = true →
      ∀ c ∈ t.text.toList, Text.isBlank c = false) (fun _ => List.forall_mem_nil _) ?_ found
    intro _ _ _ piece _ _ cut _ inner
    refine ⟨fun _ => inner, fun _ _ => inner, fun shape role => ?_⟩
    refine List.forall_mem_cons.mpr ⟨fun word c member => ?_, inner⟩
    obtain rfl : shape = .word := by simpa [Token.isWord] using word
    rw [String.toList_ofList] at member
    exact Text.word_part_solid ((piece_known cut).word role c member)
  unfold tokens? at found
  split at found
  · split at found
    · exact scanned _ _ _ _ found
    · exact scanned _ _ _ _ found
  · cases found
    exact List.forall_mem_nil _

end JavaOutline.Tree
