import JavaOutline.Proofs.Generate.Names

/-!
Types as the language has them, over the marks of a text: primitive types, dotted names with type
arguments, and arrays. The grammar reads each of them as one node that covers its marks.
-/
namespace JavaOutline.Generate

open JavaOutline.Grammar
open JavaOutline.Tree

inductive TypePart where
  | name
  | reference
  | simple
  | pairs
  | type
  | argument
  | arguments
deriving DecidableEq, Repr

/-- Marks that make a part of a type, wherever they stand. -/
inductive Written : TypePart → List Token → Prop
  | identifier {w : String} {a b : Nat} (named : isIdentifier w = true) :
      Written .name [⟨.word, w, a, b⟩]
  | member {us : List Token} {w : String} {a b c d : Nat} (outer : Written .reference us)
      (named : isIdentifier w = true) :
      Written .name (us ++ [⟨.symbol, ".", a, b⟩, ⟨.word, w, c, d⟩])
  | bare {us : List Token} (name : Written .name us) : Written .reference us
  | diamond {us : List Token} {a b c d : Nat} (name : Written .name us) (tight : d = c + 1) :
      Written .reference (us ++ [⟨.symbol, "<", a, b⟩, ⟨.symbol, ">", c, d⟩])
  | generic {us args : List Token} {a b c d : Nat} (name : Written .name us)
      (arguments : Written .arguments args) (tight : d = c + 1) :
      Written .reference (us ++ ⟨.symbol, "<", a, b⟩ :: (args ++ [⟨.symbol, ">", c, d⟩]))
  | primitive {w : String} {a b : Nat} (known : w ∈ primitiveWords) :
      Written .simple [⟨.word, w, a, b⟩]
  | reference {us : List Token} (reference : Written .reference us) : Written .simple us
  | pair {a b c d : Nat} : Written .pairs [⟨.symbol, "[", a, b⟩, ⟨.symbol, "]", c, d⟩]
  | morePairs {us : List Token} {a b c d : Nat} (pairs : Written .pairs us) :
      Written .pairs (⟨.symbol, "[", a, b⟩ :: ⟨.symbol, "]", c, d⟩ :: us)
  | simple {us : List Token} (simple : Written .simple us) : Written .type us
  | array {us ps : List Token} (element : Written .simple us) (pairs : Written .pairs ps) :
      Written .type (us ++ ps)
  | type {us : List Token} (type : Written .type us) : Written .argument us
  | wildcard {a b : Nat} : Written .argument [⟨.symbol, "?", a, b⟩]
  | bounded {us : List Token} {w : String} {a b c d : Nat} (bound : w = "extends" ∨ w = "super")
      (type : Written .type us) :
      Written .argument (⟨.symbol, "?", a, b⟩ :: ⟨.word, w, c, d⟩ :: us)
  | lone {us : List Token} (argument : Written .argument us) : Written .arguments us
  | listed {us others : List Token} {a b : Nat} (argument : Written .argument us)
      (arguments : Written .arguments others) :
      Written .arguments (us ++ ⟨.symbol, ",", a, b⟩ :: others)

def IsType (text : String) : Prop :=
  Written .type (marks 0 text.toList)

/-- The parts that are types start with a word. -/
def TypePart.isTyped : TypePart → Bool
  | .name | .reference | .simple | .type => true
  | .pairs | .argument | .arguments => false

theorem Written.leads {part : TypePart} {us : List Token} (written : Written part us)
    (typed : part.isTyped = true) :
    ∃ t rest, us = t :: rest ∧ t.shape = .word ∧
      (isIdentifier t.text = true ∨
        t.text ∈ primitiveWords ∧ part ≠ .name ∧ part ≠ .reference) := by
  induction written with
  | identifier named => exact ⟨_, [], rfl, rfl, .inl named⟩
  | primitive known => exact ⟨_, [], rfl, rfl, .inr ⟨known, by simp⟩⟩
  | bare _ ih =>
      obtain ⟨t, rest, rfl, word, first⟩ := ih rfl
      exact ⟨t, rest, rfl, word, .inl (first.resolve_right fun other => other.2.1 rfl)⟩
  | reference _ ih =>
      obtain ⟨t, rest, rfl, word, first⟩ := ih rfl
      exact ⟨t, rest, rfl, word, .inl (first.resolve_right fun other => other.2.2 rfl)⟩
  | simple _ ih =>
      obtain ⟨t, rest, rfl, word, first⟩ := ih rfl
      exact ⟨t, rest, rfl, word, first.imp_right fun other => ⟨other.1, by simp⟩⟩
  | member _ _ ih =>
      obtain ⟨t, rest, rfl, word, first⟩ := ih rfl
      exact ⟨t, _, rfl, word, .inl (first.resolve_right fun other => other.2.2 rfl)⟩
  | diamond _ _ ih =>
      obtain ⟨t, rest, rfl, word, first⟩ := ih rfl
      exact ⟨t, _, rfl, word, .inl (first.resolve_right fun other => other.2.1 rfl)⟩
  | generic _ _ _ ih _ =>
      obtain ⟨t, rest, rfl, word, first⟩ := ih rfl
      exact ⟨t, _, rfl, word, .inl (first.resolve_right fun other => other.2.1 rfl)⟩
  | array _ _ ih _ =>
      obtain ⟨t, rest, rfl, word, first⟩ := ih rfl
      exact ⟨t, _, rfl, word, first.imp_right fun other => ⟨other.1, by simp⟩⟩
  | _ => cases typed

theorem primitive_start (w : String) (known : w ∈ primitiveWords) :
    ∃ c own, w.toList = c :: own ∧ isNameStart c = true := by
  have letters : ∀ w ∈ primitiveWords, w.toList.head?.any isNameStart = true := by decide
  have first := letters w known
  cases chars : w.toList with
  | nil => simp [chars] at first
  | cons c own => exact ⟨c, own, rfl, by simpa [chars] using first⟩

theorem Written.starts {part : TypePart} {us : List Token} (written : Written part us)
    (typed : part.isTyped = true) :
    ∃ t rest c own, us = t :: rest ∧ t.shape = .word ∧ t.text.toList = c :: own ∧
      isNameStart c = true := by
  obtain ⟨t, rest, rfl, word, named | ⟨known, _⟩⟩ := written.leads typed
  · obtain ⟨c, own, chars, start, _⟩ := identifier_shape named
    exact ⟨t, rest, c, own, rfl, word, chars, start⟩
  · obtain ⟨c, own, chars, start⟩ := primitive_start t.text known
    exact ⟨t, rest, c, own, rfl, word, chars, start⟩

theorem identifier_no_primitive {w : String} (named : isIdentifier w = true) :
    w ∉ primitiveWords := by
  intro known
  have reserved : ∀ w ∈ primitiveWords, isReserved w = true := by decide
  obtain ⟨_, _, _, _, _, free⟩ := identifier_shape named
  rw [reserved w known] at free
  cases free

def typeLink : Form :=
  Shape.either [(dottedLink .free).1,
    Shape.all [.heldIs fun k => k == .rule .typeIdentifier || k == .rule .scopedTypeIdentifier,
      Shape.sym "<"]]

def typeStep : Form :=
  Shape.choose [dottedLink .free] (.node .genericType (Shape.all [.held, .call .typeArguments]))

def pairForm : Form :=
  Shape.all [annotationsForm, Shape.sym "[", Shape.sym "]"]

def argumentForm : Form :=
  .pick (Shape.all [skippedNotes, Shape.sym "?"]) wildcard (.call (.anyType .free))

/-- A mark that neither goes on with a type nor makes an array of it. -/
def Quiet (us : List Token) : Prop :=
  ∃ t rest, us = t :: rest ∧ Apart t [".", "<", "[", "@"]

variable {fuel : Nat} {built held : List Node} {rest us : List Token}

theorem notes_pass {t : Token} (apart : Apart t ["@"]) :
    Reads fuel skippedNotes built (t :: rest) [] (t :: rest) :=
  .unrepeated (.symbol apart)

theorem link_refuses {t : Token} (dot : Apart t ["."]) (bracket : Apart t ["<"]) :
    Refuses fuel typeLink held (t :: rest) := by
  apply Refuses.either
  intro probe member
  simp only [List.mem_cons, List.not_mem_nil, or_false] at member
  rcases member with rfl | rfl
  · exact .early (.symbol dot)
  · by_cases fits : (held.getLast?.any fun n =>
        n.kind == .rule .typeIdentifier || n.kind == .rule .scopedTypeIdentifier) = true
    · exact .late (.heldIs fits) (.symbol bracket)
    · exact .early (.heldIs (by simpa using fits))

theorem dot_reads {t next : Token} (dot : t.shape = .symbol) (text : t.text = ".")
    (word : next.shape = .word) :
    Reads fuel (dottedLink .free).1 held (t :: next :: rest)
      [bareNode t, leafNode .typeIdentifier next] rest := by
  have own : t.text ∈ ["."] := by simp [text]
  have other : t.text ≠ ">" := by simp [text]
  have plain : Apart next ["@"] := fun symbol => by simp [word] at symbol
  exact .seq (.symbol dot own other) (.seq (notes_pass plain) (.word word rfl))

/-- A node covers marks from the first to the last. -/
def Covers (n : Node) (us : List Token) : Prop :=
  us.head?.map Token.start = some n.start ∧ us.getLast?.map Token.stop = some n.stop

theorem covers_leaf (r : Rule) (t : Token) : Covers (leafNode r t) [t] :=
  ⟨rfl, rfl⟩

theorem covers_more {r : Rule} {n : Node} {us others : List Token} {nodes : List Node}
    (covers : Covers n us) (filled : nodes ≠ [])
    (ends : others.getLast?.map Token.stop = nodes.getLast?.map Node.stop) :
    Covers (Node.ofRule r (n :: nodes)) (us ++ others) := by
  obtain ⟨start, _⟩ := covers
  have last : (n :: nodes).getLast? = nodes.getLast? := by
    obtain ⟨second, more, rfl⟩ := List.exists_cons_of_ne_nil filled
    exact List.getLast?_cons_cons
  have found := List.getLast?_eq_some_getLast filled
  rw [found, Option.map_some] at ends
  constructor
  · cases us with
    | nil => cases start
    | cons t us => exact start
  · obtain ⟨t, found', stop⟩ := Option.map_eq_some_iff.mp ends
    rw [List.getLast?_append, found', Node.ofRule, last, found]
    exact congrArg some stop

theorem Covers.labelled {n : Node} {us : List Token} (covers : Covers n us) (f : Field) :
    Covers (n.labelled f) us := by
  cases n
  exact covers

theorem stop_last (r : Rule) (nodes : List Node) (last : Node) :
    (Node.ofRule r (nodes ++ [last])).stop = last.stop := by
  rw [Node.ofRule, List.getLast?_concat]
  rfl

def simpleTypeRules : List Rule :=
  [.typeIdentifier, .scopedTypeIdentifier, .genericType, .integralType, .floatingPointType,
    .booleanType, .voidType]

def OfRules (rules : List Rule) (n : Node) : Prop :=
  ∃ r ∈ rules, n.kind = .rule r

theorem OfRules.other {rules : List Rule} {n : Node} (kind : OfRules rules n) {r : Rule}
    (missing : r ∉ rules) : n.kind ≠ .rule r := by
  obtain ⟨own, among, same⟩ := kind
  rw [same]
  rintro ⟨rfl⟩
  exact missing among

/-- What the grammar makes of a part of a type, for enough fuel. -/
def Readable : TypePart → List Token → Prop
  | .name, us => ∃ n, Covers n us ∧
      (n.kind = .rule .typeIdentifier ∨ n.kind = .rule .scopedTypeIdentifier) ∧
      ∀ fuel built rest nodes last, 4 * solid us ≤ fuel →
        Continues fuel typeLink typeStep [n] rest nodes last →
        Reads fuel (.chain typeIdentifier typeLink typeStep) built (us ++ rest) nodes last
  | .reference, us => ∃ n, Covers n us ∧ OfRules simpleTypeRules n ∧
      ∀ fuel built rest nodes last, 4 * solid us ≤ fuel →
        Continues fuel typeLink typeStep [n] rest nodes last →
        Reads fuel (.chain typeIdentifier typeLink typeStep) built (us ++ rest) nodes last
  | .simple, us => ∃ n, Covers n us ∧ OfRules simpleTypeRules n ∧
      ∀ fuel built t rest, 4 * solid us + 1 ≤ fuel → Apart t [".", "<"] →
        Reads fuel (.call (.simpleType .free)) built (us ++ t :: rest) [n] (t :: rest)
  | .pairs, us => ∃ nodes, us.head?.map Token.start = nodes.head?.map Node.start ∧
      us.getLast?.map Token.stop = nodes.getLast?.map Node.stop ∧ nodes ≠ [] ∧
      (∃ t others, us = t :: others ∧ Apart t [".", "<"] ∧ t.text ≠ ">") ∧
      ∀ fuel built rest, Quiet rest →
        (∃ probed ahead, Reads fuel dimensionsAhead built (us ++ rest) probed ahead) ∧
        Reads fuel (Shape.all [pairForm, .many dimensionsAhead pairForm]) built (us ++ rest) nodes
          rest ∧
        Repeats fuel dimensionsAhead pairForm built (us ++ rest) nodes rest
  | .type, us => ∃ n, Covers n us ∧ OfRules (.arrayType :: simpleTypeRules) n ∧
      ∀ fuel built rest, 4 * solid us + 2 ≤ fuel → Quiet rest →
        Reads fuel (.call (.plainType .free)) built (us ++ rest) [n] rest
  | .argument, us => ∃ n, ∀ fuel built t rest, 4 * solid us + 3 ≤ fuel → t.shape = .symbol →
      Apart t [".", "<", "[", "@"] → Reads fuel argumentForm built (us ++ t :: rest) [n] (t :: rest)
  | .arguments, us => ∃ n nodes, ∀ fuel built c d others, 4 * solid us + 3 ≤ fuel →
      ∃ between, solid between ≤ solid (us ++ ⟨.symbol, ">", c, d⟩ :: others) ∧
        Reads fuel argumentForm built (us ++ ⟨.symbol, ">", c, d⟩ :: others) [n] between ∧
        Repeats fuel (Shape.sym ",") (.seq (Shape.sym ",") argumentForm) built between nodes
          (⟨.symbol, ">", c, d⟩ :: others)

theorem member_continues {n : Node} {dot next : Token} {nodes : List Node} {last : List Token}
    (symbol : dot.shape = .symbol) (text : dot.text = ".") (word : next.shape = .word)
    (later : Continues fuel typeLink typeStep
      [Node.ofRule .scopedTypeIdentifier [n, bareNode dot, leafNode .typeIdentifier next]]
      rest nodes last) :
    Continues fuel typeLink typeStep [n] (dot :: next :: rest) nodes last := by
  have own : dot.text ∈ ["."] := by simp [text]
  have other : dot.text ≠ ">" := by simp [text]
  have plain : Apart next ["@"] := fun symbol => by simp [word] at symbol
  apply Continues.turn (.pick (dot_reads symbol text word) .done) _ _ later
  · exact .pick (dot_reads symbol text word)
      (.node (.seq .held (.seq (.symbol symbol own other)
        (.seq (.unrepeated (.symbol plain)) (.word word rfl)))))
  · exact solid_fewer other [next] rest

theorem arguments_continue {n : Node} {open' close : Token} {args : List Token}
    {inside nodes : List Node} {last : List Token}
    (kind : n.kind = .rule .typeIdentifier ∨ n.kind = .rule .scopedTypeIdentifier)
    (opens : open'.shape = .symbol ∧ open'.text = "<")
    (closes : close.shape = .symbol ∧ close.text = ">" ∧ close.stop = close.start + 1)
    (reads : Reads fuel (.pick (.cut ">") .done (Shape.commaSeparated argumentForm)) []
      (args ++ close :: rest) inside (close :: rest))
    (later : Continues (fuel + 1) typeLink typeStep
      [Node.ofRule .genericType [n, Node.ofRule .typeArguments
        (bareNode open' :: (inside ++ [.mk (.token ">") none close.start close.stop []]))]]
      rest nodes last) :
    Continues (fuel + 1) typeLink typeStep [n] (open' :: (args ++ close :: rest)) nodes last := by
  obtain ⟨symbol, text⟩ := opens
  obtain ⟨symbol', text', tight⟩ := closes
  have own : open'.text ∈ ["<"] := by simp [text]
  have other : open'.text ≠ ">" := by simp [text]
  have dotless : Apart open' ["."] := fun _ => by simp [text]
  have fits : ([n].getLast?.any fun n =>
      n.kind == .rule .typeIdentifier || n.kind == .rule .scopedTypeIdentifier) = true := by
    rcases kind with kind | kind <;> simp [kind]
  have passes : Refuses (fuel + 1) (dottedLink .free).1 [n] (open' :: (args ++ close :: rest)) :=
    .early (.symbol dotless)
  apply Continues.turn (.pass passes (.pick (.seq (.heldIs fits) (.symbol symbol own other)) .done))
    _ _ later
  · exact .pass passes (.node (.seq .held (.call
      (.node (.seq (.symbol symbol own other) (.seq reads (.bracket symbol' text' tight)))))))
  · have whole : open' :: (args ++ close :: rest) = open' :: ((args ++ [close]) ++ rest) := by simp
    rw [whole]
    exact solid_fewer other _ rest

theorem Written.opens {part : TypePart} {us : List Token} (written : Written part us)
    (listed : part = .argument ∨ part = .arguments) :
    ∃ t rest, us = t :: rest ∧ (t.shape = .word ∨ t.text = "?") ∧
      ∃ c own, t.text.toList = c :: own ∧ c ≠ '>' := by
  have mark : "?".toList = ['?'] := rfl
  induction written with
  | type type _ =>
      obtain ⟨t, rest, c, own, rfl, word, chars, start⟩ := type.starts rfl
      refine ⟨t, rest, rfl, .inl word, c, own, chars, ?_⟩
      rintro rfl
      cases start
  | wildcard => exact ⟨_, _, rfl, .inr rfl, '?', [], mark, by decide⟩
  | bounded => exact ⟨_, _, rfl, .inr rfl, '?', [], mark, by decide⟩
  | lone _ ih => exact ih (.inl rfl)
  | listed _ _ ih _ =>
      obtain ⟨t, rest, rfl, opened⟩ := ih (.inl rfl)
      exact ⟨t, _, rfl, opened⟩
  | _ => rcases listed with same | same <;> cases same

section Pairs

variable {a b c d : Nat}

theorem pair_reads : Reads fuel pairForm built
    (⟨.symbol, "[", a, b⟩ :: ⟨.symbol, "]", c, d⟩ :: rest)
    [bareNode ⟨.symbol, "[", a, b⟩, bareNode ⟨.symbol, "]", c, d⟩] rest :=
  .seq (.unrepeated (.symbol fun _ => by simp))
    (.seq (.symbol rfl (by simp) (by simp)) (.symbol rfl (by simp) (by simp)))

theorem dimensions_ahead : Reads fuel dimensionsAhead built
    (⟨.symbol, "[", a, b⟩ :: ⟨.symbol, "]", c, d⟩ :: rest)
    [bareNode ⟨.symbol, "[", a, b⟩, bareNode ⟨.symbol, "]", c, d⟩] rest :=
  .seq (notes_pass fun _ => by simp)
    (.seq (.symbol rfl (by simp) (by simp)) (.symbol rfl (by simp) (by simp)))

end Pairs

theorem primitive_reads {t : Token} (word : t.shape = .word) (known : t.text ∈ primitiveWords) :
    ∃ n, Covers n [t] ∧ OfRules simpleTypeRules n ∧
      ∀ fuel built rest, Reads fuel primitiveType built (t :: rest) [n] rest := by
  by_cases whole : t.text ∈ ["byte", "short", "int", "long", "char"]
  · refine ⟨Node.ofRule .integralType [bareNode t], ⟨rfl, rfl⟩, ⟨_, by decide, rfl⟩, ?_⟩
    intro fuel built rest
    exact .pick (.nextWord word whole) (.node (.keyword word whole))
  · by_cases real : t.text ∈ ["float", "double"]
    · refine ⟨Node.ofRule .floatingPointType [bareNode t], ⟨rfl, rfl⟩, ⟨_, by decide, rfl⟩, ?_⟩
      intro fuel built rest
      exact .pass (.nextWord fun _ => whole) (.pick (.nextWord word real) (.node (.keyword word real)))
    · by_cases truth : t.text = "boolean"
      · refine ⟨leafNode .booleanType t, ⟨rfl, rfl⟩, ⟨_, by decide, rfl⟩, ?_⟩
        intro fuel built rest
        exact .pass (.nextWord fun _ => whole) (.pass (.nextWord fun _ => real)
          (.pick (.nextWord word (by simp [truth])) (.word word (by simp [truth]))))
      · have nothing : t.text = "void" := by
          simp only [primitiveWords, List.mem_cons, List.not_mem_nil, or_false] at known whole real
          tauto
        refine ⟨leafNode .voidType t, ⟨rfl, rfl⟩, ⟨_, by decide, rfl⟩, ?_⟩
        intro fuel built rest
        exact .pass (.nextWord fun _ => whole) (.pass (.nextWord fun _ => real)
          (.pass (.nextWord fun _ => by simpa using truth) (.word word (by simp [nothing]))))

theorem dimensions_end (quiet : Quiet rest) : Refuses fuel dimensionsAhead built rest := by
  obtain ⟨t, others, rfl, apart⟩ := quiet
  exact .late (notes_pass (apart.single (by simp))) (.early (.symbol (apart.single (by simp))))

section Wildcards

variable {a b : Nat}

def boundForms : List (Form × Form) :=
  [(Shape.key "extends", Shape.all [Shape.key "extends", .call (.anyType .free)]),
    (superWord, Shape.all [superWord, .call (.anyType .free)])]

theorem question_notes :
    Reads fuel annotationsForm built (⟨.symbol, "?", a, b⟩ :: rest) [] (⟨.symbol, "?", a, b⟩ :: rest) :=
  .unrepeated (.symbol fun _ => by simp)

theorem question_reads :
    Reads fuel (Shape.sym "?") built (⟨.symbol, "?", a, b⟩ :: rest) [bareNode ⟨.symbol, "?", a, b⟩]
      rest :=
  .symbol rfl (by simp) (by simp)

theorem question_ahead (rest : List Token) :
    Reads fuel (Shape.all [skippedNotes, Shape.sym "?"]) built (⟨.symbol, "?", a, b⟩ :: rest)
      [bareNode ⟨.symbol, "?", a, b⟩] rest :=
  .seq (notes_pass fun _ => by simp) question_reads

end Wildcards

theorem any_type_reads {us : List Token} {n : Node} (type : Written .type us)
    (reads : ∀ fuel built rest, 4 * solid us + 2 ≤ fuel → Quiet rest →
      Reads fuel (.call (.plainType .free)) built (us ++ rest) [n] rest)
    (fuel : Nat) (built : List Node) (rest : List Token) (enough : 4 * solid us + 3 ≤ fuel)
    (quiet : Quiet rest) : Reads fuel (.call (.anyType .free)) built (us ++ rest) [n] rest := by
  obtain ⟨fuel, rfl⟩ := Nat.exists_eq_add_one_of_ne_zero (n := fuel) (by omega)
  have inner := reads fuel [] rest (by omega) quiet
  obtain ⟨t, others, c, own, rfl, word, _⟩ := type.starts rfl
  exact .call (.pass (.symbol fun symbol => by simp [word] at symbol) inner)

theorem quiet_cons {t : Token} (apart : Apart t [".", "<", "[", "@"]) (others : List Token) :
    Quiet (t :: others) :=
  ⟨t, others, rfl, apart⟩

section Parts

variable {a b c d : Nat} {w : String}

theorem identifier_readable : Readable .name [⟨.word, w, a, b⟩] := by
  refine ⟨leafNode .typeIdentifier ⟨.word, w, a, b⟩, covers_leaf _ _, .inl rfl, ?_⟩
  intro fuel built rest nodes last _ later
  exact .chain (.word rfl rfl) later

theorem member_readable (outer : Readable .reference us) :
    Readable .name (us ++ [⟨.symbol, ".", a, b⟩, ⟨.word, w, c, d⟩]) := by
  obtain ⟨n, covers, _, reads⟩ := outer
  have whole : Covers (Node.ofRule .scopedTypeIdentifier [n, bareNode ⟨.symbol, ".", a, b⟩,
      leafNode .typeIdentifier ⟨.word, w, c, d⟩])
      (us ++ [⟨.symbol, ".", a, b⟩, ⟨.word, w, c, d⟩]) := covers_more covers (by simp) rfl
  refine ⟨_, whole, .inr rfl, ?_⟩
  intro fuel built rest nodes last enough later
  rw [List.append_assoc]
  rw [solid_append] at enough
  exact reads _ _ _ _ _ (by omega) (member_continues rfl rfl rfl later)

theorem bare_readable (name : Readable .name us) : Readable .reference us := by
  obtain ⟨n, covers, kind, reads⟩ := name
  refine ⟨n, covers, ?_, reads⟩
  rcases kind with kind | kind
  · exact ⟨_, by decide, kind⟩
  · exact ⟨_, by decide, kind⟩

theorem diamond_readable (name : Readable .name us) (tight : d = c + 1) :
    Readable .reference (us ++ [⟨.symbol, "<", a, b⟩, ⟨.symbol, ">", c, d⟩]) := by
  obtain ⟨n, covers, kind, reads⟩ := name
  have whole : Covers (Node.ofRule .genericType [n, Node.ofRule .typeArguments
      (bareNode ⟨.symbol, "<", a, b⟩ :: ([] ++ [.mk (.token ">") none c d []]))])
      (us ++ [⟨.symbol, "<", a, b⟩, ⟨.symbol, ">", c, d⟩]) := covers_more covers (by simp) rfl
  refine ⟨_, whole, ⟨_, by decide, rfl⟩, ?_⟩
  intro fuel built rest nodes last enough later
  rw [solid_append, solid_cons, if_neg (by simp)] at enough
  obtain ⟨fuel, rfl⟩ := Nat.exists_eq_add_one_of_ne_zero (n := fuel) (by omega)
  rw [List.append_assoc]
  apply reads _ _ _ _ _ (by omega)
  have nothing : Reads fuel (.pick (.cut ">") .done (Shape.commaSeparated argumentForm)) []
      ([] ++ ⟨.symbol, ">", c, d⟩ :: rest) [] (⟨.symbol, ">", c, d⟩ :: rest) :=
    .pick (.bracket rfl rfl tight) .done
  exact arguments_continue kind ⟨rfl, rfl⟩ ⟨rfl, rfl, tight⟩ nothing later

theorem generic_readable {args : List Token} (name : Readable .name us)
    (arguments : Written .arguments args) (inner : Readable .arguments args) (tight : d = c + 1) :
    Readable .reference (us ++ ⟨.symbol, "<", a, b⟩ :: (args ++ [⟨.symbol, ">", c, d⟩])) := by
  obtain ⟨n, covers, kind, reads⟩ := name
  obtain ⟨first, others, inside⟩ := inner
  have whole : Covers (Node.ofRule .genericType [n, Node.ofRule .typeArguments
      (bareNode ⟨.symbol, "<", a, b⟩ :: (first :: others ++ [.mk (.token ">") none c d []]))])
      (us ++ ⟨.symbol, "<", a, b⟩ :: (args ++ [⟨.symbol, ">", c, d⟩])) := by
    apply covers_more covers (by simp)
    rw [← List.cons_append, List.getLast?_concat, List.getLast?_singleton, Option.map_some,
      Option.map_some, ← List.cons_append, stop_last]
    rfl
  refine ⟨_, whole, ⟨_, by decide, rfl⟩, ?_⟩
  intro fuel built rest nodes last enough later
  rw [solid_append, solid_cons, if_neg (by simp), solid_append] at enough
  obtain ⟨fuel, rfl⟩ := Nat.exists_eq_add_one_of_ne_zero (n := fuel) (by omega)
  rw [List.append_assoc, List.cons_append, List.append_assoc, List.singleton_append]
  apply reads _ _ _ _ _ (by omega)
  obtain ⟨between, _, item, further⟩ := inside fuel [] c d rest (by omega)
  obtain ⟨t, more, rfl, _, char, own, chars, apart⟩ := arguments.opens (.inr rfl)
  exact arguments_continue kind ⟨rfl, rfl⟩ ⟨rfl, rfl, tight⟩
    (.pass (.cut chars rfl apart) (.seq item (.many further))) later

theorem primitive_readable (known : w ∈ primitiveWords) : Readable .simple [⟨.word, w, a, b⟩] := by
  obtain ⟨n, covers, kind, reads⟩ := primitive_reads (t := ⟨.word, w, a, b⟩) rfl known
  refine ⟨n, covers, kind, ?_⟩
  intro fuel built t rest enough _
  obtain ⟨fuel, rfl⟩ := Nat.exists_eq_add_one_of_ne_zero (n := fuel) (by omega)
  exact .call (.pick (.nextWord rfl known) (reads fuel [] (t :: rest)))

theorem reference_readable (reference : Written .reference us) (ih : Readable .reference us) :
    Readable .simple us := by
  obtain ⟨n, covers, kind, reads⟩ := ih
  refine ⟨n, covers, kind, ?_⟩
  intro fuel built t rest enough apart
  obtain ⟨fuel, rfl⟩ := Nat.exists_eq_add_one_of_ne_zero (n := fuel) (by omega)
  have continues : Continues fuel typeLink typeStep [n] (t :: rest) [n] (t :: rest) :=
    .stop (link_refuses (apart.single (by simp)) (apart.single (by simp)))
  have chained := reads fuel [] _ _ _ (by omega) continues
  obtain ⟨first, others, rfl, word, leads⟩ := reference.leads rfl
  have named := leads.resolve_right fun other => other.2.2 rfl
  exact .call (.pass (.nextWord fun _ => identifier_no_primitive named) chained)

theorem pair_readable : Readable .pairs [⟨.symbol, "[", a, b⟩, ⟨.symbol, "]", c, d⟩] := by
  refine ⟨[bareNode ⟨.symbol, "[", a, b⟩, bareNode ⟨.symbol, "]", c, d⟩], rfl, rfl, by simp,
    ⟨_, _, rfl, fun _ => by simp, by simp⟩, ?_⟩
  intro fuel built rest quiet
  have ended : Refuses fuel dimensionsAhead built rest := dimensions_end quiet
  refine ⟨⟨_, _, dimensions_ahead⟩, ?_, ?_⟩
  · exact .seq pair_reads (.unrepeated ended)
  · exact .turn dimensions_ahead pair_reads (solid_fewer (by simp) [_] rest) (.stop ended)

theorem more_pairs_readable (pairs : Readable .pairs us) :
    Readable .pairs (⟨.symbol, "[", a, b⟩ :: ⟨.symbol, "]", c, d⟩ :: us) := by
  obtain ⟨nodes, start, stop, filled, begins, reads⟩ := pairs
  refine ⟨bareNode ⟨.symbol, "[", a, b⟩ :: bareNode ⟨.symbol, "]", c, d⟩ :: nodes, rfl, ?_,
    by simp, ⟨_, _, rfl, fun _ => by simp, by simp⟩, ?_⟩
  · obtain ⟨first, more, rfl⟩ := List.exists_cons_of_ne_nil filled
    obtain ⟨t, others, rfl, _⟩ := begins
    simpa using stop
  · intro fuel built rest quiet
    obtain ⟨_, _, again⟩ := reads fuel built rest quiet
    refine ⟨⟨_, _, dimensions_ahead⟩, .seq pair_reads (.many again), ?_⟩
    exact .turn dimensions_ahead pair_reads (solid_fewer (by simp) [_] (us ++ rest)) again

theorem simple_readable (simple : Readable .simple us) : Readable .type us := by
  obtain ⟨n, covers, ⟨r, among, kind⟩, reads⟩ := simple
  refine ⟨n, covers, ⟨r, List.mem_cons_of_mem _ among, kind⟩, ?_⟩
  intro fuel built rest enough quiet
  obtain ⟨fuel, rfl⟩ := Nat.exists_eq_add_one_of_ne_zero (n := fuel) (by omega)
  have ended : Refuses fuel dimensionsAhead [n] rest := dimensions_end quiet
  have other : n.kind ≠ .rule .arrayType := OfRules.other ⟨r, among, kind⟩ (by decide)
  obtain ⟨t, others, rfl, apart⟩ := quiet
  have element := reads fuel [] t others (by omega) (apart.subset (by simp))
  exact .call (.chain element (.stop (.late (.heldIs (by simpa using other)) ended)))

theorem array_readable {ps : List Token} (element : Readable .simple us)
    (pairs : Readable .pairs ps) : Readable .type (us ++ ps) := by
  obtain ⟨n, covers, kind, reads⟩ := element
  obtain ⟨nodes, start, stop, filled, ⟨first, others, rfl, apart, other⟩, inside⟩ := pairs
  have whole : Covers (Node.ofRule .arrayType [n.labelled .element,
      (Node.ofRule .dimensions nodes).labelled .dimensions]) (us ++ first :: others) := by
    apply covers_more (covers.labelled .element) (by simp)
    have last := List.getLast?_eq_some_getLast filled
    rw [stop, last]
    simp [Node.ofRule, Node.labelled, Node.stop, last]
  refine ⟨_, whole, ⟨_, by decide, rfl⟩, ?_⟩
  intro fuel built rest enough quiet
  rw [solid_append, solid_cons, if_neg other] at enough
  obtain ⟨fuel, rfl⟩ := Nat.exists_eq_add_one_of_ne_zero (n := fuel) (by omega)
  obtain ⟨fuel, rfl⟩ := Nat.exists_eq_add_one_of_ne_zero (n := fuel) (by omega)
  rw [List.append_assoc]
  have base := reads (fuel + 1) [] first (others ++ rest) (by omega) apart
  obtain ⟨⟨probed, ahead, holds⟩, _⟩ := inside (fuel + 1) [n] rest quiet
  obtain ⟨_, dimensions, _⟩ := inside fuel [] rest quiet
  have inner : Reads fuel (java .dimensions) [] (first :: others ++ rest)
      [Node.ofRule .dimensions nodes] rest := .node dimensions
  have single : n.kind ≠ .rule .arrayType := kind.other (by decide)
  apply Reads.call
  apply Reads.chain base
  apply Continues.turn (.seq (.heldIs (by simpa using single)) holds)
    (.node (.seq (.field .held) (.field (.call inner)))) (solid_fewer other others rest)
  exact .stop (.early (.heldIs rfl))

theorem argument_readable (type : Written .type us) (ih : Readable .type us) :
    Readable .argument us := by
  obtain ⟨n, _, _, reads⟩ := ih
  refine ⟨n, ?_⟩
  intro fuel built close rest enough _ apart
  have whole := any_type_reads type reads fuel built _ enough (quiet_cons apart rest)
  obtain ⟨t, others, c, own, rfl, word, _⟩ := type.starts rfl
  have plain (symbols : List String) : Apart t symbols := fun symbol => by simp [word] at symbol
  exact .pass (.late (notes_pass (plain _)) (.symbol (plain _))) whole

theorem wildcard_readable : Readable .argument [⟨.symbol, "?", a, b⟩] := by
  refine ⟨Node.ofRule .wildcard [bareNode ⟨.symbol, "?", a, b⟩], ?_⟩
  intro fuel built close rest _ symbol _
  have unbound : close.shape = .word → close.text ∉ ["extends"] := by simp [symbol]
  have unbounded : Reads fuel (Shape.choose boundForms .done) built (close :: rest) [] _ :=
    .pass (.keyword unbound) (.pass (.word (by simp [symbol])) .done)
  exact .pick (question_ahead _) (.node (.seq question_notes (.seq question_reads unbounded)))

theorem bounded_readable (bound : w = "extends" ∨ w = "super") (type : Written .type us)
    (ih : Readable .type us) :
    Readable .argument (⟨.symbol, "?", a, b⟩ :: ⟨.word, w, c, d⟩ :: us) := by
  obtain ⟨n, _, _, reads⟩ := ih
  have whole (fuel : Nat) (built : List Node) (t : Token) (rest : List Token)
      (enough : 4 * solid us + 3 ≤ fuel) (apart : Apart t [".", "<", "[", "@"]) :
      Reads fuel (.call (.anyType .free)) built (us ++ t :: rest) [n] (t :: rest) :=
    any_type_reads type reads fuel built _ enough (quiet_cons apart rest)
  rcases bound with rfl | rfl
  · refine ⟨Node.ofRule .wildcard [bareNode ⟨.symbol, "?", a, b⟩,
      bareNode ⟨.word, "extends", c, d⟩, n], ?_⟩
    intro fuel built close rest enough _ apart
    rw [solid_cons, solid_cons, if_neg (by simp), if_neg (by simp)] at enough
    have inner := whole fuel built close rest (by omega) apart
    have key : Reads fuel (Shape.key "extends") built (⟨.word, "extends", c, d⟩ :: _)
      [bareNode ⟨.word, "extends", c, d⟩] (us ++ close :: rest) := .keyword rfl (by simp)
    exact .pick (question_ahead _)
      (.node (.seq question_notes (.seq question_reads (.pick key (.seq key inner)))))
  · refine ⟨Node.ofRule .wildcard [bareNode ⟨.symbol, "?", a, b⟩,
      leafNode .superWord ⟨.word, "super", c, d⟩, n], ?_⟩
    intro fuel built close rest enough _ apart
    rw [solid_cons, solid_cons, if_neg (by simp), if_neg (by simp)] at enough
    have inner := whole fuel built close rest (by omega) apart
    have word : Reads fuel superWord built (⟨.word, "super", c, d⟩ :: _)
      [leafNode .superWord ⟨.word, "super", c, d⟩] (us ++ close :: rest) := .word rfl (by simp)
    exact .pick (question_ahead _) (.node (.seq question_notes
      (.seq question_reads (.pass (.keyword (by simp)) (.pick word (.seq word inner))))))

theorem lone_readable (argument : Readable .argument us) : Readable .arguments us := by
  obtain ⟨n, reads⟩ := argument
  refine ⟨n, [], ?_⟩
  intro fuel built c d rest enough
  refine ⟨⟨.symbol, ">", c, d⟩ :: rest, ?_, reads fuel built _ rest enough rfl (fun _ => by simp),
    .stop (.symbol fun _ => by simp)⟩
  rw [solid_append]
  exact Nat.le_add_left _ _

theorem listed_readable {others : List Token} (argument : Readable .argument us)
    (arguments : Readable .arguments others) :
    Readable .arguments (us ++ ⟨.symbol, ",", a, b⟩ :: others) := by
  obtain ⟨n, reads⟩ := argument
  obtain ⟨second, nodes, inside⟩ := arguments
  refine ⟨n, bareNode ⟨.symbol, ",", a, b⟩ :: second :: nodes, ?_⟩
  intro fuel built c d rest enough
  rw [solid_append, solid_cons, if_neg (by simp)] at enough
  rw [List.append_assoc, List.cons_append]
  obtain ⟨between, fewer, item, further⟩ := inside fuel built c d rest (by omega)
  refine ⟨_, ?_, reads fuel built _ _ (by omega) rfl (fun _ => by simp), ?_⟩
  · rw [solid_append]
    exact Nat.le_add_left _ _
  · have comma : Reads fuel (Shape.sym ",") built (⟨.symbol, ",", a, b⟩ :: _)
        [bareNode ⟨.symbol, ",", a, b⟩] (others ++ ⟨.symbol, ">", c, d⟩ :: rest) :=
      .symbol rfl (by simp) (by simp)
    refine .turn comma (.seq comma item) ?_ further
    rw [solid_cons, if_neg (by simp)]
    exact Nat.lt_succ_of_le fewer

end Parts

/-- The grammar reads whatever is written like a part of a type. -/
theorem Written.readable {part : TypePart} {us : List Token} (written : Written part us) :
    Readable part us := by
  induction written with
  | identifier => exact identifier_readable
  | member _ _ ih => exact member_readable ih
  | bare _ ih => exact bare_readable ih
  | diamond _ tight ih => exact diamond_readable ih tight
  | generic _ arguments tight ih inner => exact generic_readable ih arguments inner tight
  | primitive known => exact primitive_readable known
  | reference reference ih => exact reference_readable reference ih
  | pair => exact pair_readable
  | morePairs _ ih => exact more_pairs_readable ih
  | simple _ ih => exact simple_readable ih
  | array _ _ element pairs => exact array_readable element pairs
  | type type ih => exact argument_readable type ih
  | wildcard => exact wildcard_readable
  | bounded bound type ih => exact bounded_readable bound type ih
  | lone _ ih => exact lone_readable ih
  | listed _ _ ih more => exact listed_readable ih more

end JavaOutline.Generate
