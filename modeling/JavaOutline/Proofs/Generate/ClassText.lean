import JavaOutline.Lower.Unit
import JavaOutline.Proofs.Generate.MethodText
import JavaOutline.Proofs.Lower.Yields

/-!
A public class with its methods, from its marks to its outline, and the source that holds it and may
hold a package declaration in front.
-/
namespace JavaOutline.Generate

open JavaOutline.Grammar
open JavaOutline.Lower
open JavaOutline.Tree

variable {fuel : Nat} {built : List Node} {rest us : List Token} {source : Source}
  {specs : List MethodSpec}

inductive MethodsMarks (source : Source) : List MethodSpec → List Token → Prop
  | none : MethodsMarks source [] []
  | more {spec : MethodSpec} {specs : List MethodSpec} {vs us : List Token}
      (first : MethodMarks source spec vs) (later : MethodsMarks source specs us) :
      MethodsMarks source (spec :: specs) (vs ++ us)

theorem MethodMarks.fewer {spec : MethodSpec} (marks : MethodMarks source spec us) :
    solid rest < solid (us ++ rest) := by
  cases marks with
  | intro _ _ _ opens _ _ _ _ =>
      have other := opens.text
      rw [solid_append, solid_append, solid_append, solid_cons, solid_cons, if_neg (by simp [other])]
      omega

theorem MethodMarks.starts {spec : MethodSpec} (marks : MethodMarks source spec us) :
    ∃ t others, us ++ rest = t :: others ∧ t.shape = .word := by
  cases marks with
  | intro modifiers type _ _ _ _ _ _ =>
      rw [List.append_assoc, List.append_assoc]
      exact heading_starts modifiers type

theorem members_bare (t : Token) (nodes : List Node) :
    members source (bareNode t :: nodes) = members source nodes := by
  rw [bareNode, Lower.members]
  exact bind_pure (Lower.members source nodes)

theorem members_method {n : Node} {decl : MethodDeclaration} {nodes : List Node} {others : List Member}
    (kind : n.kind = .rule .methodDeclaration) (lowered : method source n = .done decl)
    (later : members source nodes = .done others) :
    members source (n :: nodes) = .done (.method decl :: others) := by
  obtain ⟨k, label, start, stop, children⟩ := n
  have same : k = .rule .methodDeclaration := kind
  subst same
  rw [Lower.members, later]
  have own : plainMember source (.mk (.rule .methodDeclaration) label start stop children) =
      .done (some (.method decl)) := by
    rw [plainMember]
    dsimp only [Node.kind]
    rw [lowered]
    rfl
  rw [own]
  rfl

theorem methods_read (marks : MethodsMarks source specs us) (fit : ∀ spec ∈ specs, FitMethod spec) :
    ∃ nodes decls, List.Forall₂ SameMethod specs decls ∧
      (∀ t, members source (nodes ++ [bareNode t]) = .done (decls.map .method)) ∧
      ∀ fuel built close rest, 4 * solid us + 4 ≤ fuel → SymbolMark closeBrace close →
        Repeats fuel (Shape.absent (Shape.sym closeBrace)) (.call .member) built
          (us ++ close :: rest) nodes (close :: rest) := by
  induction marks with
  | none =>
      have nothing : Lower.members source [] = .done [] := by rw [Lower.members]
      refine ⟨[], [], .nil, fun t => (members_bare t []).trans nothing, ?_⟩
      intro fuel built close rest _ ends
      exact .stop (.absent (ends.reads (by decide)))
  | @more spec specs vs us first _ ih =>
      obtain ⟨own, others⟩ := List.forall_mem_cons.mp fit
      obtain ⟨n, decl, kind, lowered, same, reads⟩ := method_reads first own
      obtain ⟨nodes, decls, alike, listed, repeats⟩ := ih others
      refine ⟨n :: nodes, decl :: decls, .cons same alike,
        fun t => members_method kind lowered (listed t), ?_⟩
      intro fuel built close rest enough ends
      rw [solid_append] at enough
      obtain ⟨t, more, front, word⟩ : ∃ t others,
          vs ++ (us ++ close :: rest) = t :: others ∧ t.shape = .word := first.starts
      have unclosed : Refuses fuel (Shape.sym closeBrace) built (vs ++ (us ++ close :: rest)) := by
        rw [front]
        exact .symbol fun symbol => by simp [word] at symbol
      rw [List.append_assoc]
      exact .turn (.absent unclosed) (reads _ _ _ (by omega)) first.fewer
        (repeats _ _ _ _ (by omega) ends)

inductive ClassMarks (source : Source) (name : String) (specs : List MethodSpec) : List Token → Prop
  | intro {ms us : List Token} {cls t ob cb : Token}
      (modifiers : ModifiersMarks [.publicAccess] ms) (keyword : WordMark source "class" cls)
      (named : WordMark source name t) (begins : SymbolMark openBrace ob)
      (methods : MethodsMarks source specs us) (ends : SymbolMark closeBrace cb) :
      ClassMarks source name specs (ms ++ cls :: t :: ob :: (us ++ [cb]))

def bodyNode (nodes : List Node) (ob cb : Token) : Node :=
  Node.ofRule .classBody (bareNode ob :: (nodes ++ [bareNode cb]))

/-- The node of a class. -/
def classNode (modifiers : List Node) (cls t : Token) (body : Node) : Node :=
  Node.ofRule .classDeclaration (modifiers ++ [bareNode cls,
    (leafNode .identifier t).labelled .name, body.labelled .body])

theorem class_unmodified {name : String} {cls t : Token} (keyword : WordMark source "class" cls)
    (named : WordMark source name t) : Unmodified (cls :: t :: rest) := by
  have parts : cls.text.toList.all isNamePart = true := by
    rw [keyword.text]
    rfl
  have other : cls.text ∉ modifierWords := by
    rw [keyword.text]
    decide
  exact word_unmodified keyword.word (by simp [keyword.text]) (List.all_eq_true.mp parts) other
    (.inl named.word)

theorem class_told (cls ob : Token) {modifiers nodes : List Node} {name : String} {t cb : Token}
    {decls : List MethodDeclaration} (modified : Modified [.publicAccess] modifiers)
    (named : WordMark source name t)
    (listed : members source (nodes ++ [bareNode cb]) = .done (decls.map .method)) :
    typeDeclaration source (classNode modifiers cls t (bodyNode nodes ob cb)) .classType =
      .done ⟨name, .classType, { keywords := [.publicAccess] },
        ClassBody.ofMembers (decls.map .method),
        source.span (classNode modifiers cls t (bodyNode nodes ob cb))⟩ := by
  have bare := modified.bare
  have keywords : source.modifiers (classNode modifiers cls t (bodyNode nodes ob cb)) =
      { keywords := [.publicAccess] } := by
    apply modifiers_told source modified rfl
    simp [bareNode, leafNode, bodyNode, Node.ofRule, Node.labelled, Node.kind]
  have found (f : Field) : (classNode modifiers cls t (bodyNode nodes ob cb)).get? f =
      [bareNode cls, (leafNode .identifier t).labelled .name,
        (bodyNode nodes ob cb).labelled .body].find? fun child => child.label == some f :=
    get_behind (fun n member => (bare n member).1) f
  have hasName : (classNode modifiers cls t (bodyNode nodes ob cb)).get? .name =
      some ((leafNode .identifier t).labelled .name) := (found .name).trans rfl
  have hasBody : (classNode modifiers cls t (bodyNode nodes ob cb)).get? .body =
      some ((bodyNode nodes ob cb).labelled .body) := (found .body).trans rfl
  have nameText := named.told ((leafNode .identifier t).labelled .name) rfl rfl
  have body : classBody source ((bodyNode nodes ob cb).labelled .body) =
      .done (ClassBody.ofMembers (decls.map .method)) := by
    have children : ((bodyNode nodes ob cb).labelled .body).children =
        bareNode ob :: (nodes ++ [bareNode cb]) := rfl
    rw [classBody, children, members_bare, listed]
    rfl
  unfold typeDeclaration
  simp only [Source.fieldText, Source.field, hasName, hasBody, Source.require, keywords, nameText,
    Plan.map, Plan.bind, Lower.optional, body]
  rfl

theorem class_reads {name : String} (marks : ClassMarks source name specs us)
    (fit : ∀ spec ∈ specs, FitMethod spec) :
    ∃ n decls span, n.kind = .rule .classDeclaration ∧
      typeDeclaration source n .classType = .done ⟨name, .classType,
        { keywords := [.publicAccess] }, ClassBody.ofMembers (decls.map .method), span⟩ ∧
      List.Forall₂ SameMethod specs decls ∧
      ∀ fuel built rest, 4 * solid us + 6 ≤ fuel →
        Reads fuel (.call .typeDeclaration) built (us ++ rest) [n] rest := by
  cases marks with
  | @intro ms us cls t ob cb modifiers keyword named begins methods ends =>
      obtain ⟨mods, modified, modifies⟩ := modifiers.reads
      obtain ⟨nodes, decls, alike, listed, repeats⟩ := methods_read methods fit
      have told := class_told cls ob modified named (listed cb)
      refine ⟨_, decls, _, rfl, told, alike, ?_⟩
      intro fuel built rest enough
      rw [solid_append, solid_cons, solid_cons, solid_cons, solid_append] at enough
      obtain ⟨fuel, rfl⟩ := Nat.exists_eq_add_of_le' (Nat.le_of_add_left_le enough)
      have whole : ms ++ cls :: t :: ob :: (us ++ [cb]) ++ rest =
          ms ++ cls :: t :: ob :: (us ++ cb :: rest) := by simp
      rw [whole]
      have unmodified : Unmodified (cls :: t :: ob :: (us ++ cb :: rest)) :=
        class_unmodified keyword named
      have isClass : cls.text ∈ ["class"] := by simp [keyword.text]
      obtain ⟨nodes', skips⟩ : ∃ nodes, Reads (fuel + 5) skippedModifiers [] _ nodes _ :=
        modifiers.skipped unmodified
      have body : Reads (fuel + 5) (.call .classBody) [] (ob :: (us ++ cb :: rest))
          [bodyNode nodes ob cb] rest :=
        .call (.node (.seq (begins.reads (by decide))
          (.seq (.many (repeats _ _ _ _ (by omega) ends)) (ends.reads (by decide)))))
      apply Reads.call
      apply Reads.pick (.seq skips (.keyword keyword.word isClass))
      exact .node (.seq (modifies _ _ _ unmodified) (.seq (.keyword keyword.word isClass)
        (.seq (.field (.word named.word rfl)) (.seq (.omitted (.symbol (begins.apart (by decide))))
        (.seq (.omitted (.keyword (begins.wordless _)))
        (.seq (.omitted (.keyword (begins.wordless _)))
        (.seq (.omitted (.keyword (begins.wordless _))) (.field body))))))))

end JavaOutline.Generate
