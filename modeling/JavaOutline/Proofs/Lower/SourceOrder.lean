import JavaOutline.Proofs.Lower.Faithful

/-!
Outlines are in the order of the source. Lowering decides which nodes of a tree become which parts
of an outline, and walks decide in which order they come by the parts; both keep to the text, so
spans contain those of the parts and follow each other as the walk does.
-/
namespace JavaOutline

open Walk

def Walk.Visit.code? : Visit → Option Span
  | .statement s => some s.span
  | .expression e => some e.span
  | _ => none

theorem Walk.Visit.code_bounds {visit : Visit} {span : Span} (code : visit.code? = some span) :
    visit.bounds? = some span := by
  cases visit <;> first | exact code | cases code

namespace CompilationUnit

def codeAt? (u : CompilationUnit) (place : Place) : Option Span :=
  ((Visit.unit u).at? place).bind Visit.code?

def boundsAt? (u : CompilationUnit) (place : Place) : Option Span :=
  ((Visit.unit u).at? place).bind Visit.bounds?

/-- Statements and expressions are not empty and lie within every statement, expression, method and
type around them, of which there is one at least. Of two that are apart, the one that walks come by
first ends before the other starts; so it is with the values of a flattened method. -/
structure InSourceOrder (u : CompilationUnit) : Prop where
  filled : ∀ place span, u.codeAt? place = some span → span.startByte < span.endByte
  enclosed : ∀ place span, u.codeAt? place = some span →
    ∃ outer bounds, outer <+: place ∧ outer ≠ place ∧ u.boundsAt? outer = some bounds
  contained : ∀ outer inner bounds span, outer <+: inner → outer ≠ inner →
    u.boundsAt? outer = some bounds → u.codeAt? inner = some span → bounds.contains span = true
  apart : ∀ first second before behind, Place.Precedes first second → ¬ first <+: second →
    u.codeAt? first = some before → u.codeAt? second = some behind →
    before.endByte ≤ behind.startByte
  flattened : ∀ place method limit values, (Visit.unit u).at? place = some (.method method) →
    method.flatten limit = .ok values →
    values.Pairwise fun first second => first.span.startByte < second.span.startByte ∧
      first.span.endByte ≤ second.span.startByte

/-- Everything in a unit stands below one of its types. -/
theorem code_enclosed (u : CompilationUnit) (place : Place) (span : Span)
    (code : u.codeAt? place = some span) :
    ∃ outer bounds, outer <+: place ∧ outer ≠ place ∧ u.boundsAt? outer = some bounds := by
  obtain ⟨visit, stands, own⟩ := Option.bind_eq_some_iff.mp code
  cases place with
  | nil =>
      cases stands
      cases own
  | cons index tail =>
      obtain ⟨part, found, inside⟩ := Option.bind_eq_some_iff.mp stands
      obtain ⟨type, _, rfl⟩ := List.mem_map.mp (List.mem_of_getElem? found)
      have bounds : u.boundsAt? [index] = some type.span := by
        simp [boundsAt?, partAt?, found, Visit.bounds?]
      refine ⟨[index], type.span, ⟨tail, rfl⟩, ?_, bounds⟩
      intro same
      obtain rfl := (List.cons.inj same).2
      cases inside
      cases own

end CompilationUnit

open CompilationUnit

theorem method_flattened {low high : Nat} (method : MethodDeclaration) (limit : Nat)
    (values : List Expression) (ok : method.flatten limit = .ok values)
    (nests : Nests low [.method method] high) : Nests low (values.map Visit.expression) high :=
  nests.leaves (method.leaves_flattened limit values ok)

theorem read_in_source_order (path : String) (chars : List Char) (limit : Nat)
    (u : CompilationUnit) (accepted : CompilationUnit.read path chars limit = .ok u) :
    u.InSourceOrder := by
  obtain ⟨high, nests⟩ := read_nests path chars limit u accepted
  -- The unit is the only node at the top, so its places start with that index.
  have top (place : Place) :
      partAmong? Visit.parts [.unit u] (0 :: place) = (Visit.unit u).at? place := by
    simp [partAmong?]
  refine ⟨?_, code_enclosed u, ?_, ?_, ?_⟩
  · intro place span code
    obtain ⟨visit, stands, own⟩ := Option.bind_eq_some_iff.mp code
    have here := nests.here (0 :: place) ((top place).trans stands)
    exact (here.bounds (Visit.code_bounds own)).2.1
  · rintro outer inner bounds span ⟨tail, rfl⟩ strict around code
    obtain ⟨whole, atOuter, ofWhole⟩ := Option.bind_eq_some_iff.mp around
    obtain ⟨visit, atInner, own⟩ := Option.bind_eq_some_iff.mp code
    cases tail with
    | nil => exact absurd (List.append_nil outer).symm strict
    | cons index rest =>
        exact nests.contained (0 :: outer) ((top _).trans atOuter) ((top _).trans atInner) ofWhole
          (Visit.code_bounds own)
  · intro first second before behind earlier separate code other
    obtain ⟨former, atFirst, ofFormer⟩ := Option.bind_eq_some_iff.mp code
    obtain ⟨latter, atSecond, ofLatter⟩ := Option.bind_eq_some_iff.mp other
    refine nests.apart ((top _).trans atFirst) ((top _).trans atSecond)
      (Visit.code_bounds ofFormer) (Visit.code_bounds ofLatter)
      (Place.precedes_under 0 first second earlier) ?_
    exact fun starts => separate ((List.prefix_cons_inj 0).mp starts)
  · intro place method limit values stands ok
    have here := nests.here (0 :: place) ((top place).trans stands)
    exact (method_flattened method limit values ok here).increasing

set_option maxRecDepth 100000 in
/-- A declaration ends before its semicolon, and a call follows. -/
theorem declaration_before_call :
    ∃ u method values,
      CompilationUnit.read "T.java" "class T{void m(){int i=1;f(i);}}".toList 8 = .ok u ∧
        (Visit.unit u).at? [0, 0, 0] = some (.method method) ∧
        method.flatten 8 = .ok values ∧ values.length = 2 ∧
        values.Pairwise fun first second => first.span.startByte < second.span.startByte ∧
          first.span.endByte ≤ second.span.startByte := by
  obtain ⟨u, method, accepted, stands, passes⟩ := read_method "class T{void m(){int i=1;f(i);}}" 8
    [0, 0, 0] (fun method => (method.flatten 8).toOption.any (·.length == 2)) (by decide +kernel)
  have ordered := read_in_source_order "T.java" _ 8 u accepted
  obtain ⟨values, found, two⟩ := (Option.any_eq_true _ _).mp passes
  have ok : method.flatten 8 = .ok values := by
    cases same : method.flatten 8 <;> simp_all [Except.toOption]
  exact ⟨u, method, values, accepted, stands, ok, beq_iff_eq.mp two,
    ordered.flattened _ method 8 values stands ok⟩

end JavaOutline
