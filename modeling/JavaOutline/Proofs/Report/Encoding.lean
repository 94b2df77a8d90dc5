import JavaOutline.Proofs.Json.ReadBack
import JavaOutline.Report.Encoding

/-!
Reports survive being written. What is written of each part of a report is read back as that part,
so a whole run is read back from its text, provided that its numbers have at most sixty-four bits.
-/
namespace JavaOutline.Report

open JavaOutline.Json

def ExpressionEntry.Fits (e : ExpressionEntry) : Prop :=
  e.line < UInt64.size ∧ e.endLine < UInt64.size

def DeclarationEntry.Fits (d : DeclarationEntry) : Prop :=
  d.line < UInt64.size

def CallEntry.Fits (c : CallEntry) : Prop :=
  c.arguments < UInt64.size ∧ c.line < UInt64.size

structure MethodReport.Fits (m : MethodReport) : Prop where
  line : m.line < UInt64.size
  endLine : m.endLine < UInt64.size
  expressions : ∀ e ∈ m.expressions, e.Fits
  declarations : ∀ d ∈ m.declarations, d.Fits
  calls : ∀ c ∈ m.calls, c.Fits

def FileReport.Fits (r : FileReport) : Prop :=
  ∀ m ∈ r.methods, m.Fits

instance (e : ExpressionEntry) : Decidable e.Fits :=
  inferInstanceAs (Decidable (_ ∧ _))

instance (d : DeclarationEntry) : Decidable d.Fits :=
  inferInstanceAs (Decidable (_ < _))

instance (c : CallEntry) : Decidable c.Fits :=
  inferInstanceAs (Decidable (_ ∧ _))

instance (m : MethodReport) : Decidable m.Fits :=
  decidable_of_iff
    (m.line < UInt64.size ∧ m.endLine < UInt64.size ∧ (∀ e ∈ m.expressions, e.Fits) ∧
      (∀ d ∈ m.declarations, d.Fits) ∧ ∀ c ∈ m.calls, c.Fits)
    ⟨fun ⟨line, endLine, expressions, declarations, calls⟩ =>
        ⟨line, endLine, expressions, declarations, calls⟩,
      fun fits => ⟨fits.line, fits.endLine, fits.expressions, fits.declarations, fits.calls⟩⟩

instance (r : FileReport) : Decidable r.Fits :=
  inferInstanceAs (Decidable (∀ _ ∈ _, _))

theorem optional_field_whole (name : String) (text : Option String) :
    ∀ member ∈ optionalField name text, member.2.Whole := by
  cases text with
  | none => exact List.forall_mem_nil _
  | some t => exact List.forall_mem_singleton.mpr (.string t)

theorem array_whole {α : Type} (write : α → Value) (items : List α)
    (each : ∀ item, (write item).Whole) : (Value.array (items.map write)).Whole := by
  apply Value.Whole.array
  intro written member
  obtain ⟨item, _, rfl⟩ := List.mem_map.mp member
  exact each item

theorem ExpressionEntry.whole (e : ExpressionEntry) : e.toJson.Whole := by
  apply Value.Whole.object
  simp only [List.forall_mem_cons]
  exact ⟨.string _, .number _, .number _, .string _, List.forall_mem_nil _⟩

theorem DeclarationEntry.whole (d : DeclarationEntry) : d.toJson.Whole := by
  apply Value.Whole.object
  simp only [List.forall_mem_append, List.forall_mem_cons]
  exact ⟨⟨.string _, .string _, .number _, List.forall_mem_nil _⟩, optional_field_whole _ _⟩

theorem CallEntry.whole (c : CallEntry) : c.toJson.Whole := by
  apply Value.Whole.object
  simp only [List.forall_mem_append, List.forall_mem_cons]
  exact ⟨optional_field_whole _ _, .string _, .number _, .number _, List.forall_mem_nil _⟩

theorem MethodReport.whole (m : MethodReport) : m.toJson.Whole := by
  apply Value.Whole.object
  simp only [List.forall_mem_cons]
  exact ⟨.string _, .string _, .number _, .number _, array_whole _ _ ExpressionEntry.whole,
    array_whole _ _ DeclarationEntry.whole, array_whole _ _ CallEntry.whole, List.forall_mem_nil _⟩

theorem FileReport.whole (r : FileReport) : r.toJson.Whole := by
  apply Value.Whole.object
  simp only [List.forall_mem_append, List.forall_mem_cons]
  exact ⟨⟨⟨⟨⟨.string _, List.forall_mem_nil _⟩, optional_field_whole _ _⟩,
    optional_field_whole _ _⟩, array_whole _ _ MethodReport.whole, List.forall_mem_nil _⟩,
    optional_field_whole _ _⟩

theorem Summary.whole (s : Summary) : s.toJson.Whole := by
  apply Value.Whole.object
  simp only [List.forall_mem_cons]
  exact ⟨.string _, .number _, .number _, array_whole _ _ FileReport.whole, List.forall_mem_nil _⟩

theorem need_count_number (n : Nat) (fits : n < UInt64.size) : needCount (some (.number n)) = some n :=
  if_pos fits

theorem list_read_back {α : Type} (write : α → Value) (read : Value → Option α) (items : List α)
    (back : ∀ item ∈ items, read (write item) = some item) :
    (Value.array (items.map write)).list? read = some items := by
  induction items with
  | nil => rfl
  | cons item items ih =>
      obtain ⟨first, others⟩ := List.forall_mem_cons.mp back
      have rest := ih others
      simp only [Value.list?, List.map_cons, List.mapM_cons] at rest ⊢
      simp [first, rest]

theorem ExpressionEntry.read_back (e : ExpressionEntry) (fits : e.Fits) :
    ofJson? e.toJson = some e := by
  obtain ⟨line, endLine⟩ := fits
  simp [ofJson?, toJson, Value.fields?, needText, Value.string?, need_count_number, line, endLine]

theorem DeclarationEntry.read_back (d : DeclarationEntry) (fits : d.Fits) :
    ofJson? d.toJson = some d := by
  obtain ⟨name, type, line, initializer⟩ := d
  have line : line < UInt64.size := fits
  cases initializer <;>
    simp [ofJson?, toJson, Value.fields?, needText, Value.string?, need_count_number, line,
      optionalField, optionalText]

theorem CallEntry.read_back (c : CallEntry) (fits : c.Fits) : ofJson? c.toJson = some c := by
  obtain ⟨scope, name, count, line⟩ := c
  obtain ⟨arguments, line⟩ := fits
  cases scope <;>
    simp_all [ofJson?, toJson, Value.fields?, needText, Value.string?, need_count_number,
      optionalField, optionalText]

theorem MethodReport.read_back (m : MethodReport) (fits : m.Fits) :
    ofJson? m.toJson = some m := by
  have expressions := list_read_back _ _ m.expressions fun e member =>
    e.read_back (fits.expressions e member)
  have declarations := list_read_back _ _ m.declarations fun d member =>
    d.read_back (fits.declarations d member)
  have calls := list_read_back _ _ m.calls fun c member => c.read_back (fits.calls c member)
  simp [ofJson?, toJson, Value.fields?, needText, Value.string?, needList, need_count_number,
    fits.line, fits.endLine, expressions, declarations, calls]

theorem FileReport.read_back (r : FileReport) (fits : r.Fits) : ofJson? r.toJson = some r := by
  obtain ⟨path, package, publicClass, reports, error⟩ := r
  have methods := list_read_back _ _ reports fun m member => m.read_back (fits m member)
  cases package <;> cases publicClass <;> cases error <;>
    simp [ofJson?, toJson, Value.fields?, needText, Value.string?, optionalField, optionalText,
      optionalList, methods]

theorem Summary.read_back (s : Summary) (scanned : s.filesScanned < UInt64.size)
    (failures : s.filesFailed < UInt64.size) (fits : ∀ r ∈ s.files, r.Fits) :
    ofJson? s.toJson = some s := by
  have files := list_read_back _ _ s.files fun r member => r.read_back (fits r member)
  simp [ofJson?, toJson, Value.fields?, needText, Value.string?, needList, need_count_number,
    scanned, failures, files]

/-- The text of any reports is read back as these reports, with their number and the number of
those that carry an error. -/
theorem reports_read_back (reports : List FileReport) (count : reports.length < UInt64.size)
    (fits : ∀ r ∈ reports, r.Fits) :
    Summary.parse? (jsonText reports) =
      some {
        version := toolVersion
        filesScanned := reports.length
        filesFailed := reports.countP fun r => r.error.isSome
        files := reports } := by
  have failures : failedCount reports ≤ reports.length := List.length_filter_le _ _
  have parsed := parse_render (Summary.ofReports reports).toJson (Summary.whole _)
  have back := Summary.read_back (.ofReports reports) count (Nat.lt_of_le_of_lt failures count) fits
  rw [Summary.parse?, jsonText, parsed, Option.bind_eq_bind, Option.bind_some, back,
    Summary.ofReports, failedCount, List.countP_eq_length_filter]
  rfl

def awkwardReports : List FileReport :=
  [{ path := "broken.java", error := some "a \"quoted\" \\ text" },
    { path := "\u0001\t\u20ac😀"
      package := some ""
      methods := [{
        name := "m"
        signature := "m(String[])"
        line := 1
        endLine := 18446744073709551615
        expressions := [⟨"method_call", 2, 3, "\n/\x7f"⟩]
        declarations := [⟨"x", "int", 2, none⟩, ⟨"y", "int", 2, some "x"⟩]
        calls := [⟨none, "f", 0, 2⟩, ⟨some "this", "g", 1, 3⟩] }] }]

theorem awkward_reports_read_back :
    awkwardReports.length < UInt64.size ∧ (∀ r ∈ awkwardReports, r.Fits) ∧
      Summary.parse? (jsonText awkwardReports) =
        some ⟨toolVersion, 2, 1, awkwardReports⟩ :=
  ⟨by decide, by decide, reports_read_back awkwardReports (by decide) (by decide)⟩

end JavaOutline.Report
