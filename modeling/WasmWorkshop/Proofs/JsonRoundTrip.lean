import WasmWorkshop.Proofs.WrittenRecords

/-!
# What is written as JSON is read back

Diagnostics, reports, tool chains and layout options are written as JSON and read from JSON. What
was written is read back as the value that it was written from, whatever the characters of its texts
are, whether or not the function of a diagnostic is there, and also where the code of a diagnostic
is not the one of its kind (`values_roundTrip`). The only condition is that numbers fit into 64
bits, and every value that is read meets it. A text that is accepted may have spaces, escapes,
unknown members or another order; written again it has none of those, and writing it yet again
changes nothing.
-/

set_option autoImplicit false

namespace WasmWorkshop.Json

open Handoff (Toolchain)

variable {α : Type}

/-! ## Each kind of record -/

theorem writeText_opens (text : String) : OpensValue (writeText text) :=
  ⟨'"', _, rfl, rfl, by decide⟩

theorem writeObject_opens (members : List (String × List Char)) :
    OpensValue (writeObject members) :=
  ⟨'\x7b', _, rfl, rfl, by decide⟩

theorem restores_diagnostic (diagnostic : Diagnostic) :
    Restores readDiagnostic (writeDiagnostic diagnostic) diagnostic := by
  obtain ⟨kind, code, space, name, function, message⟩ := diagnostic
  have kindRestored : Restores (readNamed diagnosticKinds) (writeNamed diagnosticKinds kind) kind :=
    restores_named (by cases kind <;> rfl)
  have spaceRestored : Restores (readNamed namespaces) (writeNamed namespaces space) space :=
    restores_named (by cases space <;> rfl)
  have first {members : List (String × List Char)} {final : PartialDiagnostic}
      (others : Fills diagnosticRecord.fields
        ⟨some kind, some code, some space, some name, none, none⟩ members final) :
      Fills diagnosticRecord.fields {}
        ([("kind", writeNamed diagnosticKinds kind), ("code", writeCodeNumber code),
          ("namespace", writeNamed namespaces space), ("name", writeText name)] ++ members) final :=
    .field rfl rfl kindRestored
      (.field rfl rfl (restores_code code)
        (.field rfl rfl spaceRestored (.field rfl rfl (restores_text name) others)))
  cases function with
  | none => exact restores_record (first (.field rfl rfl (restores_text message) (.nil _))) rfl
  | some function =>
      have present : Restores (readOptional readText) (writeText function) (some function) :=
        restores_optional (restores_text function) (writeText_opens function)
          (fun null => absurd (Option.some.inj null) (by decide))
      exact restores_record
        (first (.field rfl rfl present (.field rfl rfl (restores_text message) (.nil _)))) rfl

theorem restores_report {report : Report} (inRange : report.total < longRange) :
    Restores readReport (writeReport report) report := by
  have errors := restores_list (fun diagnostic (_ : diagnostic ∈ report.errors) =>
    restores_diagnostic diagnostic) (fun _ _ => writeObject_opens _)
  have total := restores_natural inRange (Nat.le_refl longRange)
  exact restores_record (.field rfl rfl errors (.field rfl rfl total (.nil _))) rfl

theorem restores_layoutOptions {options : LayoutOptions}
    (inRange : options.indentWidth < longRange) :
    Restores readLayoutOptions (writeLayoutOptions options) options := by
  have indentWidth := restores_natural inRange (Nat.le_refl longRange)
  exact restores_record (.field rfl rfl indentWidth (.nil _)) rfl

theorem restores_toolchain (toolchain : Toolchain) :
    Restores readToolchain (writeToolchain toolchain) toolchain :=
  restores_record
    (.field rfl rfl (restores_text toolchain.compiler)
      (.field rfl rfl (restores_text toolchain.outputFlag)
        (.field rfl rfl (restores_text toolchain.textExtension)
          (.field rfl rfl (restores_text toolchain.binaryExtension) (.nil _))))) rfl

/-! ## What is accepted -/

/-- The count of a report that was read fits into 64 bits. -/
theorem readReport_inRange {text rest : List Char} {report : Report}
    (read : readReport text = .ok (report, rest)) : report.total < longRange := by
  have keeps : ∀ field ∈ reportRecord.fields,
      field.Keeps fun partly => ∀ total ∈ partly.total, total < longRange := by
    intro field member
    simp only [reportRecord, List.mem_cons, List.not_mem_nil, or_false] at member
    rcases member with rfl | rfl
    · exact keeps_fieldOf fun _ _ _ _ before _ => before
    · refine keeps_fieldOf fun _ _ _ _ _ read total same => ?_
      cases same
      exact readNatural_lt read
  obtain ⟨final, inRange, complete⟩ := readRecord_keeps keeps
    (fun _ total => absurd total (Option.not_mem_none _)) read
  simp only [reportRecord, Option.bind_eq_bind, Option.bind_eq_some_iff] at complete
  obtain ⟨errors, -, total, there, made⟩ := complete
  cases made
  exact inRange total there

/-- The indentation of layout options that were read fits into 64 bits. -/
theorem readLayoutOptions_inRange {text rest : List Char} {options : LayoutOptions}
    (read : readLayoutOptions text = .ok (options, rest)) : options.indentWidth < longRange := by
  have keeps : ∀ field ∈ layoutOptionsRecord.fields,
      field.Keeps fun partly => ∀ width ∈ partly.indentWidth, width < longRange := by
    intro field member
    simp only [layoutOptionsRecord, List.mem_singleton] at member
    subst member
    refine keeps_fieldOf fun _ _ _ _ _ read width same => ?_
    cases same
    exact readNatural_lt read
  obtain ⟨final, inRange, complete⟩ := readRecord_keeps keeps
    (fun _ width => absurd width (Option.not_mem_none _)) read
  cases complete
  cases there : final.indentWidth with
  | none => decide
  | some width => exact inRange width there

/-! ## Whole texts -/

/-- The text of the value that was read from a text. -/
def rewritten (reader : Reader α) (write : α → List Char) (text : String) : Except Fault String :=
  (decode reader text).map fun value => textOf (write value)

/-- What writing and reading have to do with each other. -/
structure RoundTrips (reader : Reader α) (write : α → List Char) (fits : α → Prop) : Prop where
  /-- What was written is read back as it was. -/
  restored : ∀ value, fits value → decode reader (textOf (write value)) = .ok value
  /-- Only what can be written is read. -/
  accepted : ∀ text value, decode reader text = .ok value → fits value
  /-- Writing what was read changes nothing the second time. -/
  settled : ∀ text again, rewritten reader write text = .ok again →
    rewritten reader write again = .ok again

theorem decode_restored {reader : Reader α} {written : List Char} {value : α}
    (restores : Restores reader written value) : decode reader (textOf written) = .ok value := by
  have read := restores [] delimited_nil
  rw [List.append_nil] at read
  rw [decode, textOf, String.toList_ofList, read]
  rfl

theorem read_of_decode {reader : Reader α} {text : String} {value : α}
    (decoded : decode reader text = .ok value) :
    ∃ rest, reader text.toList = .ok (value, rest) := by
  unfold decode at decoded
  split at decoded
  · cases decoded
  · rename_i rest read
    split at decoded
    · cases decoded
      exact ⟨rest, read⟩
    · cases decoded

theorem roundTrips_of_restores {reader : Reader α} {write : α → List Char} {fits : α → Prop}
    (restores : ∀ value, fits value → Restores reader (write value) value)
    (inRange : ∀ text value rest, reader text = .ok (value, rest) → fits value) :
    RoundTrips reader write fits := by
  have accepted : ∀ text value, decode reader text = .ok value → fits value := by
    intro text value decoded
    obtain ⟨rest, read⟩ := read_of_decode decoded
    exact inRange _ value rest read
  refine ⟨fun value fitting => decode_restored (restores value fitting), accepted, ?_⟩
  intro text again first
  cases decoded : decode reader text with
  | error fault =>
      rw [rewritten, decoded] at first
      cases first
  | ok value =>
      rw [rewritten, decoded] at first
      cases first
      rw [rewritten, decode_restored (restores value (accepted text value decoded))]
      rfl

/-- **Every value of the library is read back from the JSON that is written for it**, and so
writing what was read from any text changes nothing the second time. -/
theorem values_roundTrip :
    RoundTrips readDiagnostic writeDiagnostic (fun _ => True) ∧
      RoundTrips readReport writeReport (·.total < longRange) ∧
      RoundTrips readToolchain writeToolchain (fun _ => True) ∧
      RoundTrips readLayoutOptions writeLayoutOptions (·.indentWidth < longRange) :=
  ⟨roundTrips_of_restores (fun diagnostic _ => restores_diagnostic diagnostic)
      (fun _ _ _ _ => trivial),
    roundTrips_of_restores (fun _ inRange => restores_report inRange)
      (fun _ _ _ read => readReport_inRange read),
    roundTrips_of_restores (fun toolchain _ => restores_toolchain toolchain)
      (fun _ _ _ _ => trivial),
    roundTrips_of_restores (fun _ inRange => restores_layoutOptions inRange)
      (fun _ _ _ read => readLayoutOptions_inRange read)⟩

example : textOf (writeDiagnostic ⟨.arityMismatch, 7, .function, "a\"\\", none, "\n\x01é"⟩) =
    "\x7b\"kind\":\"arity_mismatch\",\"code\":7,\"namespace\":\"func\",\"name\":\"a\\\"\\\\\"," ++
      "\"message\":\"\\n\\u0001é\"\x7d" := by
  decide

end WasmWorkshop.Json
