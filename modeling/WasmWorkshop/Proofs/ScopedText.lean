import Mathlib.Data.List.Nodup
import WasmWorkshop.Proofs.Scoping

/-!
# The accepted texts are the well-scoped ones

The pass over the lines of a module (`LinesAccepted`) asks of every line that its references resolve
in the table (`Line.Resolves`), and keeps the locals of a function apart from that. For the lines of
one function the locals pass exactly if they are well scoped (`linesAccepted_function`), and the
table answers by what the lines declare, so the symbol check of faithful nodes accepts exactly the
well-scoped texts (`check_iff_wellScoped`).
-/

set_option autoImplicit false

namespace WasmWorkshop

variable {table : SymbolTable}

/-! ## References and locals -/

/-- The references of a line to functions, globals and labels resolve. -/
def Line.Resolves (table : SymbolTable) (line : Line) : Prop :=
  match line.meaning with
  | .call name operands => ∃ arity, table.functions.lookup name = some arity ∧
      arityError? name arity (some operands) = none
  | .functionUse name => (table.functions.lookup name).isSome
  | .globalUse name => name ∈ table.globals
  | .labelUse name => name ∈ line.labels
  | _ => True

/-- A line is accepted if its references resolve, the local it declares is new, and the local it
uses is known. -/
theorem accepted_iff (function : Option (String × List String)) (line : Line) :
    line.Accepted table function ↔ line.Resolves table ∧
      (∀ name, line.meaning = .localForm name → ∀ known ∈ function, name ∉ known.2) ∧
      ∀ name, line.meaning = .localUse name → ∃ known ∈ function, name ∈ known.2 := by
  obtain ⟨labels, meaning⟩ := line
  cases meaning <;> simp [Line.Accepted, Line.Resolves]

theorem localForms_cons (line : Line) (rest : List Line) :
    localForms (line :: rest) = line.meaning.localForm?.toList ++ localForms rest := by
  cases declared : line.meaning.localForm? <;> simp [localForms, declared]

/-- The locals of a function after a line. -/
theorem declareIn_some (name : String) (known : List String) (meaning : Meaning) :
    ∃ after, meaning.declareIn (some (name, known)) = some (name, after) ∧
      ∀ other, other ∈ after ↔ other ∈ known ∨ meaning.localForm? = some other := by
  cases meaning with
  | localForm declared =>
      refine ⟨known.insert declared, rfl, fun other => ?_⟩
      rw [List.mem_insert_iff, or_comm]
      simp [Meaning.localForm?, eq_comm]
  | _ => exact ⟨known, rfl, fun other => by simp [Meaning.localForm?]⟩

/-- The locals of a function after some lines. -/
theorem declareAll_some (name : String) (known : List String) (lines : List Line) :
    ∃ after, declareAll (some (name, known)) lines = some (name, after) ∧
      ∀ other, other ∈ after ↔ other ∈ known ∨ other ∈ localForms lines := by
  induction lines generalizing known with
  | nil => exact ⟨known, rfl, fun other => by simp [localForms]⟩
  | cons line rest ih =>
      obtain ⟨between, first, memBetween⟩ := declareIn_some name known line.meaning
      obtain ⟨after, others, memAfter⟩ := ih between
      refine ⟨after, ?_, fun other => ?_⟩
      · rw [declareAll, List.foldl_cons, first]
        exact others
      · rw [memAfter, memBetween, localForms_cons, List.mem_append, Option.mem_toList, or_assoc]

/-- The locals in some lines pass, given those known before: each is new where it is declared, and
known where it is used. -/
structure LocalsPass (known : List String) (lines : List Line) : Prop where
  distinct : (localForms lines).Nodup
  fresh : ∀ name ∈ localForms lines, name ∉ known
  declared : ∀ before line after name, lines = before ++ line :: after →
    line.meaning = .localUse name → name ∈ known ∨ name ∈ localForms before

/-- The locals pass line by line. -/
theorem localsPass_cons {known between : List String} {line : Line} {rest : List Line}
    (memBetween : ∀ other, other ∈ between ↔
      other ∈ known ∨ line.meaning.localForm? = some other) :
    LocalsPass known (line :: rest) ↔
      (∀ name, line.meaning.localForm? = some name → name ∉ known) ∧
      (∀ name, line.meaning = .localUse name → name ∈ known) ∧ LocalsPass between rest := by
  constructor
  · rintro ⟨distinct, fresh, declared⟩
    rw [localForms_cons] at distinct fresh
    obtain ⟨-, distinctRest, once⟩ := List.nodup_append.mp distinct
    refine ⟨?_, ?_, distinctRest, ?_, ?_⟩
    · exact fun name own => fresh name (List.mem_append_left _ (Option.mem_toList.mpr own))
    · intro name use
      simpa [localForms] using declared [] line rest name rfl use
    · intro name member present
      rcases (memBetween name).mp present with before | own
      · exact fresh name (List.mem_append_right _ member) before
      · exact once name (Option.mem_toList.mpr own) name member rfl
    · intro before other after name split use
      have above := declared (line :: before) other after name (by rw [split]; rfl) use
      rwa [localForms_cons, List.mem_append, Option.mem_toList, ← or_assoc, ← memBetween] at above
  · rintro ⟨fresh, used, distinctRest, freshRest, declared⟩
    refine ⟨?_, ?_, ?_⟩
    · rw [localForms_cons, List.nodup_append]
      refine ⟨by cases line.meaning.localForm? <;> simp, distinctRest, ?_⟩
      rintro name own other member rfl
      exact freshRest name member ((memBetween name).mpr (.inr (Option.mem_toList.mp own)))
    · intro name member
      rw [localForms_cons] at member
      rcases List.mem_append.mp member with own | member
      · exact fresh name (Option.mem_toList.mp own)
      · exact fun present => freshRest name member ((memBetween name).mpr (.inl present))
    · intro before other after name split use
      cases before with
      | nil =>
          obtain ⟨rfl, rfl⟩ := List.cons.inj split
          exact .inl (used name use)
      | cons first before =>
          obtain ⟨rfl, rfl⟩ := List.cons.inj split
          rw [localForms_cons, List.mem_append, Option.mem_toList, ← or_assoc, ← memBetween]
          exact declared before other after name rfl use

/-- **The pass over the lines of a function body**: their references resolve, and their locals
pass. -/
theorem linesAccepted_some (function : String) (known : List String) (lines : List Line) :
    LinesAccepted table (some (function, known)) lines ↔
      (∀ line ∈ lines, line.Resolves table) ∧ LocalsPass known lines := by
  induction lines generalizing known with
  | nil =>
      have passes : LocalsPass known [] := ⟨List.nodup_nil, List.forall_mem_nil _, by simp⟩
      simp [LinesAccepted, passes]
  | cons line rest ih =>
      obtain ⟨between, declared, memBetween⟩ := declareIn_some function known line.meaning
      have forms (name : String) :
          line.meaning.localForm? = some name ↔ line.meaning = .localForm name := by
        cases line.meaning <;> simp [Meaning.localForm?]
      rw [LinesAccepted, declared, ih, accepted_iff, localsPass_cons memBetween,
        List.forall_mem_cons]
      simp only [forms, Option.mem_some_iff, forall_eq', exists_eq_left']
      constructor
      · rintro ⟨⟨resolves, fresh, used⟩, others, passes⟩
        exact ⟨⟨resolves, others⟩, fresh, used, passes⟩
      · rintro ⟨⟨resolves, others⟩, fresh, used, passes⟩
        exact ⟨⟨resolves, fresh, used⟩, others, passes⟩

/-- The lines of a function, those for its header included, are accepted exactly if the references
in the body resolve and its locals are well scoped. -/
theorem linesAccepted_function (function : String) (header : List String) (body : List Line) :
    LinesAccepted table (some (function, [])) (header.map (⟨[], .localForm ·⟩) ++ body) ↔
      (∀ line ∈ body, line.Resolves table) ∧ LocalsScoped header body := by
  have headerForms : localForms (header.map (⟨[], .localForm ·⟩)) = header := by
    induction header with
    | nil => rfl
    | cons name rest ih => rw [List.map_cons, localForms_cons, ih]; rfl
  obtain ⟨known, declared, memKnown⟩ :=
    declareAll_some function [] (header.map (⟨[], .localForm ·⟩))
  simp only [headerForms, List.not_mem_nil, false_or] at memKnown
  have headerAccepted : LinesAccepted table (some (function, []))
      (header.map (⟨[], .localForm ·⟩)) ↔ header.Nodup := by
    rw [linesAccepted_some]
    constructor
    · exact fun accepted => headerForms ▸ accepted.2.distinct
    · refine fun distinct => ⟨by simp [Line.Resolves], ?_, by simp, ?_⟩
      · rwa [headerForms]
      · intro before line after name split use
        have member : line ∈ header.map (⟨[], .localForm ·⟩ : String → Line) := by simp [split]
        obtain ⟨own, -, rfl⟩ := List.mem_map.mp member
        cases use
  rw [linesAccepted_append, headerAccepted, declared, linesAccepted_some]
  constructor
  · rintro ⟨distinct, resolves, distinctForms, fresh, above⟩
    simp only [memKnown] at fresh above
    refine ⟨resolves, List.nodup_append.mpr ⟨distinct, distinctForms, ?_⟩, above⟩
    rintro name own other member rfl
    exact fresh name member own
  · rintro ⟨resolves, distinct, above⟩
    obtain ⟨distinctHeader, distinctForms, once⟩ := List.nodup_append.mp distinct
    refine ⟨distinctHeader, resolves, distinctForms, ?_, ?_⟩
    · exact fun name member own => once name ((memKnown name).mp own) name member rfl
    · simpa only [memKnown] using above

theorem segmentAccepted_iff (segment : Segment) :
    segment.Accepted table ↔
      (∀ line ∈ segment.lines, line.Resolves table) ∧ segment.LocalsScoped := by
  cases segment with
  | stray line =>
      rw [Segment.Accepted, accepted_iff, Segment.lines, List.forall_mem_singleton]
      simp [Segment.LocalsScoped]
  | function name params locals body =>
      rw [Segment.Accepted, linesAccepted_function, Segment.lines, List.forall_mem_cons]
      simp [Segment.LocalsScoped, Line.Resolves]

/-! ## The table of a text -/

/-- Where no key occurs twice, looking a key up finds the entry that has it. -/
theorem lookup_eq_some_iff_mem {α β : Type} [BEq α] [LawfulBEq α] {entries : List (α × β)}
    (distinct : (entries.map Prod.fst).Nodup) (key : α) (value : β) :
    entries.lookup key = some value ↔ (key, value) ∈ entries := by
  induction entries with
  | nil => simp
  | cons entry rest ih =>
      obtain ⟨known, knownValue⟩ := entry
      obtain ⟨fresh, distinct⟩ := List.nodup_cons.mp distinct
      rw [List.lookup_cons, List.mem_cons, Prod.mk.injEq]
      by_cases same : key = known
      · subst same
        have notRest : (key, value) ∉ rest := fun member =>
          fresh (List.mem_map.mpr ⟨_, member, rfl⟩)
        simp [notRest, eq_comm]
      · simp [beq_false_of_ne same, same, ih distinct]

/-- The table that the first reading makes of some lines. -/
def tableOf (lines : List Line) : SymbolTable := SymbolTable.empty.enterAll (lineSymbols lines)

theorem functions_tableOf (lines : List Line) :
    (tableOf lines).functions =
      (signatures lines).reverse.map fun entry => (entry.1, some entry.2) := by
  simp [tableOf, enterAll_lineSymbols, SymbolTable.empty]

theorem mem_globals_tableOf (lines : List Line) (name : String) :
    name ∈ (tableOf lines).globals ↔ name ∈ globalNames lines := by
  simp [tableOf, enterAll_lineSymbols, SymbolTable.empty]

theorem lookup_tableOf_isSome (lines : List Line) (name : String) :
    ((tableOf lines).functions.lookup name).isSome ↔
      name ∈ (signatures lines).map Prod.fst := by
  rw [functions_tableOf, List.lookup_isSome_iff]
  simp only [List.mem_map, List.mem_reverse, beq_iff_eq]
  constructor
  · rintro ⟨_, ⟨entry, member, rfl⟩, rfl⟩
    exact ⟨entry, member, rfl⟩
  · rintro ⟨entry, member, rfl⟩
    exact ⟨_, ⟨entry, member, rfl⟩, rfl⟩

theorem lookup_tableOf_eq_some {lines : List Line}
    (distinct : ((signatures lines).map Prod.fst).Nodup) (name : String) (arity : Option Nat) :
    (tableOf lines).functions.lookup name = some arity ↔
      ∃ count, arity = some count ∧ (name, count) ∈ signatures lines := by
  have keys : ((tableOf lines).functions.map Prod.fst).Nodup := by
    have same : (tableOf lines).functions.map Prod.fst =
        ((signatures lines).map Prod.fst).reverse := by
      simp [functions_tableOf, Function.comp_def]
    rw [same]
    rwa [List.nodup_reverse]
  rw [lookup_eq_some_iff_mem keys, functions_tableOf]
  simp only [List.mem_map, List.mem_reverse, Prod.mk.injEq, Prod.exists]
  constructor
  · rintro ⟨_, count, member, rfl, rfl⟩
    exact ⟨count, rfl, member⟩
  · rintro ⟨count, rfl, member⟩
    exact ⟨name, count, member, rfl, rfl⟩

/-- A call agrees with the table exactly if a function is declared with as many parameters. -/
theorem call_resolves_iff {lines : List Line}
    (distinct : ((signatures lines).map Prod.fst).Nodup) (name : String) (operands : Nat) :
    (∃ arity, (tableOf lines).functions.lookup name = some arity ∧
      arityError? name arity (some operands) = none) ↔ (name, operands) ∈ signatures lines := by
  simp only [lookup_tableOf_eq_some distinct]
  constructor
  · rintro ⟨_, ⟨count, rfl, member⟩, agrees⟩
    by_cases same : count = operands
    · exact same ▸ member
    · simp [arityError?, same] at agrees
  · exact fun member => ⟨some operands, ⟨operands, rfl, member⟩, by simp [arityError?]⟩

theorem resolves_tableOf_iff {lines : List Line}
    (distinct : ((signatures lines).map Prod.fst).Nodup) (line : Line) :
    line.Resolves (tableOf lines) ↔
      (∀ name operands, line.meaning = .call name operands →
        (name, operands) ∈ signatures lines) ∧
      (∀ name, line.meaning = .functionUse name → name ∈ (signatures lines).map Prod.fst) ∧
      (∀ name, line.meaning = .globalUse name → name ∈ globalNames lines) ∧
      ∀ name, line.meaning = .labelUse name → name ∈ line.labels := by
  obtain ⟨labels, meaning⟩ := line
  cases meaning with
  | call name operands =>
      simp [Line.Resolves, call_resolves_iff distinct]
  | functionUse name =>
      simp only [Line.Resolves, lookup_tableOf_isSome]
      simp
  | globalUse name =>
      simp [Line.Resolves, mem_globals_tableOf]
  | _ => simp [Line.Resolves]

theorem duplicates_lineSymbols (lines : List Line) :
    SymbolTable.empty.duplicates (lineSymbols lines) = [] ↔
      ((signatures lines).map Prod.fst).Nodup ∧ (globalNames lines).Nodup ∧
        (tableNames lines).Nodup := by
  obtain ⟨functions, globals, tables⟩ := declaredNames_lineSymbols lines
  rw [duplicates_empty_eq_nil_iff]
  constructor
  · intro distinct
    rw [← functions, ← globals, ← tables]
    exact ⟨distinct _ (.inl rfl), distinct _ (.inr (.inl rfl)), distinct _ (.inr (.inr rfl))⟩
  · rintro ⟨distinctFunctions, distinctGlobals, distinctTables⟩ space moduleLevel
    rcases moduleLevel with rfl | rfl | rfl
    · rwa [functions]
    · rwa [globals]
    · rwa [tables]

/-! ## The check -/

/-- **The check of faithful nodes accepts exactly the well-scoped texts.** -/
theorem check_iff_wellScoped {nodes : List Node} (fields : ∀ node ∈ nodes, node.IsField) :
    checkSymbols nodes = .ok () ↔ WellScoped (Node.outlines nodes) := by
  have uses := uses_nodes fun node member => uses_field (fields node member)
  have lines := linesOf_eq_segments fun node member => lines_eq_segments (fields node member)
  have walk := (fieldWalks_nodes fun node member =>
    fieldWalks_field (tableOf (Outline.linesOf [] (Node.outlines nodes))) (fields node member)).1
  have segments :
      (∀ segment ∈ Outline.segmentsOf [] (Node.outlines nodes),
        segment.Accepted (tableOf (Outline.linesOf [] (Node.outlines nodes)))) ↔
      (∀ line ∈ Outline.linesOf [] (Node.outlines nodes),
        line.Resolves (tableOf (Outline.linesOf [] (Node.outlines nodes)))) ∧
      ∀ segment ∈ Outline.segmentsOf [] (Node.outlines nodes), segment.LocalsScoped := by
    simp only [segmentAccepted_iff]
    rw [forall₂_and]
    refine and_congr_left' ?_
    generalize tableOf _ = table
    simp only [lines, List.mem_flatMap]
    exact ⟨fun each line ⟨segment, member, inside⟩ => each segment member line inside,
      fun each segment member line inside => each line ⟨segment, member, inside⟩⟩
  rw [checkSymbols_eq_ok_iff, symbolErrors, List.append_eq_nil_iff, uses, duplicates_lineSymbols]
  change _ ∧ resolutionErrors (tableOf _) _ _ = [] ↔ _
  rw [walk, segments]
  constructor
  · rintro ⟨⟨functions, globals, tables⟩, resolves, locals⟩
    have each := fun line member => (resolves_tableOf_iff functions line).mp (resolves line member)
    exact ⟨functions, globals, tables, fun line member => (each line member).1,
      fun line member => (each line member).2.1, fun line member => (each line member).2.2.1,
      locals, fun line member => (each line member).2.2.2⟩
  · intro wellScoped
    refine ⟨⟨wellScoped.functionsDistinct, wellScoped.globalsDistinct, wellScoped.tablesDistinct⟩,
      fun line member => ?_, wellScoped.localsScoped⟩
    rw [resolves_tableOf_iff wellScoped.functionsDistinct]
    exact ⟨wellScoped.callsMatch line member, wellScoped.functionsDeclared line member,
      wellScoped.globalsDeclared line member, wellScoped.labelsEnclose line member⟩

end WasmWorkshop
