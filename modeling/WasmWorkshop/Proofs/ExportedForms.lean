import Mathlib.Data.List.Nodup
import WasmWorkshop.Proofs.ModuleForms

/-!
# Exports among the forms of a module

Nothing looks at exports themselves. Where each export comes with what it is of (`ExportsFollow`),
the number of exports under a name is known from the functions and memories with that name
(`count_exportNames`), so exports of functions are distinct as soon as functions are. The memory is
not a function, so a second memory, or a function with the name of the memory, is all that can bring
the same name about twice (`ExportsFollow.distinct_iff`, `ExportsFollow.exportsTell`).
-/

set_option autoImplicit false

namespace WasmWorkshop

theorem quoted_injective : Function.Injective quoted := by
  intro first second same
  have characters := congrArg String.toList same
  exact String.toList_injective (by simpa [quoted] using characters)

theorem sigil_injective : Function.Injective sigil := by
  intro first second same
  have characters := congrArg String.toList same
  exact String.toList_injective (by simpa [sigil] using characters)

theorem ModuleForm.ofFunction_injective : Function.Injective ModuleForm.ofFunction := by
  intro first second same
  exact quoted_injective (ModuleForm.exported.inj same).1

theorem ModuleForm.ofFunction_ne_ofMemory (name : String) :
    ModuleForm.ofFunction name ≠ ModuleForm.ofMemory := by
  intro same
  have characters := congrArg String.toList (ModuleForm.exported.inj same).2
  simp at characters

/-! ## Exports and what they are of -/

/-- The form is the export of the memory, or of a function under its own name. -/
def ModuleForm.IsKnown (form : ModuleForm) : Prop :=
  form = .ofMemory ∨ ∃ function, form = .ofFunction function

/-- Every export is that of a function or that of the memory. There are at most as many exports of a
function as functions of that name, and as many of the memory as memories. -/
structure ExportsFollow (forms : List ModuleForm) : Prop where
  known : ∀ name entity, .exported name entity ∈ forms →
    (ModuleForm.exported name entity).IsKnown
  functions : ∀ function,
    forms.count (.ofFunction function) ≤ forms.count (.function (sigil function))
  memories : forms.count .ofMemory = forms.countP (·.isMemory)
  symbols : ∀ symbol size, .memory symbol size ∈ forms → symbol = sigil "memory"

namespace ExportsFollow

variable {forms more : List ModuleForm}

theorem nil : ExportsFollow [] :=
  ⟨fun _ _ member => absurd member List.not_mem_nil, fun _ => Nat.le_refl 0, rfl,
    fun _ _ member => absurd member List.not_mem_nil⟩

theorem append (first : ExportsFollow forms) (second : ExportsFollow more) :
    ExportsFollow (forms ++ more) where
  known := by
    intro name entity member
    rcases List.mem_append.mp member with left | right
    · exact first.known name entity left
    · exact second.known name entity right
  functions := by
    intro function
    rw [List.count_append, List.count_append]
    exact Nat.add_le_add (first.functions function) (second.functions function)
  memories := by
    rw [List.count_append, List.countP_append, first.memories, second.memories]
  symbols := by
    intro symbol size member
    rcases List.mem_append.mp member with left | right
    · exact first.symbols symbol size left
    · exact second.symbols symbol size right

theorem perm (follow : ExportsFollow forms) (perm : forms.Perm more) : ExportsFollow more where
  known := fun name entity member => follow.known name entity (perm.mem_iff.mpr member)
  functions := fun function => by
    rw [← perm.count_eq, ← perm.count_eq]
    exact follow.functions function
  memories := by
    rw [← perm.count_eq, ← perm.countP_eq]
    exact follow.memories
  symbols := fun symbol size member => follow.symbols symbol size (perm.mem_iff.mpr member)

theorem hidden (name : String) : ExportsFollow [.function (sigil name)] where
  known := by simp
  functions := by simp [ModuleForm.ofFunction]
  memories := rfl
  symbols := by simp

theorem shown (name : String) : ExportsFollow [.function (sigil name), .ofFunction name] where
  known := by
    intro other entity member
    rw [List.mem_pair] at member
    rcases member with impossible | same
    · cases impossible
    · exact .inr ⟨name, same⟩
  functions := by
    intro function
    by_cases same : function = name
    · subst same
      simp [ModuleForm.ofFunction]
    · have absent : ModuleForm.ofFunction function ∉
          [ModuleForm.function (sigil name), ModuleForm.ofFunction name] := by
        rw [List.mem_pair]
        rintro (impossible | equal)
        · cases impossible
        · exact same (ModuleForm.ofFunction_injective equal)
      rw [List.count_eq_zero_of_not_mem absent]
      exact Nat.zero_le _
  memories := by
    have absent : ModuleForm.ofMemory ∉
        [ModuleForm.function (sigil name), ModuleForm.ofFunction name] := by
      rw [List.mem_pair]
      rintro (impossible | equal)
      · cases impossible
      · exact ModuleForm.ofFunction_ne_ofMemory name equal.symm
    rw [List.count_eq_zero_of_not_mem absent]
    rfl
  symbols := by simp [ModuleForm.ofFunction]

/-- A function, whose export comes after what is in it, or is left out. -/
theorem function (name : String) (inside : ExportsFollow forms) (exported : Bool) :
    ExportsFollow (.function (sigil name) :: (forms ++
      if exported then [.ofFunction name] else [])) := by
  cases exported with
  | false =>
      rw [if_neg Bool.false_ne_true, List.append_nil]
      exact (hidden name).append inside
  | true =>
      have back : ([ModuleForm.ofFunction name] ++ forms).Perm (forms ++ [.ofFunction name]) :=
        List.perm_append_comm
      exact ((shown name).append inside).perm (back.cons _)

theorem memory (size : String) : ExportsFollow [.memory (sigil "memory") size, .ofMemory] where
  known := by
    intro name entity member
    rw [List.mem_pair] at member
    rcases member with impossible | same
    · cases impossible
    · exact .inl same
  functions := by
    intro function
    have absent : ModuleForm.ofFunction function ∉
        [ModuleForm.memory (sigil "memory") size, ModuleForm.ofMemory] := by
      rw [List.mem_pair]
      rintro (impossible | equal)
      · cases impossible
      · exact ModuleForm.ofFunction_ne_ofMemory function equal
    rw [List.count_eq_zero_of_not_mem absent]
    exact Nat.zero_le _
  memories := by
    simp [ModuleForm.ofMemory, ModuleForm.isMemory]
  symbols := by simp [ModuleForm.ofMemory]

end ExportsFollow

/-! ## Names and entities -/

section Counts

variable {forms : List ModuleForm}

theorem count_entities_function (symbol : String) :
    (forms.filterMap ModuleForm.entity?).count ("(func " ++ symbol ++ ")") =
      forms.count (.function symbol) := by
  rw [List.count_filterMap, List.count_eq_countP]
  refine List.countP_congr fun form _ => ?_
  rw [beq_iff_eq, beq_iff_eq]
  constructor
  · intro same
    cases form with
    | function other =>
        have characters := congrArg String.toList (Option.some.inj same)
        rw [String.toList_injective (show other.toList = symbol.toList by simpa using characters)]
    | memory other size =>
        have characters := congrArg String.toList (Option.some.inj same)
        simp at characters
    | exported name entity => cases same
  · rintro rfl
    rfl

theorem count_entities_memory (symbols : ∀ symbol size, .memory symbol size ∈ forms →
    symbol = sigil "memory") :
    (forms.filterMap ModuleForm.entity?).count ("(memory " ++ sigil "memory" ++ ")") =
      forms.countP (·.isMemory) := by
  rw [List.count_filterMap]
  refine List.countP_congr fun form member => ?_
  rw [beq_iff_eq]
  cases form with
  | function other =>
      refine ⟨fun same => ?_, fun impossible => (by cases impossible)⟩
      have characters := congrArg String.toList (Option.some.inj same)
      simp at characters
  | memory other size =>
      rw [symbols other size member]
      exact ⟨fun _ => rfl, fun _ => rfl⟩
  | exported name entity =>
      exact ⟨fun impossible => (by cases impossible), fun impossible => (by cases impossible)⟩

/-- A name is exported for the function of that name, and the name of the memory for the memory as
well. -/
theorem count_exportNames (known : ∀ name entity, .exported name entity ∈ forms →
      (ModuleForm.exported name entity).IsKnown) (name : String) :
    (forms.filterMap ModuleForm.exportName?).count (quoted name) =
      forms.count (.ofFunction name) + if name = "memory" then forms.count .ofMemory else 0 := by
  induction forms with
  | nil => simp
  | cons form forms ih =>
      have others := ih fun name entity member => known name entity (List.mem_cons_of_mem _ member)
      have one : ([form].filterMap ModuleForm.exportName?).count (quoted name) =
          [form].count (.ofFunction name) +
            if name = "memory" then [form].count .ofMemory else 0 := by
        cases form with
        | function symbol =>
            simp [List.filterMap_cons, ModuleForm.exportName?, ModuleForm.ofFunction,
              ModuleForm.ofMemory]
        | memory symbol size =>
            simp [List.filterMap_cons, ModuleForm.exportName?, ModuleForm.ofFunction,
              ModuleForm.ofMemory]
        | exported exportedName entity =>
            rcases known exportedName entity List.mem_cons_self with same | ⟨function, same⟩
            · have noFunction := (ModuleForm.ofFunction_ne_ofMemory name).symm
              have sameName : quoted "memory" = quoted name ↔ name = "memory" :=
                quoted_injective.eq_iff.trans eq_comm
              rw [same, List.count_singleton, List.count_singleton]
              change [quoted "memory"].count (quoted name) = _
              simp [List.count_singleton, noFunction, sameName]
            · have noMemory := ModuleForm.ofFunction_ne_ofMemory function
              have sameName : quoted function = quoted name ↔ function = name :=
                quoted_injective.eq_iff
              have sameForm : ModuleForm.ofFunction function = .ofFunction name ↔ function = name :=
                ModuleForm.ofFunction_injective.eq_iff
              rw [same, List.count_singleton, List.count_singleton]
              change [quoted function].count (quoted name) = _
              simp [List.count_singleton, noMemory, sameName, sameForm]
      rw [← List.singleton_append, List.filterMap_append, List.count_append, List.count_append,
        List.count_append, one, others]
      split_ifs <;> omega

end Counts

/-! ## What is accepted -/

/-- What the exports of a module have in common, if no function is declared twice. -/
structure ExportsTell (forms : List ModuleForm) : Prop where
  /-- Every export is that of the memory, or that of a function under its own name. -/
  known : ∀ name entity, .exported name entity ∈ forms →
    (ModuleForm.exported name entity).IsKnown
  /-- A function is exported once at most, and an exported function is declared exactly once. -/
  functions : ∀ function, .ofFunction function ∈ forms →
    forms.count (.ofFunction function) = 1 ∧
      (forms.filterMap ModuleForm.entity?).count ("(func " ++ sigil function ++ ")") = 1
  /-- There is one export for each memory. -/
  memories : forms.count .ofMemory = forms.countP (·.isMemory)
  /-- Two exports share a name only where there is more than one memory, or a function with the name
  of the memory is exported beside it. -/
  distinct_iff : (forms.filterMap ModuleForm.exportName?).Nodup ↔
    forms.countP (·.isMemory) ≤ 1 ∧ (.ofMemory ∈ forms → .ofFunction "memory" ∉ forms)
  /-- If the names are distinct, then what is exported is declared exactly once. -/
  declared : (forms.filterMap ModuleForm.exportName?).Nodup →
    ∀ name entity, .exported name entity ∈ forms →
      (forms.filterMap ModuleForm.entity?).count entity = 1

section

variable {forms : List ModuleForm}

theorem count_function_le_one (distinct : (forms.filterMap ModuleForm.symbol?).Nodup)
    (symbol : String) : forms.count (.function symbol) ≤ 1 := by
  have once := List.nodup_iff_count_le_one.mp distinct symbol
  rw [List.count_filterMap] at once
  rw [List.count_eq_countP]
  refine Nat.le_trans (List.countP_mono_left fun form _ same => ?_) once
  rw [beq_iff_eq] at same ⊢
  rw [same]
  rfl

theorem ExportsFollow.quoted_of_mem (follow : ExportsFollow forms) {token : String}
    (member : token ∈ forms.filterMap ModuleForm.exportName?) : ∃ name, token = quoted name := by
  obtain ⟨form, inForms, names⟩ := List.mem_filterMap.mp member
  cases form with
  | function symbol => cases names
  | memory symbol size => cases names
  | exported name entity =>
      obtain rfl : name = token := Option.some.inj names
      rcases follow.known name entity inForms with same | ⟨function, same⟩
      · exact ⟨"memory", (ModuleForm.exported.inj same).1⟩
      · exact ⟨function, (ModuleForm.exported.inj same).1⟩

theorem ExportsFollow.distinct_iff (follow : ExportsFollow forms)
    (once : ∀ function, forms.count (.ofFunction function) ≤ 1) :
    (forms.filterMap ModuleForm.exportName?).Nodup ↔
      forms.countP (·.isMemory) ≤ 1 ∧ (.ofMemory ∈ forms → .ofFunction "memory" ∉ forms) := by
  have counts := count_exportNames follow.known
  rw [List.nodup_iff_count_le_one, ← follow.memories]
  constructor
  · intro distinct
    have ofMemory := distinct (quoted "memory")
    rw [counts, if_pos rfl] at ofMemory
    refine ⟨by omega, fun exported both => ?_⟩
    have memory := List.count_pos_iff.mpr exported
    have function := List.count_pos_iff.mpr both
    omega
  · rintro ⟨oneMemory, apart⟩ token
    by_cases member : token ∈ forms.filterMap ModuleForm.exportName?
    · obtain ⟨name, rfl⟩ := follow.quoted_of_mem member
      rw [counts]
      have ofFunction := once name
      split_ifs with same
      · subst same
        by_cases exported : ModuleForm.ofMemory ∈ forms
        · rw [List.count_eq_zero_of_not_mem (apart exported)]
          omega
        · rw [List.count_eq_zero_of_not_mem exported]
          omega
      · omega
    · rw [List.count_eq_zero_of_not_mem member]
      exact Nat.zero_le 1

/-- **What the exports tell** where no function is declared twice. -/
theorem ExportsFollow.exportsTell (follow : ExportsFollow forms)
    (distinct : (forms.filterMap ModuleForm.symbol?).Nodup) : ExportsTell forms := by
  have declaredOnce := count_function_le_one distinct
  have exportedOnce (function : String) : forms.count (.ofFunction function) ≤ 1 :=
    Nat.le_trans (follow.functions function) (declaredOnce _)
  have ofFunction (function : String) (exported : ModuleForm.ofFunction function ∈ forms) :
      forms.count (.ofFunction function) = 1 ∧
        (forms.filterMap ModuleForm.entity?).count ("(func " ++ sigil function ++ ")") = 1 := by
    have some := List.count_pos_iff.mpr exported
    have follows := follow.functions function
    have atMost := declaredOnce (sigil function)
    rw [count_entities_function]
    omega
  refine ⟨follow.known, ofFunction, follow.memories, follow.distinct_iff exportedOnce, ?_⟩
  intro distinctNames name entity member
  rcases follow.known name entity member with same | ⟨function, same⟩
  · obtain ⟨-, rfl⟩ := ModuleForm.exported.inj same
    have some := List.count_pos_iff.mpr (same ▸ member)
    have oneMemory := ((follow.distinct_iff exportedOnce).mp distinctNames).1
    have memories := follow.memories
    rw [count_entities_memory follow.symbols]
    omega
  · obtain ⟨-, rfl⟩ := ModuleForm.exported.inj same
    exact (ofFunction function (same ▸ member)).2

end

end WasmWorkshop
