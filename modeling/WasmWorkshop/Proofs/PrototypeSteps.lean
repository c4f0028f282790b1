import Mathlib.Data.Finset.Card
import Mathlib.Data.List.Basic
import WasmWorkshop.Proofs.ScopedText
import WasmWorkshop.Prototype

/-!
# What a prototype is made of

A list of typed names is made by insertions. What they leave is said without a look at the list
before each of them (`TypedNames.Records`): every name that was inserted is there once, the names
stand in the order of their first insertion, and each has the type of its last one. One insertion
keeps such an account (`TypedNames.Records.insert`), so every list has one
(`TypedNames.records_ofList`).

A prototype is made by steps. It depends on four things that can be read off the steps
(`Prototype.ofSteps_eq`): the parameters they name, in order, the locals they name, the last result,
and whether one of them hides the function. Steps that touch different parts can change places, and
a step that names several parameters is as good as steps that name them one by one.
-/

set_option autoImplicit false

namespace WasmWorkshop

/-! ## Ordered lists of typed names -/

namespace TypedNames

/-- What insertions leave. -/
structure Records (names : TypedNames) (inserted : List (String × ValueType)) : Prop where
  /-- The names are those that were inserted, -/
  mem_names : ∀ name, name ∈ names.names ↔ name ∈ inserted.map Prod.fst
  /-- none of them twice, -/
  distinct : names.names.Nodup
  /-- in the order of their first insertion. -/
  ordered : names.names.Pairwise fun earlier later =>
    (inserted.map Prod.fst).idxOf earlier < (inserted.map Prod.fst).idxOf later
  /-- A name has the type of its last insertion, -/
  mem_entries : ∀ name type,
    (name, type) ∈ names.entries ↔ inserted.reverse.lookup name = some type
  /-- which is the one that is found, -/
  get? : ∀ name, names.get? name = inserted.reverse.lookup name
  /-- and there are as many entries as there are different names. -/
  size : names.size = (inserted.map Prod.fst).toFinset.card

theorem map_fst_assign (name : String) (type : ValueType) (entries : List (String × ValueType)) :
    (assign name type entries).map Prod.fst =
      if name ∈ entries.map Prod.fst then entries.map Prod.fst
      else entries.map Prod.fst ++ [name] := by
  induction entries with
  | nil => rfl
  | cons entry rest ih =>
      obtain ⟨known, knownType⟩ := entry
      rw [assign]
      by_cases same : known = name
      · simp [same]
      · have notFirst : name ≠ known := Ne.symm same
        rw [if_neg same, List.map_cons, List.map_cons, ih]
        by_cases present : name ∈ rest.map Prod.fst
        · rw [if_pos present, if_pos (List.mem_cons_of_mem known present)]
        · rw [if_neg present, if_neg (List.not_mem_cons_of_ne_of_not_mem notFirst present),
            List.cons_append]

/-- A name that is there keeps its place; another one is added at the end. -/
theorem names_insert (names : TypedNames) (name : String) (type : ValueType) :
    (names.insert name type).names =
      if name ∈ names.names then names.names else names.names ++ [name] :=
  map_fst_assign name type names.entries

theorem get?_insert (names : TypedNames) (name other : String) (type : ValueType) :
    (names.insert name type).get? other =
      if other = name then some type else names.get? other := by
  obtain ⟨entries⟩ := names
  simp only [insert, TypedNames.get?]
  induction entries with
  | nil =>
      by_cases asked : other = name
      · simp [assign, asked]
      · simp [assign, List.lookup_cons, beq_false_of_ne asked, asked]
  | cons entry rest ih =>
      obtain ⟨known, knownType⟩ := entry
      rw [assign]
      by_cases same : known = name
      · subst same
        by_cases asked : other = known
        · simp [asked]
        · simp [List.lookup_cons, beq_false_of_ne asked, asked]
      · rw [if_neg same, List.lookup_cons, List.lookup_cons, ih]
        by_cases asked : other = known
        · simp [asked, same]
        · simp [beq_false_of_ne asked]

/-- The account of a list that names and types agree with. -/
theorem Records.of_names_of_get? {names : TypedNames} {inserted : List (String × ValueType)}
    (mem_names : ∀ name, name ∈ names.names ↔ name ∈ inserted.map Prod.fst)
    (distinct : names.names.Nodup)
    (ordered : names.names.Pairwise fun earlier later =>
      (inserted.map Prod.fst).idxOf earlier < (inserted.map Prod.fst).idxOf later)
    (get? : ∀ name, names.get? name = inserted.reverse.lookup name) :
    names.Records inserted where
  mem_names := mem_names
  distinct := distinct
  ordered := ordered
  mem_entries name type := by
    rw [← get?]
    exact (lookup_eq_some_iff_mem distinct name type).symm
  get? := get?
  size := by
    have sameNames : names.names.toFinset = (inserted.map Prod.fst).toFinset := by
      ext name
      rw [List.mem_toFinset, List.mem_toFinset, mem_names]
    rw [← sameNames, List.toFinset_card_of_nodup distinct, TypedNames.names, List.length_map,
      TypedNames.size]

theorem records_empty : empty.Records [] :=
  .of_names_of_get? (fun _ => Iff.rfl) .nil .nil fun _ => rfl

/-- **One more insertion.** -/
theorem Records.insert {names : TypedNames} {inserted : List (String × ValueType)}
    (records : names.Records inserted) (name : String) (type : ValueType) :
    (names.insert name type).Records (inserted ++ [(name, type)]) := by
  have get?_after (other : String) : (names.insert name type).get? other =
      (inserted ++ [(name, type)]).reverse.lookup other := by
    rw [get?_insert, List.reverse_append, List.reverse_singleton, List.singleton_append,
      List.lookup_cons, records.get?]
    by_cases asked : other = name
    · simp [asked]
    · simp [beq_false_of_ne asked, asked]
  -- A name that is there was inserted before, so the new insertion is not its first.
  have placeKept (known : String) (member : known ∈ names.names) :
      ((inserted ++ [(name, type)]).map Prod.fst).idxOf known =
        (inserted.map Prod.fst).idxOf known := by
    rw [List.map_append, List.idxOf_append_of_mem ((records.mem_names known).mp member)]
  have ordered : names.names.Pairwise fun earlier later =>
      ((inserted ++ [(name, type)]).map Prod.fst).idxOf earlier <
        ((inserted ++ [(name, type)]).map Prod.fst).idxOf later := by
    refine records.ordered.imp_of_mem fun {earlier later} first second before => ?_
    rwa [placeKept earlier first, placeKept later second]
  by_cases present : name ∈ names.names
  · have sameNames : (names.insert name type).names = names.names := by
      rw [names_insert, if_pos present]
    refine .of_names_of_get? (fun other => ?_) ?_ ?_ get?_after
    · have named := (records.mem_names name).mp present
      rw [sameNames, records.mem_names, List.map_append, List.mem_append]
      refine (or_iff_left_of_imp fun last => ?_).symm
      rwa [List.mem_singleton.mp last]
    · rw [sameNames]
      exact records.distinct
    · rw [sameNames]
      exact ordered
  · have oneMore : (names.insert name type).names = names.names ++ [name] := by
      rw [names_insert, if_neg present]
    have unnamed : name ∉ inserted.map Prod.fst := fun member =>
      present ((records.mem_names name).mpr member)
    refine .of_names_of_get? (fun other => ?_) ?_ ?_ get?_after
    · rw [oneMore, List.map_append, List.mem_append, List.mem_append, records.mem_names]
      rfl
    · rw [oneMore]
      exact records.distinct.append (List.nodup_singleton name)
        (List.disjoint_singleton.mpr present)
    · rw [oneMore, List.pairwise_append]
      refine ⟨ordered, List.pairwise_singleton _ _, ?_⟩
      rintro earlier member later last
      obtain rfl := List.mem_singleton.mp last
      rw [placeKept earlier member, List.map_append, List.idxOf_append_of_notMem unnamed]
      exact Nat.lt_of_lt_of_le (List.idxOf_lt_length_of_mem ((records.mem_names earlier).mp member))
        (Nat.le_add_right _ _)

theorem insertAll_append (names : TypedNames) (first second : List (String × ValueType)) :
    names.insertAll (first ++ second) = (names.insertAll first).insertAll second :=
  List.foldl_append

/-- **Every list of typed names has such an account.** -/
theorem records_ofList (entries : List (String × ValueType)) :
    (ofList entries).Records entries := by
  induction entries using List.reverseRecOn with
  | nil => exact records_empty
  | append_singleton earlier entry ih =>
      rw [ofList, insertAll_append]
      exact ih.insert entry.1 entry.2

example : (ofList [("b", .int), ("a", .long), ("b", .double)]).entries =
    [("b", .double), ("a", .long)] := by decide

end TypedNames

/-! ## Prototypes -/

namespace PrototypeStep

/-- The parameters that a step names. -/
def paramEntries : PrototypeStep → List (String × ValueType)
  | .param name type => [(name, type)]
  | .params entries => entries
  | _ => []

/-- The locals that a step names. -/
def localEntries : PrototypeStep → List (String × ValueType)
  | .localVariable name type => [(name, type)]
  | .localVariables entries => entries
  | _ => []

/-- The result that a step sets. -/
def result? : PrototypeStep → Option ValueType
  | .result type => some type
  | _ => none

end PrototypeStep

open PrototypeStep (paramEntries localEntries result?)

/-- The result that the last step sets which sets one. -/
def lastResult? (steps : List PrototypeStep) : Option ValueType :=
  (steps.filterMap result?).getLast?

/-- Steps that agree in all that a prototype keeps of them. -/
structure SameProjections (first second : List PrototypeStep) : Prop where
  params : first.flatMap paramEntries = second.flatMap paramEntries
  locals : first.flatMap localEntries = second.flatMap localEntries
  result : lastResult? first = lastResult? second
  hidden : .hidden ∈ first ↔ .hidden ∈ second

namespace SameProjections

theorem refl (steps : List PrototypeStep) : SameProjections steps steps := ⟨rfl, rfl, rfl, Iff.rfl⟩

theorem append {first second firstLater secondLater : List PrototypeStep}
    (before : SameProjections first second) (after : SameProjections firstLater secondLater) :
    SameProjections (first ++ firstLater) (second ++ secondLater) where
  params := by rw [List.flatMap_append, List.flatMap_append, before.params, after.params]
  locals := by rw [List.flatMap_append, List.flatMap_append, before.locals, after.locals]
  result := by
    have result_append (left right : List PrototypeStep) :
        lastResult? (left ++ right) = (lastResult? right).or (lastResult? left) := by
      rw [lastResult?, List.filterMap_append, List.getLast?_append, lastResult?, lastResult?]
    rw [result_append, result_append, before.result, after.result]
  hidden := by rw [List.mem_append, List.mem_append, before.hidden, after.hidden]

/-- Parameters named in one step, and one by one. -/
theorem params_one_by_one (entries : List (String × ValueType)) :
    SameProjections [.params entries] (entries.map fun entry => .param entry.1 entry.2) := by
  constructor <;>
    simp [List.flatMap_map, List.filterMap_map, Function.comp_def, lastResult?, paramEntries,
      localEntries, result?]

/-- Locals named in one step, and one by one. -/
theorem locals_one_by_one (entries : List (String × ValueType)) :
    SameProjections [.localVariables entries]
      (entries.map fun entry => .localVariable entry.1 entry.2) := by
  constructor <;>
    simp [List.flatMap_map, List.filterMap_map, Function.comp_def, lastResult?, paramEntries,
      localEntries, result?]

/-- Steps are as good as others wherever they stand. -/
theorem within {first second : List PrototypeStep} (same : SameProjections first second)
    (before after : List PrototypeStep) :
    SameProjections (before ++ first ++ after) (before ++ second ++ after) :=
  ((refl before).append same).append (refl after)

end SameProjections

namespace Prototype

theorem ofSteps_append_singleton (name : String) (steps : List PrototypeStep)
    (step : PrototypeStep) :
    ofSteps name (steps ++ [step]) = (ofSteps name steps).apply step :=
  List.foldl_append

/-- **A prototype is made of four things.** -/
theorem ofSteps_eq (name : String) (steps : List PrototypeStep) :
    ofSteps name steps =
      { name := name
        params := .ofList (steps.flatMap paramEntries)
        locals := .ofList (steps.flatMap localEntries)
        result := lastResult? steps
        exported := decide (.hidden ∉ steps) } := by
  induction steps using List.reverseRecOn with
  | nil => rfl
  | append_singleton earlier step ih =>
      rw [ofSteps_append_singleton, ih]
      cases step <;>
        simp [apply, lastResult?, paramEntries, localEntries, result?, TypedNames.ofList,
          TypedNames.insertAll]

theorem ofSteps_congr (name : String) {first second : List PrototypeStep}
    (same : SameProjections first second) : ofSteps name first = ofSteps name second := by
  simp only [ofSteps_eq, same.params, same.locals, same.result, same.hidden]

end Prototype

/-- **Typed names and prototypes as accounts of what they were made by.** -/
theorem prototype_projections :
    (∀ entries, (TypedNames.ofList entries).Records entries) ∧
      (∀ name steps, Prototype.ofSteps name steps =
        { name := name
          params := .ofList (steps.flatMap paramEntries)
          locals := .ofList (steps.flatMap localEntries)
          result := lastResult? steps
          exported := decide (.hidden ∉ steps) }) ∧
      (∀ name first second, SameProjections first second →
        Prototype.ofSteps name first = Prototype.ofSteps name second) ∧
      ∀ name before entries after,
        Prototype.ofSteps name (before ++ [.params entries] ++ after) =
            Prototype.ofSteps name
              (before ++ entries.map (fun entry => .param entry.1 entry.2) ++ after) ∧
          Prototype.ofSteps name (before ++ [.localVariables entries] ++ after) =
            Prototype.ofSteps name
              (before ++ entries.map (fun entry => .localVariable entry.1 entry.2) ++ after) := by
  refine ⟨TypedNames.records_ofList, Prototype.ofSteps_eq,
    fun name _ _ => Prototype.ofSteps_congr name, fun name before entries after => ⟨?_, ?_⟩⟩
  · exact Prototype.ofSteps_congr name
      ((SameProjections.params_one_by_one entries).within before after)
  · exact Prototype.ofSteps_congr name
      ((SameProjections.locals_one_by_one entries).within before after)

/-- The same parts in another order, and with a result and a type that are given up again. -/
theorem prototype_projections_reordered :
    let first : List PrototypeStep :=
      [.hidden, .params [("b", .int), ("a", .long), ("b", .double)], .result .long,
        .localVariable "t" .int, .result .int]
    let second : List PrototypeStep :=
      [.param "b" .int, .localVariables [("t", .int)], .result .long, .param "a" .long,
        .result .int, .param "b" .double, .hidden, .hidden]
    SameProjections first second ∧ Prototype.ofSteps "f" first = Prototype.ofSteps "f" second := by
  intro first second
  have same : SameProjections first second :=
    ⟨by decide, by decide, by decide, by decide⟩
  obtain ⟨-, -, congr, -⟩ := prototype_projections
  exact ⟨same, congr "f" first second same⟩

end WasmWorkshop
