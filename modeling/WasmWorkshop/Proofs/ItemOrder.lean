import Mathlib.Data.List.Nodup
import WasmWorkshop.Proofs.ItemWalks

/-!
# The order of items does not matter

The items of a module may be put in another order, on the top level or inside of a group without a
scope such as the module itself (`Reordered`). The first reading then finds the same duplicates in
another order (`duplicates_perm`): of several declarations of one name it is always the first that
passes, whichever that is, and the diagnostics of the others are alike. The second reading finds in
each item what it found before, as long as it meets the same table.

The table is the same up to one thing. The arity of a function is that of its last declaration, so
it may change with the order if there are two. That is why the counts are compared only for modules
without two functions of one name, while acceptance needs no such condition: a module with two of
them is rejected in any order (`check_reordered`).
-/

set_option autoImplicit false

namespace WasmWorkshop

/-! ## The first reading -/

/-- Two tables that declare the same names. -/
def SymbolTable.SameNames (table other : SymbolTable) : Prop :=
  ∀ space name, table.declares space name = other.declares space name

namespace SymbolTable

variable {table other : SymbolTable}

namespace SameNames

theorem refl (table : SymbolTable) : table.SameNames table := fun _ _ => rfl

theorem enter (same : table.SameNames other) (symbol : SymbolUse) :
    (table.enter symbol).SameNames (other.enter symbol) := by
  intro space name
  by_cases moduleLevel : space.IsModuleLevel
  · rw [Bool.eq_iff_iff, declares_enter table symbol moduleLevel,
      declares_enter other symbol moduleLevel, same space name]
  · rw [declares_eq_false _ moduleLevel, declares_eq_false _ moduleLevel]

/-- Which of two uses comes first makes no difference to the names in the table. -/
theorem enter_comm (same : table.SameNames other) (first second : SymbolUse) :
    ((table.enter first).enter second).SameNames ((other.enter second).enter first) := by
  intro space name
  by_cases moduleLevel : space.IsModuleLevel
  · rw [Bool.eq_iff_iff, declares_enter _ second moduleLevel, declares_enter _ first moduleLevel,
      declares_enter _ first moduleLevel, declares_enter _ second moduleLevel, same space name,
      or_right_comm]
  · rw [declares_eq_false _ moduleLevel, declares_eq_false _ moduleLevel]

end SameNames

theorem duplicate?_congr {symbol : SymbolUse}
    (same : table.declares symbol.space symbol.name = other.declares symbol.space symbol.name) :
    table.duplicate? symbol = other.duplicate? symbol := by
  rw [duplicate?, duplicate?, same]

/-- Whether two uses declare one name of the module. -/
def Clash (first second : SymbolUse) : Prop :=
  second.role = .declare ∧ second.space.IsModuleLevel ∧ first.Declares second.space second.name

theorem Clash.symm {first second : SymbolUse} (clash : Clash first second) :
    Clash second first := by
  obtain ⟨declaration, moduleLevel, firstDeclares, space, name⟩ := clash
  exact ⟨firstDeclares, space ▸ moduleLevel, declaration, space.symm, name.symm⟩

/-- A declaration that clashes with the one before it comes too late. -/
theorem duplicate?_enter_of_clash (table : SymbolTable) {first second : SymbolUse}
    (clash : Clash first second) :
    (table.enter first).duplicate? second = some (.duplicate second.space second.name) := by
  obtain ⟨declaration, moduleLevel, declares⟩ := clash
  have known : (table.enter first).declares second.space second.name = true :=
    (declares_enter table first moduleLevel second.name).mpr (.inr declares)
  rw [duplicate?, declaration, known]
  rfl

/-- A use that clashes with no other one is judged as if the other were not there. -/
theorem duplicate?_enter_of_not_clash (table : SymbolTable) {first second : SymbolUse}
    (apart : ¬ Clash first second) :
    (table.enter first).duplicate? second = table.duplicate? second := by
  cases role : second.role with
  | reference => rw [duplicate?, duplicate?, role]
  | declare =>
      refine duplicate?_congr ?_
      by_cases moduleLevel : second.space.IsModuleLevel
      · rw [Bool.eq_iff_iff, declares_enter table first moduleLevel]
        exact or_iff_left fun declares => apart ⟨role, moduleLevel, declares⟩
      · rw [declares_eq_false _ moduleLevel, declares_eq_false _ moduleLevel]

/-- **Two uses in either order** are refused alike. If they declare one name it is the later one
that is refused, whichever that is. -/
theorem duplicates_swap (same : table.SameNames other) (first second : SymbolUse) :
    ((table.duplicate? first).toList ++ ((table.enter first).duplicate? second).toList).Perm
      ((other.duplicate? second).toList ++ ((other.enter second).duplicate? first).toList) := by
  by_cases clash : Clash first second
  · have later := duplicate?_enter_of_clash table clash
    have laterBack := duplicate?_enter_of_clash other clash.symm
    obtain ⟨declaration, -, firstDeclares, space, name⟩ := clash
    have alike : table.duplicate? first = other.duplicate? second := by
      rw [duplicate?, duplicate?, declaration, firstDeclares, space, name, same]
    rw [later, laterBack, alike, space, name]
  · have firstApart : ¬ Clash second first := fun back => clash back.symm
    rw [duplicate?_enter_of_not_clash table clash, duplicate?_enter_of_not_clash other firstApart,
      duplicate?_congr (same first.space first.name),
      duplicate?_congr (same second.space second.name)]
    exact List.perm_append_comm

theorem duplicates_congr (same : table.SameNames other) (symbols : List SymbolUse) :
    table.duplicates symbols = other.duplicates symbols := by
  induction symbols generalizing table other with
  | nil => rfl
  | cons symbol rest ih =>
      rw [duplicates, duplicates, duplicate?_congr (same symbol.space symbol.name),
        ih (same.enter symbol)]

/-- **The first reading finds the same in any order**, though in another one. -/
theorem duplicates_perm {first second : List SymbolUse} (perm : first.Perm second)
    (same : table.SameNames other) :
    (table.duplicates first).Perm (other.duplicates second) := by
  induction perm generalizing table other with
  | nil => exact .nil
  | cons symbol _ ih =>
      rw [duplicates, duplicates, duplicate?_congr (same symbol.space symbol.name)]
      exact (ih (same.enter symbol)).append_left _
  | swap later earlier rest =>
      rw [duplicates, duplicates, duplicates, duplicates, ← List.append_assoc,
        ← List.append_assoc, duplicates_congr (same.enter_comm earlier later) rest]
      exact (duplicates_swap same earlier later).append_right _
  | trans _ _ left right => exact (left (.refl table)).trans (right same)

/-! ## The table -/

/-- The table has the same names whatever the order. -/
theorem declares_enterAll_perm {first second : List SymbolUse} (perm : first.Perm second)
    (space : Namespace) (name : String) :
    (empty.enterAll first).declares space name = (empty.enterAll second).declares space name := by
  by_cases moduleLevel : space.IsModuleLevel
  · rw [Bool.eq_iff_iff, declares_enterAll empty first moduleLevel,
      declares_enterAll empty second moduleLevel]
    simp only [perm.mem_iff]
  · rw [declares_eq_false _ moduleLevel, declares_eq_false _ moduleLevel]

/-- The last declaration of a name is one of its declarations. -/
theorem mem_and_declares_of_lastDeclaration? {symbols : List SymbolUse} {name : String}
    {symbol : SymbolUse} (found : lastDeclaration? symbols name = some symbol) :
    symbol ∈ symbols ∧ symbol.Declares .function name := by
  rw [lastDeclaration?, List.find?_eq_some_iff_append] at found
  obtain ⟨declares, after, before, split, -⟩ := found
  have member : symbol ∈ symbols.reverse := by
    rw [split]
    exact List.mem_append_right _ List.mem_cons_self
  exact ⟨List.mem_reverse.mp member, of_decide_eq_true declares⟩

/-- Where no function is declared twice, the last declaration of a name is the only one. -/
theorem lastDeclaration?_eq_some_iff {symbols : List SymbolUse}
    (distinct : (declaredNames .function symbols).Nodup) {name : String} {symbol : SymbolUse} :
    lastDeclaration? symbols name = some symbol ↔
      symbol ∈ symbols ∧ symbol.Declares .function name := by
  refine ⟨mem_and_declares_of_lastDeclaration?, ?_⟩
  rintro ⟨member, declares⟩
  have present : (lastDeclaration? symbols name).isSome := by
    rw [lastDeclaration?, List.find?_isSome]
    exact ⟨symbol, List.mem_reverse.mpr member, decide_eq_true declares⟩
  obtain ⟨other, found⟩ := Option.isSome_iff_exists.mp present
  obtain ⟨otherMember, otherDeclares⟩ := mem_and_declares_of_lastDeclaration? found
  have same : other = symbol := by
    refine List.inj_on_of_nodup_map distinct (List.mem_filter.mpr ⟨otherMember, ?_⟩)
      (List.mem_filter.mpr ⟨member, ?_⟩) (otherDeclares.2.2.trans declares.2.2.symm)
    · exact decide_eq_true ⟨otherDeclares.1, otherDeclares.2.1⟩
    · exact decide_eq_true ⟨declares.1, declares.2.1⟩
  rw [found, same]

theorem declaredNames_perm (space : Namespace) {first second : List SymbolUse}
    (perm : first.Perm second) :
    (declaredNames space first).Perm (declaredNames space second) :=
  (perm.filter _).map _

/-- **The table tells the same whatever the order**, as long as no function is declared twice. -/
theorem agreeAt_enterAll_perm {first second : List SymbolUse} (perm : first.Perm second)
    (distinct : (declaredNames .function first).Nodup) (space : Namespace) (name : String) :
    (empty.enterAll first).AgreeAt (empty.enterAll second) space name := by
  refine ⟨declares_enterAll_perm perm space name, fun _ => ?_⟩
  have distinctSecond : (declaredNames .function second).Nodup :=
    (declaredNames_perm .function perm).nodup_iff.mp distinct
  have same : lastDeclaration? first name = lastDeclaration? second name := by
    refine Option.ext fun symbol => ?_
    rw [lastDeclaration?_eq_some_iff distinct, lastDeclaration?_eq_some_iff distinctSecond,
      perm.mem_iff]
  rw [lookup_enterAll, lookup_enterAll, same]

end SymbolTable

/-! ## Items in another order -/

/-- The items in another order, or those in a group or a fragment without a scope. -/
inductive Reordered : List Node → List Node → Prop where
  | items {first second : List Node} (perm : first.Perm second) : Reordered first second
  | inGroup (before after : List Node) (header : List String) {marks : Marks}
      (unscoped : marks.scope = none) {first second : List Node} (perm : first.Perm second) :
      Reordered (before ++ .group header first marks :: after)
        (before ++ .group header second marks :: after)
  | inFragment (before after : List Node) {marks : Marks} (unscoped : marks.scope = none)
      {first second : List Node} (perm : first.Perm second) :
      Reordered (before ++ .fragment first marks :: after)
        (before ++ .fragment second marks :: after)

theorem Node.uses_eq_flatMap (nodes : List Node) :
    Node.uses nodes = nodes.flatMap fun node => node.marks.symbols ++ Node.uses node.children := by
  induction nodes with
  | nil => rfl
  | cons node rest ih => rw [Node.uses_cons, ih, List.flatMap_cons]

/-- What the two readings see of two lists of items that differ in their order. -/
structure ReadAlike (first second : List Node) : Prop where
  uses : (Node.uses first).Perm (Node.uses second)
  errors : ∀ table : SymbolTable,
    (resolutionErrors table .empty (Node.trails first)).Perm
      (resolutionErrors table .empty (Node.trails second))

namespace ReadAlike

theorem of_perm {first second : List Node} (perm : first.Perm second) :
    ReadAlike first second := by
  constructor
  · rw [Node.uses_eq_flatMap, Node.uses_eq_flatMap]
    exact perm.flatMap_right _
  · intro table
    rw [resolutionErrors_trails, resolutionErrors_trails]
    exact perm.flatMap_right _

/-- One node in place of another one that holds the same children in another order. -/
theorem within (before after : List Node) {node other : Node} (sameMarks : node.marks = other.marks)
    (unscoped : node.marks.scope = none) (perm : node.children.Perm other.children) :
    ReadAlike (before ++ node :: after) (before ++ other :: after) := by
  have inside := of_perm perm
  constructor
  · rw [Node.uses_append, Node.uses_append, Node.uses_cons, Node.uses_cons, sameMarks]
    exact (((inside.uses.append_left _).append_right _).append_left _)
  · intro table
    simp only [resolutionErrors_trails, List.flatMap_append, List.flatMap_cons]
    rw [resolutionErrors_unscoped table unscoped,
      resolutionErrors_unscoped table (sameMarks ▸ unscoped), sameMarks]
    exact ((((inside.errors table).append_left _).append_right _).append_left _)

theorem of_reordered {first second : List Node} (reordered : Reordered first second) :
    ReadAlike first second := by
  cases reordered with
  | items perm => exact of_perm perm
  | inGroup before after header unscoped perm => exact within before after rfl unscoped perm
  | inFragment before after unscoped perm => exact within before after rfl unscoped perm

/-- **All errors are found in either order**, as long as no function is declared twice. -/
theorem symbolErrors_perm {first second : List Node} (alike : ReadAlike first second)
    (distinct : (declaredNames .function (Node.uses first)).Nodup) :
    (symbolErrors first).Perm (symbolErrors second) := by
  have duplicates := SymbolTable.duplicates_perm alike.uses (.refl .empty)
  have agree := SymbolTable.agreeAt_enterAll_perm alike.uses distinct
  have resolution := alike.errors (SymbolTable.empty.enterAll (Node.uses first))
  rw [resolutionErrors_congr agree .empty (Node.trails second)] at resolution
  exact duplicates.append resolution

end ReadAlike

/-- What is accepted declares no function twice. -/
theorem functions_nodup_of_accepted {nodes : List Node} (accepted : checkSymbols nodes = .ok ()) :
    (declaredNames .function (Node.uses nodes)).Nodup := by
  have none := (checkSymbols_eq_ok_iff nodes).mp accepted
  obtain ⟨noDuplicates, -⟩ := List.append_eq_nil_iff.mp none
  exact (duplicates_empty_eq_nil_iff _).mp noDuplicates .function (.inl rfl)

/-- **The order of items does not matter.** In another order the items are accepted exactly if they
were; and if no function is declared twice, there are as many errors, and a report that has room for
all of them lists the same ones. -/
theorem check_reordered {first second : List Node} (reordered : Reordered first second) :
    (checkSymbols first = .ok () ↔ checkSymbols second = .ok ()) ∧
      ((declaredNames .function (Node.uses first)).Nodup →
        (reported (checkSymbols first)).total = (reported (checkSymbols second)).total ∧
          ((reported (checkSymbols first)).total ≤ 20 →
            (reported (checkSymbols first)).errors.Perm
              (reported (checkSymbols second)).errors)) := by
  have alike := ReadAlike.of_reordered reordered
  refine ⟨⟨?_, ?_⟩, ?_⟩
  · intro accepted
    have errors := alike.symbolErrors_perm (functions_nodup_of_accepted accepted)
    rw [checkSymbols_eq_ok_iff] at accepted ⊢
    rw [accepted] at errors
    exact List.nil_perm.mp errors
  · intro accepted
    have distinct := (SymbolTable.declaredNames_perm .function alike.uses).nodup_iff.mpr
      (functions_nodup_of_accepted accepted)
    have errors := alike.symbolErrors_perm distinct
    rw [checkSymbols_eq_ok_iff] at accepted ⊢
    rw [accepted] at errors
    exact List.perm_nil.mp errors
  · intro distinct
    have errors := alike.symbolErrors_perm distinct
    simp only [reported_checkSymbols]
    refine ⟨errors.length_eq, fun room => ?_⟩
    have roomSecond : (symbolErrors second).length ≤ reportLimit := errors.length_eq ▸ room
    rw [List.take_of_length_le (show _ ≤ reportLimit from room),
      List.take_of_length_le roomSecond]
    exact errors

/-- A function with the given number of parameters. -/
def importOfArity (arity : Nat) : Node :=
  (Node.ofHeader ["import", "\"env\"", "\"tick\"", "(func $tick)"]).withSymbol
    ((SymbolUse.declaring .function "tick").withArity arity)

/-- A call of it without arguments. -/
def callOfTick : Node :=
  (Node.ofGroup ["call", "$tick"] []).withSymbol
    ((SymbolUse.referring .function "tick").withArity 0)

/-- A call before the import that it does not fit, and a global that is nowhere. -/
def callBeforeImport : List Node :=
  [callOfTick, importOfArity 1, (Node.ofHeader ["global.get", "$g"]).referring .global "g"]

/-- In a module the two errors are reported whichever way round the items stand. -/
theorem check_reordered_call_before_import :
    Reordered [.ofGroup ["module"] callBeforeImport]
        [.ofGroup ["module"] callBeforeImport.reverse] ∧
      (declaredNames .function (Node.uses [.ofGroup ["module"] callBeforeImport])).Nodup ∧
      (reported (checkSymbols [.ofGroup ["module"] callBeforeImport])).total ≤ 20 ∧
      (reported (checkSymbols [.ofGroup ["module"] callBeforeImport])).errors.Perm
        (reported (checkSymbols [.ofGroup ["module"] callBeforeImport.reverse])).errors := by
  have reordered : Reordered [.ofGroup ["module"] callBeforeImport]
      [.ofGroup ["module"] callBeforeImport.reverse] :=
    .inGroup [] [] ["module"] rfl (List.reverse_perm callBeforeImport).symm
  have distinct :
      (declaredNames .function (Node.uses [.ofGroup ["module"] callBeforeImport])).Nodup := by
    decide
  have room : (reported (checkSymbols [.ofGroup ["module"] callBeforeImport])).total ≤ 20 := by
    decide
  exact ⟨reordered, distinct, room, ((check_reordered reordered).2 distinct).2 room⟩

/-- Two functions of one name are held against calls by the later one, so the order shows in the
number of errors. -/
example :
    (reported (checkSymbols [importOfArity 0, importOfArity 1, callOfTick])).total = 2 ∧
      (reported (checkSymbols [importOfArity 1, importOfArity 0, callOfTick])).total = 1 := by
  decide

end WasmWorkshop
