import Mathlib.Data.List.Nodup
import WasmWorkshop.Proofs.ItemWalks

/-!
# Accepted modules link

Two lists of items that are accepted on their own may be put one after the other. The walk through
the second list starts from an empty stack, as it does when the list stands alone, so no local and
no label reaches over the seam; names of locals, of labels and of the functions that scopes belong
to may coincide. The table grows, and it tells of each name that one of the two declares what the
table of that one tells (`SymbolTable.agreeAt_left`, `SymbolTable.agreeAt_right`), unless the name
is declared in both. Such a name is the only thing that can be wrong with the whole
(`check_append_iff`).
-/

set_option autoImplicit false

namespace WasmWorkshop

namespace SymbolTable

/-! ## The table of the whole -/

/-- The last declaration in the whole is that in the second part, if there is one. -/
theorem lastDeclaration?_append (first second : List SymbolUse) (name : String) :
    lastDeclaration? (first ++ second) name =
      (lastDeclaration? second name).or (lastDeclaration? first name) := by
  rw [lastDeclaration?, List.reverse_append, List.find?_append]
  rfl

theorem isSome_lastDeclaration? (symbols : List SymbolUse) (name : String) :
    (lastDeclaration? symbols name).isSome ↔ name ∈ declaredNames .function symbols := by
  rw [lastDeclaration?, List.find?_isSome, mem_declaredNames]
  simp only [List.mem_reverse, decide_eq_true_eq]

/-- What a part declares is declared in the whole. -/
theorem declares_of_subset {part whole : List SymbolUse} (subset : part ⊆ whole)
    {space : Namespace} {name : String}
    (declared : (empty.enterAll part).declares space name = true) :
    (empty.enterAll whole).declares space name = true := by
  by_cases moduleLevel : space.IsModuleLevel
  · rw [declares_enterAll empty _ moduleLevel, declares_empty] at declared ⊢
    obtain impossible | ⟨symbol, member, declares⟩ := declared
    · cases impossible
    · exact .inr ⟨symbol, subset member, declares⟩
  · rw [declares_eq_false _ moduleLevel] at declared
    cases declared

/-- **Of what the first part declares** the whole tells the same, if the second part declares no
function of that name. -/
theorem agreeAt_left {first second : List SymbolUse}
    (apart : (declaredNames .function first).Disjoint (declaredNames .function second))
    {space : Namespace} {name : String}
    (declared : (empty.enterAll first).declares space name = true) :
    (empty.enterAll first).AgreeAt (empty.enterAll (first ++ second)) space name := by
  refine ⟨?_, ?_⟩
  · rw [declared, declares_of_subset (List.subset_append_left first second) declared]
  · rintro rfl
    have inFirst : name ∈ declaredNames .function first := by
      rwa [declares_function, lookup_enterAll, Option.isSome_map, isSome_lastDeclaration?]
        at declared
    have notInSecond : lastDeclaration? second name = none := by
      rw [← Option.not_isSome_iff_eq_none, isSome_lastDeclaration?]
      exact apart inFirst
    rw [lookup_enterAll, lookup_enterAll, lastDeclaration?_append, notInSecond, Option.none_or]

/-- **Of what the second part declares** the whole tells the same. -/
theorem agreeAt_right (first : List SymbolUse) {second : List SymbolUse} {space : Namespace}
    {name : String} (declared : (empty.enterAll second).declares space name = true) :
    (empty.enterAll second).AgreeAt (empty.enterAll (first ++ second)) space name := by
  refine ⟨?_, ?_⟩
  · rw [declared, declares_of_subset (List.subset_append_right first second) declared]
  · rintro rfl
    rw [declares_function, lookup_enterAll, Option.isSome_map] at declared
    obtain ⟨symbol, found⟩ := Option.isSome_iff_exists.mp declared
    rw [lookup_enterAll, lookup_enterAll, lastDeclaration?_append, found, Option.some_or]

end SymbolTable

/-! ## The check of the whole -/

/-- The names that two lists declare are apart in each namespace of the module. -/
def DeclareApart (first second : List Node) : Prop :=
  ∀ space : Namespace, space.IsModuleLevel →
    (declaredNames space (Node.uses first)).Disjoint (declaredNames space (Node.uses second))

/-- The first reading of the whole finds nothing exactly if it finds nothing in either part and
the parts declare no name in common. -/
theorem duplicates_append_eq_nil_iff (first second : List Node) :
    SymbolTable.empty.duplicates (Node.uses (first ++ second)) = [] ↔
      SymbolTable.empty.duplicates (Node.uses first) = [] ∧
        SymbolTable.empty.duplicates (Node.uses second) = [] ∧ DeclareApart first second := by
  simp only [duplicates_empty_eq_nil_iff, Node.uses_append, declaredNames_append,
    List.nodup_append', DeclareApart]
  constructor
  · intro distinct
    exact ⟨fun space level => (distinct space level).1,
      fun space level => (distinct space level).2.1,
      fun space level => (distinct space level).2.2⟩
  · rintro ⟨left, right, apart⟩ space level
    exact ⟨left space level, right space level, apart space level⟩

/-- The second reading of the whole reads both parts, each from an empty stack. -/
theorem resolutionErrors_append_trails (table : SymbolTable) (first second : List Node) :
    resolutionErrors table .empty (Node.trails (first ++ second)) =
      resolutionErrors table .empty (Node.trails first) ++
        resolutionErrors table .empty (Node.trails second) := by
  rw [Node.trails_append, resolutionErrors_append, (keepsScopes_trails first).afterAll_empty]

/-- **Accepted modules link** exactly if no function, no global and no table has a declaration in
both. -/
theorem check_append_iff {first second : List Node} (firstAccepted : checkSymbols first = .ok ())
    (secondAccepted : checkSymbols second = .ok ()) :
    checkSymbols (first ++ second) = .ok () ↔ DeclareApart first second := by
  rw [checkSymbols_eq_ok_iff] at firstAccepted secondAccepted ⊢
  obtain ⟨firstDistinct, firstResolved⟩ := List.append_eq_nil_iff.mp firstAccepted
  obtain ⟨secondDistinct, secondResolved⟩ := List.append_eq_nil_iff.mp secondAccepted
  constructor
  · intro accepted
    obtain ⟨distinct, -⟩ := List.append_eq_nil_iff.mp accepted
    exact ((duplicates_append_eq_nil_iff first second).mp distinct).2.2
  · intro apart
    have distinct := (duplicates_append_eq_nil_iff first second).mpr
      ⟨firstDistinct, secondDistinct, apart⟩
    have functionsApart := apart .function (.inl rfl)
    refine List.append_eq_nil_iff.mpr ⟨distinct, ?_⟩
    rw [resolutionErrors_append_trails, Node.uses_append, List.append_eq_nil_iff]
    constructor
    · exact resolutionErrors_eq_nil_of_agreeAt
        (fun _ _ => SymbolTable.agreeAt_left functionsApart) firstResolved
    · exact resolutionErrors_eq_nil_of_agreeAt
        (fun _ _ => SymbolTable.agreeAt_right (Node.uses first)) secondResolved

/-- A function with a local and a block. Whatever it is called, its scope is that of `run`. -/
def looping (name : String) : Node :=
  .group ["func", "$" ++ name, "(local $i i32)"]
    [.group ["block", "$out"]
      [(Node.ofHeader ["local.get", "$i"]).referring .localVariable "i",
        (Node.ofText "br $out").referring .label "out"]
      { symbols := [.declaring .label "out"], scope := some .label }]
    { symbols := [.declaring .function name, .declaring .localVariable "i"]
      scope := some (.function "run") }

/-- Two functions whose locals, labels and scopes have the same names. -/
theorem check_append_iff_same_locals :
    checkSymbols [looping "first"] = .ok () ∧ checkSymbols [looping "second"] = .ok () ∧
      DeclareApart [looping "first"] [looping "second"] ∧
      checkSymbols ([looping "first"] ++ [looping "second"]) = .ok () := by
  have firstAccepted : checkSymbols [looping "first"] = .ok () := by decide
  have secondAccepted : checkSymbols [looping "second"] = .ok () := by decide
  have apart : DeclareApart [looping "first"] [looping "second"] := by
    intro space moduleLevel
    rw [List.disjoint_iff_ne]
    rcases moduleLevel with rfl | rfl | rfl <;> decide
  exact ⟨firstAccepted, secondAccepted, apart,
    (check_append_iff firstAccepted secondAccepted).mpr apart⟩

end WasmWorkshop
