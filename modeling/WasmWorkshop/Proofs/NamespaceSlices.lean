import Mathlib.Algebra.Ring.Nat
import WasmWorkshop.Proofs.SymbolRules

/-!
# Namespaces do not meet

The slice of a tree for a namespace has the same nodes and the same scopes, and of the symbols only
those of that namespace (`Node.slice`). The check of a tree falls apart into the checks of its five
slices, although it goes through the tree with one table, one stack and one report for all.

The reason is in the rules: what they say of an occurrence depends on the other occurrences of its
own namespace and on no others (`moduleProblem?_slice`, `scopeProblem?_slice`). So the errors in a
slice are those errors in the tree that are about the namespace, in the same order
(`symbolErrors_slice`), and a report that has room for all errors shows them as they are
(`check_eq_slices`).
-/

set_option autoImplicit false

namespace WasmWorkshop

/-! ## Slices -/

mutual

/-- The tree with the marks of all its nodes changed. -/
def Node.remark (change : Marks → Marks) : Node → Node
  | .leaf text marks => .leaf text (change marks)
  | .form header marks => .form header (change marks)
  | .group header children marks => .group header (Node.remarkAll change children) (change marks)
  | .fragment children marks => .fragment (Node.remarkAll change children) (change marks)

/-- The trees with the marks of all their nodes changed. -/
def Node.remarkAll (change : Marks → Marks) : List Node → List Node
  | [] => []
  | node :: rest => node.remark change :: Node.remarkAll change rest

end

/-- The symbols of one namespace, in the same scope. -/
def Marks.slice (space : Namespace) (marks : Marks) : Marks :=
  { marks with symbols := marks.symbols.filter fun symbol => decide (symbol.space = space) }

/-- The trees with the symbols of one namespace, and with all scopes. -/
def Node.slice (space : Namespace) (nodes : List Node) : List Node :=
  Node.remarkAll (Marks.slice space) nodes

/-- The occurrence is of a symbol of the namespace. -/
def Occurrence.isIn (space : Namespace) (occurrence : Occurrence) : Bool :=
  decide (occurrence.symbol.space = space)

theorem Occurrence.isIn_iff {space : Namespace} {occurrence : Occurrence} :
    occurrence.isIn space = true ↔ occurrence.symbol.space = space := decide_eq_true_iff

theorem scopesAt_slice (space : Namespace) (marks : Marks) (place : Place)
    (outer : List PlacedScope) :
    (marks.slice space).scopesAt place outer = marks.scopesAt place outer := rfl

theorem occurrences_slice_marks (space : Namespace) (marks : Marks) (scopes : List PlacedScope) :
    (marks.slice space).occurrences scopes =
      (marks.occurrences scopes).filter (Occurrence.isIn space) := by
  rw [Marks.occurrences, Marks.occurrences, List.filter_map]
  rfl

mutual

theorem occurrencesAt_slice (space : Namespace) (place : Place) (outer : List PlacedScope) :
    ∀ node : Node, (node.remark (Marks.slice space)).occurrencesAt place outer =
      (node.occurrencesAt place outer).filter (Occurrence.isIn space)
  | .leaf _ marks | .form _ marks =>
      occurrences_slice_marks space marks (marks.scopesAt place outer)
  | .group _ children marks | .fragment children marks => by
      have own := occurrences_slice_marks space marks (marks.scopesAt place outer)
      have below := occurrencesBelow_slice space place 0 (marks.scopesAt place outer) children
      simp only [Node.remark, Node.occurrencesAt, scopesAt_slice, own, below, List.filter_append]

theorem occurrencesBelow_slice (space : Namespace) (parent : Place) (index : Nat)
    (outer : List PlacedScope) : ∀ nodes : List Node,
    Node.occurrencesBelow parent index outer (Node.remarkAll (Marks.slice space) nodes) =
      (Node.occurrencesBelow parent index outer nodes).filter (Occurrence.isIn space)
  | [] => rfl
  | node :: rest => by
      rw [Node.remarkAll, Node.occurrencesBelow, Node.occurrencesBelow, List.filter_append,
        occurrencesAt_slice space _ outer node, occurrencesBelow_slice space parent _ outer rest]

end

/-- **The occurrences in a slice are those of its namespace**, in the same order. -/
theorem occurrences_slice (space : Namespace) (nodes : List Node) :
    Node.occurrences (Node.slice space nodes) =
      (Node.occurrences nodes).filter (Occurrence.isIn space) :=
  occurrencesBelow_slice space [] 0 [] nodes

/-! ## The rules look at one namespace -/

section Rules

variable {space : Namespace} {occurrence : Occurrence}

/-- A declaration in a namespace is found in the slice if it is found at all. -/
theorem exists_declares_slice (name : String) (others : List Occurrence)
    (holds : Occurrence → Prop) :
    (∃ other ∈ others.filter (Occurrence.isIn space),
      other.symbol.Declares space name ∧ holds other) ↔
      ∃ other ∈ others, other.symbol.Declares space name ∧ holds other := by
  constructor
  · rintro ⟨other, member, declares, rest⟩
    exact ⟨other, (List.mem_filter.mp member).1, declares, rest⟩
  · rintro ⟨other, member, declares, rest⟩
    have inSlice := List.mem_filter.mpr ⟨member, Occurrence.isIn_iff.mpr declares.2.1⟩
    exact ⟨other, inSlice, declares, rest⟩

theorem exists_declaration_slice (name : String) (others : List Occurrence) :
    (∃ other ∈ others.filter (Occurrence.isIn space), other.symbol.Declares space name) ↔
      ∃ other ∈ others, other.symbol.Declares space name := by
  simpa using exists_declares_slice name others fun _ => True

/-- The last declaration of a function is that in the slice of functions. -/
theorem lastDeclaration?_slice (name : String) (others : List Occurrence) :
    SymbolTable.lastDeclaration?
        ((others.filter (Occurrence.isIn .function)).map Occurrence.symbol) name =
      SymbolTable.lastDeclaration? (others.map Occurrence.symbol) name := by
  rw [SymbolTable.lastDeclaration?, SymbolTable.lastDeclaration?, ← List.map_reverse,
    ← List.map_reverse, ← List.filter_reverse, List.find?_map, List.find?_map, List.find?_filter]
  refine congrArg (Option.map Occurrence.symbol)
    (congrArg (List.find? · others.reverse) (funext fun other => ?_))
  by_cases declares : other.symbol.Declares .function name
  · simp [declares, Occurrence.isIn_iff.mpr declares.2.1]
  · simp [declares]

/-- **Whether a module-level declaration is a second one** depends on its namespace alone. -/
theorem moduleProblem?_slice (here : occurrence.symbol.space = space)
    (earlier : List Occurrence) :
    moduleProblem? (earlier.filter (Occurrence.isIn space)) occurrence =
      moduleProblem? earlier occurrence := by
  subst here
  simp only [moduleProblem?, exists_declaration_slice]

theorem localDeclared_slice (earlier : List Occurrence) :
    occurrence.LocalDeclared (earlier.filter (Occurrence.isIn .localVariable)) ↔
      occurrence.LocalDeclared earlier := by
  rw [Occurrence.LocalDeclared, exists_declares_slice]
  rfl

theorem labelDeclared_slice (earlier : List Occurrence) :
    occurrence.LabelDeclared (earlier.filter (Occurrence.isIn .label)) ↔
      occurrence.LabelDeclared earlier := by
  simp only [Occurrence.LabelDeclared, exists_declares_slice]

/-- **Whether a use is resolved** depends on its namespace alone. -/
theorem scopeProblem?_slice (here : occurrence.symbol.space = space)
    (all earlier : List Occurrence) :
    scopeProblem? (all.filter (Occurrence.isIn space)) (earlier.filter (Occurrence.isIn space))
        occurrence =
      scopeProblem? all earlier occurrence := by
  subst here
  rw [scopeProblem?, scopeProblem?]
  congr 1
  have locals : occurrence.LocalDeclared (earlier.filter (Occurrence.isIn .localVariable)) ↔
      occurrence.LocalDeclared earlier := localDeclared_slice earlier
  have labels : occurrence.LabelDeclared (earlier.filter (Occurrence.isIn .label)) ↔
      occurrence.LabelDeclared earlier := labelDeclared_slice earlier
  obtain ⟨scopes, role, space, name, arity⟩ := occurrence
  cases role with
  | declare =>
      cases space with
      | localVariable => simp only [resolutionProblem?, locals]
      | function | global | table | label => rfl
  | reference =>
      cases space with
      | localVariable => simp only [resolutionProblem?, locals]
      | label => simp only [resolutionProblem?, labels]
      | function => simp only [resolutionProblem?, lastDeclaration?_slice]
      | global | table => simp only [resolutionProblem?, exists_declaration_slice]

end Rules

/-! ### What a diagnostic is about -/

/-- The diagnostics of a rule are about the namespace of the symbol. -/
def IsAboutSymbol (rule : List Occurrence → Occurrence → Option Diagnostic) : Prop :=
  ∀ earlier occurrence diagnostic, rule earlier occurrence = some diagnostic →
    diagnostic.space = occurrence.symbol.space

theorem isAboutSymbol_moduleProblem? : IsAboutSymbol moduleProblem? := by
  intro earlier occurrence diagnostic found
  obtain ⟨-, same⟩ := Option.ite_none_right_eq_some.mp found
  obtain rfl := Option.some.inj same
  rfl

theorem space_locate (occurrence : Occurrence) (diagnostic : Diagnostic) :
    (occurrence.locate diagnostic).space = diagnostic.space := by
  rw [Occurrence.locate]
  split
  · rfl
  · rfl

theorem isAboutSymbol_resolutionProblem? (all : List Occurrence) :
    IsAboutSymbol (resolutionProblem? all) := by
  intro earlier occurrence diagnostic found
  obtain ⟨scopes, role, space, name, arity⟩ := occurrence
  cases role with
  | declare =>
      cases space with
      | localVariable =>
          obtain ⟨-, same⟩ := Option.ite_none_right_eq_some.mp found
          obtain rfl := Option.some.inj same
          rfl
      | function | global | table | label => cases found
  | reference =>
      cases space with
      | localVariable | label | global | table =>
          obtain ⟨-, same⟩ := Option.ite_none_left_eq_some.mp found
          obtain rfl := Option.some.inj same
          rfl
      | function =>
          simp only [resolutionProblem?] at found
          split at found
          · obtain rfl := Option.some.inj found
            rfl
          · split at found
            · obtain ⟨-, same⟩ := Option.ite_none_left_eq_some.mp found
              obtain rfl := Option.some.inj same
              rfl
            · cases found

theorem isAboutSymbol_scopeProblem? (all : List Occurrence) :
    IsAboutSymbol (scopeProblem? all) := by
  intro earlier occurrence diagnostic found
  obtain ⟨unplaced, problem, rfl⟩ := Option.map_eq_some_iff.mp found
  rw [space_locate]
  exact isAboutSymbol_resolutionProblem? all earlier occurrence unplaced problem

/-- **What a rule finds in a slice** is what it finds in all occurrences about that namespace. -/
theorem diagnose_slice {space : Namespace}
    {rule sliced : List Occurrence → Occurrence → Option Diagnostic} (about : IsAboutSymbol rule)
    (agree : ∀ earlier occurrence, occurrence.symbol.space = space →
      sliced (earlier.filter (Occurrence.isIn space)) occurrence = rule earlier occurrence)
    (earlier occurrences : List Occurrence) :
    diagnose sliced (earlier.filter (Occurrence.isIn space))
        (occurrences.filter (Occurrence.isIn space)) =
      (diagnose rule earlier occurrences).filter fun diagnostic =>
        decide (diagnostic.space = space) := by
  induction occurrences generalizing earlier with
  | nil => rfl
  | cons occurrence rest ih =>
      have further := ih (earlier ++ [occurrence])
      rw [List.filter_append] at further
      rw [diagnose, List.filter_append, ← further]
      by_cases here : occurrence.symbol.space = space
      · have inSlice : occurrence.isIn space = true := Occurrence.isIn_iff.mpr here
        have kept : ∀ diagnostic ∈ (rule earlier occurrence).toList,
            decide (diagnostic.space = space) = true := by
          intro diagnostic member
          have found := about earlier occurrence diagnostic (Option.mem_toList.mp member)
          rw [found, here, decide_eq_true rfl]
        rw [List.filter_cons_of_pos inSlice, diagnose, agree earlier occurrence here,
          List.filter_eq_self.mpr kept, List.filter_cons_of_pos inSlice, List.filter_nil]
      · have notInSlice : ¬ occurrence.isIn space = true := fun isIn =>
          here (Occurrence.isIn_iff.mp isIn)
        have dropped : ∀ diagnostic ∈ (rule earlier occurrence).toList,
            ¬ decide (diagnostic.space = space) = true := by
          intro diagnostic member same
          have found := about earlier occurrence diagnostic (Option.mem_toList.mp member)
          exact here (found.symm.trans (of_decide_eq_true same))
        rw [List.filter_cons_of_neg notInSlice, List.filter_eq_nil_iff.mpr dropped,
          List.filter_cons_of_neg notInSlice, List.filter_nil, List.append_nil, List.nil_append]

/-! ## The check of a slice -/

/-- **The errors in a slice are the errors about its namespace**, in the same order. -/
theorem symbolErrors_slice (space : Namespace) (nodes : List Node) :
    symbolErrors (Node.slice space nodes) =
      (symbolErrors nodes).filter fun diagnostic => decide (diagnostic.space = space) := by
  have inModule : ∀ earlier occurrence, occurrence.symbol.space = space →
      moduleProblem? (earlier.filter (Occurrence.isIn space)) occurrence =
        moduleProblem? earlier occurrence := fun earlier _ here => moduleProblem?_slice here earlier
  have inScope : ∀ earlier occurrence, occurrence.symbol.space = space →
      scopeProblem? ((Node.occurrences nodes).filter (Occurrence.isIn space))
          (earlier.filter (Occurrence.isIn space)) occurrence =
        scopeProblem? (Node.occurrences nodes) earlier occurrence :=
    fun earlier _ here => scopeProblem?_slice here (Node.occurrences nodes) earlier
  have first := diagnose_slice isAboutSymbol_moduleProblem? inModule [] (Node.occurrences nodes)
  have second := diagnose_slice (isAboutSymbol_scopeProblem? (Node.occurrences nodes)) inScope []
    (Node.occurrences nodes)
  rw [symbolErrors_eq_diagnose, symbolErrors_eq_diagnose, occurrences_slice, List.filter_append,
    ← first, ← second]
  rfl

/-- All namespaces. -/
def Namespace.all : List Namespace := [.function, .global, .localVariable, .table, .label]

/-- Every diagnostic is about one of the namespaces. -/
theorem length_eq_sum_slices (diagnostics : List Diagnostic) :
    diagnostics.length = (Namespace.all.map fun space =>
      (diagnostics.filter fun diagnostic => decide (diagnostic.space = space)).length).sum := by
  induction diagnostics with
  | nil => rfl
  | cons diagnostic rest ih =>
      rw [List.length_cons, ih]
      cases about : diagnostic.space <;>
        simp [Namespace.all, List.filter_cons, about] <;> omega

/-- **Namespaces do not meet in the check.** A tree is accepted exactly if each of its slices is;
its errors are as many as those of the slices together; and as long as a report has room for all of
them, those about a namespace are exactly the ones that the check of its slice reports, in the same
order. -/
theorem check_eq_slices (nodes : List Node) :
    (checkSymbols nodes = .ok () ↔ ∀ space, checkSymbols (Node.slice space nodes) = .ok ()) ∧
      (reported (checkSymbols nodes)).total = (Namespace.all.map fun space =>
        (reported (checkSymbols (Node.slice space nodes))).total).sum ∧
      ((reported (checkSymbols nodes)).total ≤ 20 → ∀ space,
        ((reported (checkSymbols nodes)).errors.filter fun diagnostic =>
            decide (diagnostic.space = space)) =
          (reported (checkSymbols (Node.slice space nodes))).errors) := by
  refine ⟨?_, ?_, ?_⟩
  · simp only [checkSymbols_eq_ok_iff, symbolErrors_slice, List.filter_eq_nil_iff,
      decide_eq_true_eq]
    constructor
    · intro none space diagnostic member
      rw [none] at member
      cases member
    · intro none
      refine List.eq_nil_iff_forall_not_mem.mpr fun diagnostic member => ?_
      exact none diagnostic.space diagnostic member rfl
  · simp only [reported_checkSymbols, symbolErrors_slice]
    exact length_eq_sum_slices (symbolErrors nodes)
  · intro room space
    rw [reported_checkSymbols] at room ⊢
    have few : ((symbolErrors nodes).filter fun diagnostic =>
        decide (diagnostic.space = space)).length ≤ reportLimit :=
      Nat.le_trans (List.length_filter_le _ _) room
    rw [reported_checkSymbols, symbolErrors_slice]
    simp only [List.take_of_length_le (show _ ≤ reportLimit from room),
      List.take_of_length_le few]

/-- A global, a function and a parameter of one name, and a jump to a label of that name, which is
not there. -/
def sharedName : List Node :=
  [(Node.ofHeader ["global", "$x", "i32"]).declaring .global "x",
    .group ["func", "$x", "(param $x i32)"]
      [(Node.ofHeader ["local.get", "$x"]).referring .localVariable "x",
        (Node.ofText "br $x").referring .label "x"]
      { symbols := [.declaring .function "x", .declaring .localVariable "x"]
        scope := some (.function "x") }]

/-- The one error in it is about the label. -/
theorem check_eq_slices_shared_name :
    (reported (checkSymbols sharedName)).total ≤ 20 ∧
      (reported (checkSymbols (Node.slice .label sharedName))).errors =
        [(Diagnostic.undeclared .label "x").inFunction "x"] := by
  have room : (reported (checkSymbols sharedName)).total ≤ 20 := by decide
  refine ⟨room, ?_⟩
  rw [← (check_eq_slices sharedName).2.2 room .label]
  decide

end WasmWorkshop
