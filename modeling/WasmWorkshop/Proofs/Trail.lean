import Mathlib.Data.List.Induction
import WasmWorkshop.SymbolCheck

/-!
# Reading a trail in pieces

The symbol check goes through a flat trail, so what its second reading finds in two trails one after
the other is what it finds in the first and then, from where the first leaves off, in the second
(`resolutionErrors_append`).

What the table holds after the first reading is said here without the reading: a name is in it
exactly if some use declares it (`SymbolTable.declares_enterAll`), and the arity that goes with the
name of a function is that of its last declaration (`SymbolTable.lookup_enterAll`). The first
reading finds nothing exactly if no name is declared twice (`duplicates_eq_nil_iff`). A report keeps
the beginning of what was found and counts all of it (`Report.ofList_eq`).
-/

set_option autoImplicit false

namespace WasmWorkshop

/-! ## Trails of trees and of lists of trees -/

namespace Node

theorem trail_eq (node : Node) : node.trail = node.marks.enclose (Node.trails node.children) := by
  cases node <;> simp [Node.trail, Node.marks, Node.children, Node.trails]

@[simp] theorem trails_nil : Node.trails [] = [] := rfl

@[simp] theorem trails_cons (node : Node) (rest : List Node) :
    Node.trails (node :: rest) = node.trail ++ Node.trails rest := rfl

theorem trails_append (first second : List Node) :
    Node.trails (first ++ second) = Node.trails first ++ Node.trails second := by
  induction first with
  | nil => rfl
  | cons node rest ih => simp [ih]

/-- The symbols on a trail that a scope encloses are those of the node and then the inner ones. -/
theorem symbols_enclose (marks : Marks) (inner : List TrailStep) :
    (marks.enclose inner).filterMap TrailStep.symbol? =
      marks.symbols ++ inner.filterMap TrailStep.symbol? := by
  have own : (marks.symbols.map TrailStep.use).filterMap TrailStep.symbol? = marks.symbols := by
    induction marks.symbols with
    | nil => rfl
    | cons symbol rest ih => simp [TrailStep.symbol?, ih]
  cases h : marks.scope with
  | none => simp [Marks.enclose, h, own]
  | some scope =>
      simp only [Marks.enclose, h]
      rw [List.filterMap_cons_none rfl, List.filterMap_append, List.filterMap_append, own]
      simp [TrailStep.symbol?]

@[simp] theorem uses_nil : Node.uses [] = [] := rfl

theorem uses_cons (node : Node) (rest : List Node) :
    Node.uses (node :: rest) = node.marks.symbols ++ Node.uses node.children ++ Node.uses rest := by
  simp [Node.uses, Node.trail_eq node, symbols_enclose]

theorem uses_append (first second : List Node) :
    Node.uses (first ++ second) = Node.uses first ++ Node.uses second := by
  simp [Node.uses, trails_append]

end Node

/-! ## The first reading -/

/-- A declaration of a name in a namespace. -/
def SymbolUse.Declares (symbol : SymbolUse) (space : Namespace) (name : String) : Prop :=
  symbol.role = .declare ∧ symbol.space = space ∧ symbol.name = name

instance (symbol : SymbolUse) (space : Namespace) (name : String) :
    Decidable (symbol.Declares space name) :=
  inferInstanceAs (Decidable (_ ∧ _ ∧ _))

/-- The namespaces of a module: their names may be used before they are declared. -/
def Namespace.IsModuleLevel (space : Namespace) : Prop :=
  space = .function ∨ space = .global ∨ space = .table

instance (space : Namespace) : Decidable space.IsModuleLevel :=
  inferInstanceAs (Decidable (_ ∨ _ ∨ _))

namespace SymbolTable

theorem enterAll_append (table : SymbolTable) (first second : List SymbolUse) :
    table.enterAll (first ++ second) = (table.enterAll first).enterAll second :=
  List.foldl_append

@[simp] theorem enterAll_nil (table : SymbolTable) : table.enterAll [] = table := rfl

@[simp] theorem enterAll_cons (table : SymbolTable) (symbol : SymbolUse)
    (rest : List SymbolUse) :
    table.enterAll (symbol :: rest) = (table.enter symbol).enterAll rest := rfl

@[simp] theorem declares_function (table : SymbolTable) (name : String) :
    table.declares .function name = (table.functions.lookup name).isSome := rfl

@[simp] theorem declares_global (table : SymbolTable) (name : String) :
    table.declares .global name = true ↔ name ∈ table.globals := decide_eq_true_iff

@[simp] theorem declares_table (table : SymbolTable) (name : String) :
    table.declares .table name = true ↔ name ∈ table.tables := decide_eq_true_iff

/-- One use adds at most the name that it declares. -/
theorem declares_enter (table : SymbolTable) (symbol : SymbolUse) {space : Namespace}
    (moduleLevel : space.IsModuleLevel) (name : String) :
    (table.enter symbol).declares space name = true ↔
      table.declares space name = true ∨ symbol.Declares space name := by
  obtain ⟨role, symbolSpace, symbolName, arity⟩ := symbol
  cases role with
  | reference => simp [enter, SymbolUse.Declares]
  | declare =>
      by_cases same : symbolName = name
      · subst same
        rcases moduleLevel with rfl | rfl | rfl <;> cases symbolSpace <;>
          simp [enter, add, SymbolUse.Declares]
      · rcases moduleLevel with rfl | rfl | rfl <;> cases symbolSpace <;>
          simp [enter, add, SymbolUse.Declares, List.lookup_cons, same, Ne.symm same,
            beq_false_of_ne (Ne.symm same)]

/-- **The table holds the names that were declared.** -/
theorem declares_enterAll (table : SymbolTable) (symbols : List SymbolUse) {space : Namespace}
    (moduleLevel : space.IsModuleLevel) (name : String) :
    (table.enterAll symbols).declares space name = true ↔
      table.declares space name = true ∨ ∃ symbol ∈ symbols, symbol.Declares space name := by
  induction symbols generalizing table with
  | nil => simp
  | cons symbol rest ih =>
      rw [enterAll_cons, ih, declares_enter table symbol moduleLevel]
      simp [or_assoc]

theorem declares_empty (space : Namespace) (name : String) :
    empty.declares space name = false := by
  cases space <;> simp [empty, declares]

/-- A local or a label is in no table. -/
theorem declares_eq_false (table : SymbolTable) {space : Namespace}
    (notModuleLevel : ¬ space.IsModuleLevel) (name : String) :
    table.declares space name = false := by
  cases space <;> simp_all [declares, Namespace.IsModuleLevel]

/-- The last of a sequence of uses to declare a function of the given name. -/
def lastDeclaration? (symbols : List SymbolUse) (name : String) : Option SymbolUse :=
  symbols.reverse.find? fun symbol => decide (symbol.Declares .function name)

/-- **The arity of a function is that of its last declaration.** -/
theorem lookup_enterAll (symbols : List SymbolUse) (name : String) :
    (empty.enterAll symbols).functions.lookup name =
      (lastDeclaration? symbols name).map SymbolUse.arity := by
  induction symbols using List.reverseRecOn with
  | nil => rfl
  | append_singleton earlier symbol ih =>
      obtain ⟨role, space, symbolName, arity⟩ := symbol
      rw [lastDeclaration?] at ih ⊢
      rw [enterAll_append, enterAll_cons, enterAll_nil, List.reverse_append,
        List.reverse_singleton, List.singleton_append, List.find?_cons]
      cases role <;> cases space <;> simp [enter, add, SymbolUse.Declares, List.lookup_cons, ih]
      by_cases same : name = symbolName
      · simp [same]
      · simp [beq_false_of_ne same, Ne.symm same]

end SymbolTable

/-! ### Duplicates -/

/-- The names that uses declare in a namespace. -/
def declaredNames (space : Namespace) (symbols : List SymbolUse) : List String :=
  (symbols.filter fun symbol => symbol.role = .declare ∧ symbol.space = space).map SymbolUse.name

theorem mem_declaredNames {space : Namespace} {symbols : List SymbolUse} {name : String} :
    name ∈ declaredNames space symbols ↔ ∃ symbol ∈ symbols, symbol.Declares space name := by
  simp [declaredNames, SymbolUse.Declares, and_assoc]

theorem declaredNames_append (space : Namespace) (first second : List SymbolUse) :
    declaredNames space (first ++ second) =
      declaredNames space first ++ declaredNames space second := by
  simp [declaredNames]

theorem declaredNames_cons (space : Namespace) (symbol : SymbolUse) (rest : List SymbolUse) :
    declaredNames space (symbol :: rest) =
      if symbol.role = .declare ∧ symbol.space = space then
        symbol.name :: declaredNames space rest
      else declaredNames space rest := by
  by_cases declares : symbol.role = .declare ∧ symbol.space = space <;>
    simp [declaredNames, declares]

theorem duplicate?_eq_none_iff (table : SymbolTable) (symbol : SymbolUse) :
    table.duplicate? symbol = none ↔ ∀ space : Namespace, space.IsModuleLevel →
      symbol.role = .declare → symbol.space = space →
        table.declares space symbol.name = false := by
  obtain ⟨role, space, name, arity⟩ := symbol
  cases role with
  | reference => simp [SymbolTable.duplicate?]
  | declare =>
      by_cases moduleLevel : space.IsModuleLevel
      · simp only [SymbolTable.duplicate?, ite_eq_right_iff, reduceCtorEq, imp_false,
          Bool.not_eq_true, forall_const]
        exact ⟨fun fresh other _ same => same ▸ fresh, fun fresh => fresh space moduleLevel rfl⟩
      · simp only [SymbolTable.duplicate?, SymbolTable.declares_eq_false table moduleLevel,
          Bool.false_eq_true, if_false, forall_const, true_iff]
        exact fun other otherLevel same => absurd (same ▸ otherLevel) moduleLevel

/-- The first reading finds nothing exactly if no name is declared twice, or was known before. -/
theorem duplicates_eq_nil_iff (table : SymbolTable) (symbols : List SymbolUse) :
    table.duplicates symbols = [] ↔ ∀ space : Namespace, space.IsModuleLevel →
      (declaredNames space symbols).Nodup ∧
        ∀ name ∈ declaredNames space symbols, table.declares space name = false := by
  induction symbols generalizing table with
  | nil => simp [SymbolTable.duplicates, declaredNames]
  | cons symbol rest ih =>
      rw [SymbolTable.duplicates, List.append_eq_nil_iff, Option.toList_eq_nil_iff, ih,
        duplicate?_eq_none_iff, ← forall_and]
      refine forall_congr' fun space => ?_
      rw [← forall_and]
      refine forall_congr' fun moduleLevel => ?_
      have entered (name : String) : (table.enter symbol).declares space name = false ↔
          table.declares space name = false ∧ ¬ symbol.Declares space name := by
        rw [← Bool.not_eq_true, SymbolTable.declares_enter table symbol moduleLevel, not_or,
          Bool.not_eq_true]
      simp only [entered, declaredNames_cons]
      by_cases declares : symbol.role = .declare ∧ symbol.space = space
      · obtain ⟨role, rfl⟩ := declares
        have notDeclares (name : String) :
            ¬ symbol.Declares symbol.space name ↔ name ≠ symbol.name := by
          simp [SymbolUse.Declares, role, eq_comm]
        simp only [notDeclares, role, and_self, if_true, forall_const, List.nodup_cons,
          List.forall_mem_cons]
        constructor
        · rintro ⟨fresh, distinct, others⟩
          exact ⟨⟨fun member => (others _ member).2 rfl, distinct⟩, fresh,
            fun name member => (others name member).1⟩
        · rintro ⟨⟨once, distinct⟩, fresh, others⟩
          refine ⟨fresh, distinct, fun name member => ⟨others name member, ?_⟩⟩
          rintro rfl
          exact once member
      · have notDeclares (name : String) : ¬ symbol.Declares space name :=
          fun same => declares ⟨same.1, same.2.1⟩
        simp only [if_neg declares, notDeclares, not_false_eq_true, and_true]
        exact ⟨And.right, fun rest => ⟨fun role same => absurd ⟨role, same⟩ declares, rest⟩⟩

/-- Nothing is known before the first reading, so only second declarations count. -/
theorem duplicates_empty_eq_nil_iff (symbols : List SymbolUse) :
    SymbolTable.empty.duplicates symbols = [] ↔ ∀ space : Namespace, space.IsModuleLevel →
      (declaredNames space symbols).Nodup := by
  rw [duplicates_eq_nil_iff]
  constructor
  · intro distinct space moduleLevel
    exact (distinct space moduleLevel).1
  · intro distinct space moduleLevel
    exact ⟨distinct space moduleLevel, fun name _ => SymbolTable.declares_empty space name⟩

/-! ## The second reading -/

namespace ScopeStack

@[simp] theorem afterAll_nil (stack : ScopeStack) : stack.afterAll [] = stack := rfl

@[simp] theorem afterAll_cons (stack : ScopeStack) (step : TrailStep) (rest : List TrailStep) :
    stack.afterAll (step :: rest) = (stack.after step).afterAll rest := rfl

theorem afterAll_append (stack : ScopeStack) (first second : List TrailStep) :
    stack.afterAll (first ++ second) = (stack.afterAll first).afterAll second :=
  List.foldl_append

end ScopeStack

theorem resolutionErrors_append (table : SymbolTable) (stack : ScopeStack)
    (first second : List TrailStep) :
    resolutionErrors table stack (first ++ second) =
      resolutionErrors table stack first ++
        resolutionErrors table (stack.afterAll first) second := by
  induction first generalizing stack with
  | nil => rfl
  | cons step rest ih => simp [resolutionErrors, ih]

/-! ## The report -/

namespace Report

theorem foldl_push (report : Report) (diagnostics : List Diagnostic)
    (short : report.errors.length ≤ reportLimit) :
    diagnostics.foldl push report =
      { errors := report.errors ++ diagnostics.take (reportLimit - report.errors.length)
        total := report.total + diagnostics.length } := by
  induction diagnostics generalizing report with
  | nil => simp
  | cons diagnostic rest ih =>
      rw [List.foldl_cons]
      by_cases room : report.errors.length < reportLimit
      · have pushed : (report.push diagnostic).errors.length ≤ reportLimit := by
          simp only [push, if_pos room, List.length_append, List.length_singleton]
          omega
        rw [ih _ pushed]
        have left : reportLimit - report.errors.length =
            (reportLimit - (report.errors.length + 1)) + 1 := by omega
        simp only [push, if_pos room, List.length_append, List.length_cons, List.length_nil,
          Nat.zero_add, List.append_assoc, List.singleton_append]
        rw [left, List.take_succ_cons, Nat.add_right_comm, Nat.add_assoc]
      · rw [ih _ (by simpa only [push, if_neg room] using short)]
        have full : reportLimit - report.errors.length = 0 := by omega
        simp only [push, if_neg room, full, List.take_zero, List.length_cons]
        rw [Nat.add_right_comm, Nat.add_assoc]

/-- **A report keeps the first diagnostics and counts all.** -/
theorem ofList_eq (diagnostics : List Diagnostic) :
    ofList diagnostics =
      { errors := diagnostics.take reportLimit, total := diagnostics.length } := by
  rw [ofList, foldl_push empty diagnostics (Nat.zero_le _)]
  simp [empty]

end Report

theorem checkSymbols_eq_ok_iff (nodes : List Node) :
    checkSymbols nodes = .ok () ↔ symbolErrors nodes = [] := by
  rw [checkSymbols, Report.ofList_eq, Report.verdict, Report.hasErrors]
  cases symbolErrors nodes <;> simp

/-- The report that a check ends with. It is empty if nothing was wrong. -/
def reported : Except Report Unit → Report
  | .ok () => .empty
  | .error report => report

theorem reported_checkSymbols (nodes : List Node) :
    reported (checkSymbols nodes) =
      { errors := (symbolErrors nodes).take reportLimit
        total := (symbolErrors nodes).length } := by
  rw [checkSymbols, Report.ofList_eq, Report.verdict, Report.hasErrors]
  cases symbolErrors nodes <;> rfl

end WasmWorkshop
