import WasmWorkshop.Proofs.Trail

/-!
# What the symbol check reports, by positions

The check is a walk with a stack. Here the same diagnostics are given by rules that look at
positions in the tree and at nothing else.

An occurrence is one use of a symbol together with the scoped nodes around it, the innermost first
and each by its place in the tree (`Occurrence`, `Node.occurrences`). The node that carries the use
counts among them if it has a scope. Two rules say what is wrong with an occurrence, given those
before it in pre-order: `moduleProblem?` for the second declaration of a function, a global or a
table, and `scopeProblem?` for all else.

The walk agrees with the rules because its stack holds nothing of its own: the frames are determined
by the scopes around the present node and by the occurrences so far (`Frame.ofHistory`), and a
use changes them as it changes the history (`stackAfter_afterUse`). A scope that is entered has no
history yet, since its place is new (`Unvisited`). The main statement is `symbolErrors_eq_diagnose`.
-/

set_option autoImplicit false

namespace WasmWorkshop

/-! ## Occurrences -/

/-- A place in a list of trees: the index of a root, then the index of a child at each level. -/
abbrev Place := List Nat

/-- A scope and the place of the node that opens it. Two scopes of one name differ by place. -/
structure PlacedScope where
  place : Place
  scope : Scope
  deriving DecidableEq

/-- Whether the scope is that of a function. -/
def PlacedScope.isFunction (placed : PlacedScope) : Bool :=
  match placed.scope with
  | .function _ => true
  | .label => false

/-- A use of a symbol at its place in a list of trees. -/
structure Occurrence where
  /-- The scopes around the use, the innermost first. -/
  scopes : List PlacedScope
  symbol : SymbolUse
  deriving DecidableEq

namespace Occurrence

/-- The nearest function around the use. -/
def function? (occurrence : Occurrence) : Option PlacedScope :=
  occurrence.scopes.find? PlacedScope.isFunction

/-- The scope that a label lands in. -/
def innermost? (occurrence : Occurrence) : Option PlacedScope := occurrence.scopes.head?

end Occurrence

/-- The scopes from the innermost one outwards to that of the nearest function, which is
included. -/
def withinFunction : List PlacedScope → List PlacedScope
  | [] => []
  | placed :: rest => if placed.isFunction then [placed] else placed :: withinFunction rest

/-- The scopes inside a node with the given marks. -/
def Marks.scopesAt (marks : Marks) (place : Place) (outer : List PlacedScope) :
    List PlacedScope :=
  match marks.scope with
  | none => outer
  | some scope => ⟨place, scope⟩ :: outer

/-- The uses that a node carries itself. -/
def Marks.occurrences (marks : Marks) (scopes : List PlacedScope) : List Occurrence :=
  marks.symbols.map (⟨scopes, ·⟩)

mutual

/-- The occurrences in a tree, in pre-order. -/
def Node.occurrencesAt (place : Place) (outer : List PlacedScope) : Node → List Occurrence
  | .leaf _ marks => marks.occurrences (marks.scopesAt place outer)
  | .form _ marks => marks.occurrences (marks.scopesAt place outer)
  | .group _ children marks =>
    marks.occurrences (marks.scopesAt place outer) ++
      Node.occurrencesBelow place 0 (marks.scopesAt place outer) children
  | .fragment children marks =>
    marks.occurrences (marks.scopesAt place outer) ++
      Node.occurrencesBelow place 0 (marks.scopesAt place outer) children

/-- The occurrences in the trees below `parent` from the one with the given index on. -/
def Node.occurrencesBelow (parent : Place) (index : Nat) (outer : List PlacedScope) :
    List Node → List Occurrence
  | [] => []
  | node :: rest =>
    node.occurrencesAt (parent ++ [index]) outer ++
      Node.occurrencesBelow parent (index + 1) outer rest

end

/-- The occurrences in a list of trees, in pre-order. -/
def Node.occurrences (nodes : List Node) : List Occurrence := Node.occurrencesBelow [] 0 [] nodes

/-! ## The rules -/

/-- The diagnostics of a rule along a list of occurrences. The rule sees each occurrence and those
before it. -/
def diagnose (rule : List Occurrence → Occurrence → Option Diagnostic)
    (earlier : List Occurrence) : List Occurrence → List Diagnostic
  | [] => []
  | occurrence :: rest =>
    (rule earlier occurrence).toList ++ diagnose rule (earlier ++ [occurrence]) rest

/-- The second declaration of a function, a global or a table. -/
def moduleProblem? (earlier : List Occurrence) (occurrence : Occurrence) : Option Diagnostic :=
  let symbol := occurrence.symbol
  if symbol.role = .declare ∧ symbol.space.IsModuleLevel ∧
      ∃ other ∈ earlier, other.symbol.Declares symbol.space symbol.name then
    some (.duplicate symbol.space symbol.name)
  else none

/-- Whether the nearest function around an occurrence has a local of its name already. -/
def Occurrence.LocalDeclared (earlier : List Occurrence) (occurrence : Occurrence) : Prop :=
  occurrence.function?.isSome ∧ ∃ other ∈ earlier,
    other.symbol.Declares .localVariable occurrence.symbol.name ∧
      other.function? = occurrence.function?

/-- Whether a label of the name of an occurrence is declared in a scope around it, up to that of the
nearest function. -/
def Occurrence.LabelDeclared (earlier : List Occurrence) (occurrence : Occurrence) : Prop :=
  ∃ placed ∈ withinFunction occurrence.scopes, ∃ other ∈ earlier,
    other.symbol.Declares .label occurrence.symbol.name ∧ other.innermost? = some placed

instance (earlier : List Occurrence) (occurrence : Occurrence) :
    Decidable (occurrence.LocalDeclared earlier) :=
  inferInstanceAs (Decidable (_ ∧ ∃ other ∈ earlier, _))

instance (earlier : List Occurrence) (occurrence : Occurrence) :
    Decidable (occurrence.LabelDeclared earlier) :=
  inferInstanceAs (Decidable (∃ placed ∈ _, ∃ other ∈ earlier, _))

/-- The diagnostic with the name of the nearest function attached, if there is one. -/
def Occurrence.locate (occurrence : Occurrence) (diagnostic : Diagnostic) : Diagnostic :=
  match occurrence.function? with
  | some ⟨_, .function name⟩ => diagnostic.inFunction name
  | _ => diagnostic

/-- What is wrong with an occurrence apart from `moduleProblem?`, before it is located. Functions,
globals and tables are looked for among all occurrences, locals and labels among the earlier
ones. -/
def resolutionProblem? (all earlier : List Occurrence) (occurrence : Occurrence) :
    Option Diagnostic :=
  let symbol := occurrence.symbol
  match symbol.role, symbol.space with
  | .declare, .localVariable =>
    if occurrence.LocalDeclared earlier then some (.duplicate .localVariable symbol.name) else none
  | .declare, _ => none
  | .reference, .localVariable =>
    if occurrence.LocalDeclared earlier then none else some (.undeclared .localVariable symbol.name)
  | .reference, .label =>
    if occurrence.LabelDeclared earlier then none else some (.undeclared .label symbol.name)
  | .reference, .function =>
    match SymbolTable.lastDeclaration? (all.map Occurrence.symbol) symbol.name with
    | none => some (.undeclared .function symbol.name)
    | some declaration =>
      match declaration.arity, symbol.arity with
      | some expected, some actual =>
        if expected = actual then none else some (.mismatch .function symbol.name actual expected)
      | _, _ => none
  | .reference, space =>
    if ∃ other ∈ all, other.symbol.Declares space symbol.name then none
    else some (.undeclared space symbol.name)

/-- What is wrong with an occurrence apart from `moduleProblem?`. -/
def scopeProblem? (all earlier : List Occurrence) (occurrence : Occurrence) : Option Diagnostic :=
  (resolutionProblem? all earlier occurrence).map occurrence.locate

/-! ## The stack as a function of the history -/

/-- Names in the order opposite to that of their first mention. -/
def gathered (names : List String) : List String :=
  names.foldl (fun known name => known.insert name) []

theorem gathered_append_singleton (names : List String) (name : String) :
    gathered (names ++ [name]) = (gathered names).insert name := by
  simp [gathered]

@[simp] theorem mem_gathered {names : List String} {name : String} :
    name ∈ gathered names ↔ name ∈ names := by
  induction names using List.reverseRecOn with
  | nil => simp [gathered]
  | append_singleton earlier last ih => simp [gathered_append_singleton, ih, or_comm]

/-- The name that an occurrence declares in a namespace, if it lands in the given scope. -/
def Occurrence.declared? (space : Namespace) (target : Option PlacedScope) (placed : PlacedScope)
    (occurrence : Occurrence) : Option String :=
  if occurrence.symbol.role = .declare ∧ occurrence.symbol.space = space ∧ target = some placed then
    some occurrence.symbol.name
  else none

/-- The frame of a scope after the given occurrences. -/
def Frame.ofHistory (history : List Occurrence) (placed : PlacedScope) : Frame where
  scope := placed.scope
  locals := gathered
    (history.filterMap fun other => other.declared? .localVariable other.function? placed)
  labels := gathered (history.filterMap fun other => other.declared? .label other.innermost? placed)

/-- The stack inside the given scopes after the given occurrences. -/
def stackAfter (history : List Occurrence) (scopes : List PlacedScope) : ScopeStack :=
  ⟨scopes.map (Frame.ofHistory history)⟩

theorem mem_declared {history : List Occurrence} {space : Namespace}
    {target : Occurrence → Option PlacedScope} {placed : PlacedScope} {name : String} :
    name ∈ history.filterMap (fun other => other.declared? space (target other) placed) ↔
      ∃ other ∈ history, other.symbol.Declares space name ∧ target other = some placed := by
  simp only [List.mem_filterMap, Occurrence.declared?, SymbolUse.Declares]
  constructor
  · rintro ⟨other, member, found⟩
    split at found
    · next landed =>
        cases found
        exact ⟨other, member, ⟨landed.1, landed.2.1, rfl⟩, landed.2.2⟩
    · cases found
  · rintro ⟨other, member, ⟨role, space, rfl⟩, landed⟩
    exact ⟨other, member, by rw [if_pos ⟨role, space, landed⟩]⟩

theorem Frame.mem_locals {history : List Occurrence} {placed : PlacedScope} {name : String} :
    name ∈ (Frame.ofHistory history placed).locals ↔ ∃ other ∈ history,
      other.symbol.Declares .localVariable name ∧ other.function? = some placed := by
  rw [Frame.ofHistory, mem_gathered, mem_declared]

theorem Frame.mem_labels {history : List Occurrence} {placed : PlacedScope} {name : String} :
    name ∈ (Frame.ofHistory history placed).labels ↔ ∃ other ∈ history,
      other.symbol.Declares .label name ∧ other.innermost? = some placed := by
  rw [Frame.ofHistory, mem_gathered, mem_declared]

@[simp] theorem Frame.isFunction_ofHistory (history : List Occurrence) (placed : PlacedScope) :
    (Frame.ofHistory history placed).isFunction = placed.isFunction := rfl

/-! ### Looking up in the stack -/

theorem innermostFunction_map (history : List Occurrence) (scopes : List PlacedScope) :
    ScopeStack.innermostFunction (scopes.map (Frame.ofHistory history)) =
      (scopes.find? PlacedScope.isFunction).bind fun placed =>
        match placed.scope with
        | .function name => some name
        | .label => none := by
  induction scopes with
  | nil => rfl
  | cons placed rest ih =>
      obtain ⟨place, scope⟩ := placed
      cases scope with
      | function name => rfl
      | label => exact ih

theorem upToFunction_map (history : List Occurrence) (scopes : List PlacedScope) :
    ScopeStack.upToFunction (scopes.map (Frame.ofHistory history)) =
      (withinFunction scopes).map (Frame.ofHistory history) := by
  induction scopes with
  | nil => rfl
  | cons placed rest ih =>
      by_cases function : placed.isFunction <;>
        simp [ScopeStack.upToFunction, withinFunction, function, ih]

/-- Among the scopes that are looked at, the function is the nearest one. -/
theorem mem_withinFunction_isFunction {scopes : List PlacedScope} {placed : PlacedScope} :
    placed ∈ withinFunction scopes ∧ placed.isFunction = true ↔
      scopes.find? PlacedScope.isFunction = some placed := by
  induction scopes with
  | nil => simp [withinFunction]
  | cons first rest ih =>
      cases function : first.isFunction with
      | true =>
          simp only [withinFunction, function, if_true, List.mem_singleton, List.find?_cons]
          constructor
          · rintro ⟨rfl, -⟩
            rfl
          · rintro ⟨rfl⟩
            exact ⟨rfl, function⟩
      | false =>
          simp only [withinFunction, function, Bool.false_eq_true, if_false, List.find?_cons, ← ih,
            List.mem_cons]
          constructor
          · rintro ⟨rfl | member, isFunction⟩
            · rw [function] at isFunction
              cases isFunction
            · exact ⟨member, isFunction⟩
          · rintro ⟨member, isFunction⟩
            exact ⟨.inr member, isFunction⟩

theorem hasLocal_stackAfter (history : List Occurrence) (occurrence : Occurrence) :
    (stackAfter history occurrence.scopes).hasLocal occurrence.symbol.name = true ↔
      occurrence.LocalDeclared history := by
  simp only [ScopeStack.hasLocal, ScopeStack.visible, stackAfter, upToFunction_map, List.any_map,
    List.any_eq_true, Function.comp, Bool.and_eq_true, decide_eq_true_eq, Frame.mem_locals,
    Frame.isFunction_ofHistory, Occurrence.LocalDeclared]
  constructor
  · rintro ⟨placed, member, isFunction, other, earlier, declares, same⟩
    have nearest : occurrence.function? = some placed :=
      mem_withinFunction_isFunction.mp ⟨member, isFunction⟩
    have inFunction := Option.isSome_iff_exists.mpr ⟨placed, nearest⟩
    exact ⟨inFunction, other, earlier, declares, same.trans nearest.symm⟩
  · rintro ⟨some_function, other, earlier, declares, same⟩
    obtain ⟨placed, nearest⟩ := Option.isSome_iff_exists.mp some_function
    obtain ⟨member, isFunction⟩ := mem_withinFunction_isFunction.mpr nearest
    exact ⟨placed, member, isFunction, other, earlier, declares, same.trans nearest⟩

theorem hasLabel_stackAfter (history : List Occurrence) (occurrence : Occurrence) :
    (stackAfter history occurrence.scopes).hasLabel occurrence.symbol.name = true ↔
      occurrence.LabelDeclared history := by
  simp only [ScopeStack.hasLabel, ScopeStack.visible, stackAfter, upToFunction_map, List.any_map,
    List.any_eq_true, Function.comp, decide_eq_true_eq, Frame.mem_labels,
    Occurrence.LabelDeclared]

/-! ### Changing the stack -/

theorem declared_append {history : List Occurrence} {occurrence : Occurrence} {space : Namespace}
    {target : Occurrence → Option PlacedScope} {placed : PlacedScope} :
    gathered ((history ++ [occurrence]).filterMap
        fun other => other.declared? space (target other) placed) =
      let known := gathered (history.filterMap
        fun other => other.declared? space (target other) placed)
      if occurrence.symbol.role = .declare ∧ occurrence.symbol.space = space ∧
          target occurrence = some placed then known.insert occurrence.symbol.name
      else known := by
  rw [List.filterMap_append]
  by_cases landed : occurrence.symbol.role = .declare ∧ occurrence.symbol.space = space ∧
      target occurrence = some placed
  · rw [if_pos landed, ← gathered_append_singleton]
    simp [Occurrence.declared?, landed]
  · rw [if_neg landed]
    simp [Occurrence.declared?, landed]

/-- A use that is not the declaration of a local or a label leaves every frame as it is. -/
theorem Frame.ofHistory_append_of_other {history : List Occurrence} {occurrence : Occurrence}
    (other : ¬ (occurrence.symbol.role = .declare ∧
      (occurrence.symbol.space = .localVariable ∨ occurrence.symbol.space = .label))) :
    Frame.ofHistory (history ++ [occurrence]) = Frame.ofHistory history := by
  funext placed
  rw [Frame.ofHistory, Frame.ofHistory, declared_append, declared_append]
  rw [if_neg fun landed => other ⟨landed.1, .inl landed.2.1⟩,
    if_neg fun landed => other ⟨landed.1, .inr landed.2.1⟩]

theorem Frame.ofHistory_append_local (history : List Occurrence) (scopes : List PlacedScope)
    (name : String) (arity : Option Nat) :
    Frame.ofHistory (history ++ [⟨scopes, .declare, .localVariable, name, arity⟩]) = fun placed =>
      if scopes.find? PlacedScope.isFunction = some placed then
        { Frame.ofHistory history placed with
          locals := (Frame.ofHistory history placed).locals.insert name }
      else Frame.ofHistory history placed := by
  funext placed
  rw [Frame.ofHistory, Frame.ofHistory, declared_append, declared_append]
  by_cases landed : scopes.find? PlacedScope.isFunction = some placed <;>
    simp [Occurrence.function?, landed]

theorem Frame.ofHistory_append_label (history : List Occurrence) (scopes : List PlacedScope)
    (name : String) (arity : Option Nat) :
    Frame.ofHistory (history ++ [⟨scopes, .declare, .label, name, arity⟩]) = fun placed =>
      if scopes.head? = some placed then
        { Frame.ofHistory history placed with
          labels := (Frame.ofHistory history placed).labels.insert name }
      else Frame.ofHistory history placed := by
  funext placed
  rw [Frame.ofHistory, Frame.ofHistory, declared_append, declared_append]
  by_cases landed : scopes.head? = some placed <;> simp [Occurrence.innermost?, landed]

/-- Adding a local changes the frame of the nearest function and no other. -/
theorem addLocal?_map (history : List Occurrence) (name : String) {scopes : List PlacedScope}
    (distinct : scopes.Nodup) :
    (ScopeStack.addLocal? name (scopes.map (Frame.ofHistory history))).getD
        (scopes.map (Frame.ofHistory history)) =
      scopes.map fun placed =>
        if scopes.find? PlacedScope.isFunction = some placed then
          { Frame.ofHistory history placed with
            locals := (Frame.ofHistory history placed).locals.insert name }
        else Frame.ofHistory history placed := by
  induction scopes with
  | nil => rfl
  | cons first rest ih =>
      obtain ⟨fresh, distinct⟩ := List.nodup_cons.mp distinct
      cases function : first.isFunction with
      | true =>
          have others : ∀ placed ∈ rest, first ≠ placed := by
            rintro placed member rfl
            exact fresh member
          simp only [List.map_cons, ScopeStack.addLocal?, Frame.isFunction_ofHistory, function,
            if_true, List.find?_cons, Option.some.injEq]
          have unchanged : rest.map (Frame.ofHistory history) = rest.map fun placed =>
              if first = placed then
                { Frame.ofHistory history placed with
                  locals := (Frame.ofHistory history placed).locals.insert name }
              else Frame.ofHistory history placed :=
            List.map_congr_left fun placed member => (if_neg (others placed member)).symm
          rw [← unchanged]
          by_cases known : name ∈ (Frame.ofHistory history first).locals <;> simp [known]
      | false =>
          have notFirst : rest.find? PlacedScope.isFunction ≠ some first := by
            intro found
            exact fresh (List.mem_of_find?_eq_some found)
          have ih := ih distinct
          simp only [List.map_cons, ScopeStack.addLocal?, Frame.isFunction_ofHistory, function,
            Bool.false_eq_true, if_false, List.find?_cons, if_neg notFirst]
          rw [← ih]
          cases ScopeStack.addLocal? name (rest.map (Frame.ofHistory history)) <;> rfl

/-- Adding a label changes the innermost frame and no other. -/
theorem addLabel?_map (history : List Occurrence) (name : String) {scopes : List PlacedScope}
    (distinct : scopes.Nodup) :
    (ScopeStack.addLabel? name (scopes.map (Frame.ofHistory history))).getD
        (scopes.map (Frame.ofHistory history)) =
      scopes.map fun placed =>
        if scopes.head? = some placed then
          { Frame.ofHistory history placed with
            labels := (Frame.ofHistory history placed).labels.insert name }
        else Frame.ofHistory history placed := by
  cases scopes with
  | nil => rfl
  | cons first rest =>
      obtain ⟨fresh, -⟩ := List.nodup_cons.mp distinct
      have others : ∀ placed ∈ rest, first ≠ placed := by
        rintro placed member rfl
        exact fresh member
      have unchanged : rest.map (Frame.ofHistory history) = rest.map fun placed =>
          if first = placed then
            { Frame.ofHistory history placed with
              labels := (Frame.ofHistory history placed).labels.insert name }
          else Frame.ofHistory history placed :=
        List.map_congr_left fun placed member => (if_neg (others placed member)).symm
      simp only [List.map_cons, ScopeStack.addLabel?, List.head?_cons, Option.some.injEq, if_true]
      rw [← unchanged]
      by_cases known : name ∈ (Frame.ofHistory history first).labels <;> simp [known]

theorem ScopeStack.defineLocal_fst (stack : ScopeStack) (name : String) :
    (stack.defineLocal name).1 = (addLocal? name stack.frames).isSome := by
  unfold defineLocal
  cases addLocal? name stack.frames <;> rfl

theorem ScopeStack.defineLocal_snd (stack : ScopeStack) (name : String) :
    (stack.defineLocal name).2 = ⟨(addLocal? name stack.frames).getD stack.frames⟩ := by
  unfold defineLocal
  cases addLocal? name stack.frames <;> rfl

theorem ScopeStack.defineLabel_snd (stack : ScopeStack) (name : String) :
    (stack.defineLabel name).2 = ⟨(addLabel? name stack.frames).getD stack.frames⟩ := by
  unfold defineLabel
  cases addLabel? name stack.frames <;> rfl

/-- **A use changes the stack as it changes the history.** -/
theorem stackAfter_afterUse (history : List Occurrence) {scopes : List PlacedScope}
    (distinct : scopes.Nodup) (symbol : SymbolUse) :
    (stackAfter history scopes).afterUse symbol =
      stackAfter (history ++ [⟨scopes, symbol⟩]) scopes := by
  obtain ⟨role, space, name, arity⟩ := symbol
  by_cases lands : role = .declare ∧ (space = .localVariable ∨ space = .label)
  · obtain ⟨rfl, rfl | rfl⟩ := lands
    · simp only [ScopeStack.afterUse, ScopeStack.defineLocal_snd, stackAfter,
        addLocal?_map history name distinct, Frame.ofHistory_append_local]
    · simp only [ScopeStack.afterUse, ScopeStack.defineLabel_snd, stackAfter,
        addLabel?_map history name distinct, Frame.ofHistory_append_label]
  · rw [stackAfter, stackAfter, Frame.ofHistory_append_of_other lands]
    cases role <;> cases space <;> simp_all [ScopeStack.afterUse]

/-- Places of scopes that neither contain the given place nor lie in it. -/
def Unvisited (place : Place) (scopes : List PlacedScope) : Prop :=
  ∀ placed ∈ scopes, ¬ place <+: placed.place

/-- A scope whose place was not visited before starts out empty. -/
theorem stackAfter_push {history : List Occurrence} {place : Place}
    (unvisited : Unvisited place (history.flatMap Occurrence.scopes)) (scope : Scope)
    (outer : List PlacedScope) :
    (stackAfter history outer).push scope = stackAfter history (⟨place, scope⟩ :: outer) := by
  have nothing : ∀ other ∈ history, (⟨place, scope⟩ : PlacedScope) ∉ other.scopes := by
    intro other earlier member
    exact unvisited _ (List.mem_flatMap.mpr ⟨other, earlier, member⟩) (List.prefix_refl place)
  have noLocals : (Frame.ofHistory history ⟨place, scope⟩).locals = [] := by
    refine List.eq_nil_iff_forall_not_mem.mpr fun name member => ?_
    obtain ⟨other, earlier, -, landed⟩ := Frame.mem_locals.mp member
    exact nothing other earlier (List.mem_of_find?_eq_some landed)
  have noLabels : (Frame.ofHistory history ⟨place, scope⟩).labels = [] := by
    refine List.eq_nil_iff_forall_not_mem.mpr fun name member => ?_
    obtain ⟨other, earlier, -, landed⟩ := Frame.mem_labels.mp member
    exact nothing other earlier (List.mem_of_mem_head? landed)
  have fresh : Frame.ofHistory history ⟨place, scope⟩ = { scope := scope } :=
    (Frame.mk.injEq ..).mpr ⟨rfl, noLocals, noLabels⟩
  rw [ScopeStack.push, stackAfter, stackAfter, List.map_cons, fresh]

/-! ## One use -/

/-- A local that cannot be declared, although there is a function, is there already. -/
theorem ScopeStack.refused_local_iff (stack : ScopeStack) (name : String) :
    (stack.currentFunction.isSome && !(stack.defineLocal name).1) = stack.hasLocal name := by
  obtain ⟨frames⟩ := stack
  simp only [defineLocal_fst, currentFunction, hasLocal, visible]
  induction frames with
  | nil => rfl
  | cons frame rest ih =>
      obtain ⟨scope, locals, labels⟩ := frame
      cases scope with
      | function function =>
          by_cases known : name ∈ locals <;>
            simp [innermostFunction, addLocal?, upToFunction, Frame.isFunction, known]
      | label =>
          simp only [innermostFunction, addLocal?, upToFunction, Frame.isFunction,
            Bool.false_eq_true, if_false, Option.isSome_map, List.any_cons, Bool.false_and,
            Bool.false_or]
          exact ih

theorem useError?_stackAfter (all history : List Occurrence) (occurrence : Occurrence) :
    useError? (SymbolTable.empty.enterAll (all.map Occurrence.symbol))
        (stackAfter history occurrence.scopes) occurrence.symbol =
      resolutionProblem? all history occurrence := by
  have hasLocal := hasLocal_stackAfter history occurrence
  have hasLabel := hasLabel_stackAfter history occurrence
  obtain ⟨scopes, role, space, name, arity⟩ := occurrence
  have declares (space : Namespace) (moduleLevel : space.IsModuleLevel) :
      (SymbolTable.empty.enterAll (all.map Occurrence.symbol)).declares space name = true ↔
        ∃ other ∈ all, other.symbol.Declares space name := by
    rw [SymbolTable.declares_enterAll _ _ moduleLevel, SymbolTable.declares_empty]
    simp
  cases role with
  | declare =>
      cases space with
      | localVariable =>
          simp only [useError?, resolutionProblem?, ScopeStack.refused_local_iff, hasLocal]
      | function | global | table | label => rfl
  | reference =>
      cases space with
      | localVariable =>
          simp only [useError?, referenceError?, resolutionProblem?, hasLocal]
      | label => simp only [useError?, referenceError?, resolutionProblem?, hasLabel]
      | global =>
          simp only [useError?, referenceError?, resolutionProblem?, declares .global (by decide)]
      | table =>
          simp only [useError?, referenceError?, resolutionProblem?, declares .table (by decide)]
      | function =>
          simp only [useError?, referenceError?, resolutionProblem?, SymbolTable.declares_function,
            SymbolTable.lookup_enterAll]
          cases SymbolTable.lastDeclaration? (all.map Occurrence.symbol) name with
          | none => rfl
          | some declaration => rfl

theorem locate_stackAfter (history : List Occurrence) (occurrence : Occurrence) :
    (stackAfter history occurrence.scopes).locate = occurrence.locate := by
  funext diagnostic
  rw [ScopeStack.locate, ScopeStack.currentFunction, stackAfter, innermostFunction_map]
  rw [Occurrence.locate, Occurrence.function?]
  cases occurrence.scopes.find? PlacedScope.isFunction with
  | none => rfl
  | some placed =>
      obtain ⟨place, scope⟩ := placed
      cases scope <;> rfl

/-! ## The walk through a tree -/

section Walk

variable (all : List Occurrence)

theorem diagnose_append (rule : List Occurrence → Occurrence → Option Diagnostic)
    (earlier first second : List Occurrence) :
    diagnose rule earlier (first ++ second) =
      diagnose rule earlier first ++ diagnose rule (earlier ++ first) second := by
  induction first generalizing earlier with
  | nil => simp [diagnose]
  | cons occurrence rest ih => simp [diagnose, ih]

/-- What the walk does with a stretch of the trail: it reports what the rules say of the
occurrences on it, and leaves the stack that they lead to. -/
def Follows (history : List Occurrence) (scopes : List PlacedScope) (trail : List TrailStep)
    (occurrences : List Occurrence) : Prop :=
  resolutionErrors (SymbolTable.empty.enterAll (all.map Occurrence.symbol))
      (stackAfter history scopes) trail =
    diagnose (scopeProblem? all) history occurrences ∧
  (stackAfter history scopes).afterAll trail = stackAfter (history ++ occurrences) scopes

variable {all}

theorem Follows.nil (history : List Occurrence) (scopes : List PlacedScope) :
    Follows all history scopes [] [] := by
  refine ⟨rfl, ?_⟩
  rw [ScopeStack.afterAll_nil, List.append_nil]

theorem Follows.append {history : List Occurrence} {scopes : List PlacedScope}
    {first second : List TrailStep} {firstOccurrences secondOccurrences : List Occurrence}
    (before : Follows all history scopes first firstOccurrences)
    (after : Follows all (history ++ firstOccurrences) scopes second secondOccurrences) :
    Follows all history scopes (first ++ second) (firstOccurrences ++ secondOccurrences) := by
  constructor
  · rw [resolutionErrors_append, before.1, before.2, after.1, diagnose_append]
  · rw [ScopeStack.afterAll_append, before.2, after.2, List.append_assoc]

/-- The uses of one node, all in the same scopes. -/
theorem Follows.uses {scopes : List PlacedScope} (distinct : scopes.Nodup)
    (history : List Occurrence) (symbols : List SymbolUse) :
    Follows all history scopes (symbols.map .use) (symbols.map (⟨scopes, ·⟩)) := by
  induction symbols generalizing history with
  | nil => exact .nil history scopes
  | cons symbol rest ih =>
      have here : Follows all history scopes [.use symbol] [⟨scopes, symbol⟩] := by
        have error := useError?_stackAfter all history ⟨scopes, symbol⟩
        have located := locate_stackAfter history ⟨scopes, symbol⟩
        constructor
        · simp only [resolutionErrors, stepError?, diagnose, scopeProblem?, ← error, ← located]
        · exact stackAfter_afterUse history distinct symbol
      exact here.append (ih _)

/-- A scope around a stretch of the trail. -/
theorem Follows.enclose {history : List Occurrence} {place : Place} {outer : List PlacedScope}
    {marks : Marks} {inner : List TrailStep} {below : List Occurrence}
    (distinct : (marks.scopesAt place outer).Nodup)
    (unvisited : Unvisited place (history.flatMap Occurrence.scopes))
    (walk : Follows all (history ++ marks.occurrences (marks.scopesAt place outer))
      (marks.scopesAt place outer) inner below) :
    Follows all history outer (marks.enclose inner)
      (marks.occurrences (marks.scopesAt place outer) ++ below) := by
  have own : Follows all history (marks.scopesAt place outer) (marks.symbols.map .use ++ inner)
      (marks.occurrences (marks.scopesAt place outer) ++ below) :=
    (Follows.uses distinct history marks.symbols).append walk
  obtain ⟨symbols, scope⟩ := marks
  cases scope with
  | none => exact own
  | some scope =>
      obtain ⟨errors, stack⟩ := own
      simp only [Marks.scopesAt] at errors stack
      constructor
      · simp only [Marks.enclose, resolutionErrors, stepError?, Option.toList_none,
          List.nil_append, resolutionErrors_append, ScopeStack.after, List.append_nil]
        rw [stackAfter_push unvisited, ← resolutionErrors_append, errors]
        rfl
      · simp only [Marks.enclose, ScopeStack.afterAll_cons, ScopeStack.after,
          ScopeStack.afterAll_append, ScopeStack.afterAll_nil]
        rw [stackAfter_push unvisited, ← ScopeStack.afterAll_append, stack]
        rfl

/-! ### Places do not repeat -/

theorem Unvisited.child {place : Place} {scopes : List PlacedScope}
    (unvisited : Unvisited place scopes) (index : Nat) : Unvisited (place ++ [index]) scopes :=
  fun placed member within =>
    unvisited placed member ((List.prefix_append place [index]).trans within)

theorem unvisited_append {place : Place} {first second : List PlacedScope} :
    Unvisited place (first ++ second) ↔ Unvisited place first ∧ Unvisited place second := by
  simp [Unvisited, or_imp, forall_and]

/-- Two children of one node have nothing in common. -/
theorem not_within_sibling {parent : Place} {index other : Nat} (different : index ≠ other)
    {place : Place} (within : parent ++ [index] <+: place) : ¬ parent ++ [other] <+: place := by
  intro withinOther
  have same : parent ++ [index] = parent ++ [other] :=
    (List.prefix_of_prefix_length_le within withinOther (by simp)).eq_of_length (by simp)
  exact different (by simpa using same)

theorem mem_scopesAt {marks : Marks} {place : Place} {outer : List PlacedScope}
    {placed : PlacedScope} (member : placed ∈ marks.scopesAt place outer) :
    placed ∈ outer ∨ placed.place = place := by
  rw [Marks.scopesAt] at member
  cases h : marks.scope with
  | none => exact .inl (by simpa only [h] using member)
  | some scope =>
      simp only [h, List.mem_cons] at member
      rcases member with rfl | member
      · exact .inr rfl
      · exact .inl member

/-- Whatever a subtree mentions is open around it or lies in it. -/
def Local (place : Place) (outer : List PlacedScope) (occurrences : List Occurrence) : Prop :=
  ∀ occurrence ∈ occurrences, ∀ placed ∈ occurrence.scopes, placed ∈ outer ∨ place <+: placed.place

theorem local_occurrences (marks : Marks) (place : Place) (outer : List PlacedScope) :
    Local place outer (marks.occurrences (marks.scopesAt place outer)) := by
  intro occurrence member placed inside
  obtain ⟨symbol, -, rfl⟩ := List.mem_map.mp member
  rcases mem_scopesAt inside with around | rfl
  · exact .inl around
  · exact .inr (List.prefix_refl _)

theorem Local.append {place : Place} {outer : List PlacedScope} {first second : List Occurrence}
    (left : Local place outer first) (right : Local place outer second) :
    Local place outer (first ++ second) := by
  intro occurrence member
  rcases List.mem_append.mp member with member | member
  · exact left occurrence member
  · exact right occurrence member

theorem Local.of_inner {marks : Marks} {place : Place} {outer : List PlacedScope}
    {occurrences : List Occurrence}
    (inner : Local place (marks.scopesAt place outer) occurrences) :
    Local place outer occurrences := by
  intro occurrence member placed inside
  rcases inner occurrence member placed inside with around | within
  · rcases mem_scopesAt around with around | rfl
    · exact .inl around
    · exact .inr (List.prefix_refl _)
  · exact .inr within

mutual

theorem local_occurrencesAt (place : Place) (outer : List PlacedScope) :
    ∀ node : Node, Local place outer (node.occurrencesAt place outer)
  | .leaf _ marks => local_occurrences marks place outer
  | .form _ marks => local_occurrences marks place outer
  | .group _ children marks =>
      (local_occurrences marks place outer).append
        (local_occurrencesBelow place 0 (marks.scopesAt place outer) children).of_inner
  | .fragment children marks =>
      (local_occurrences marks place outer).append
        (local_occurrencesBelow place 0 (marks.scopesAt place outer) children).of_inner

theorem local_occurrencesBelow (parent : Place) (index : Nat) (outer : List PlacedScope) :
    ∀ nodes : List Node, Local parent outer (Node.occurrencesBelow parent index outer nodes)
  | [] => by
      intro occurrence member
      cases member
  | node :: rest => by
      refine Local.append (fun occurrence member placed inside => ?_)
        (local_occurrencesBelow parent (index + 1) outer rest)
      rcases local_occurrencesAt (parent ++ [index]) outer node occurrence member placed inside with
        around | within
      · exact .inl around
      · exact .inr ((List.prefix_append parent [index]).trans within)

end

/-- Nothing at or below a place is open, or was mentioned before. -/
def Ahead (place : Place) (outer : List PlacedScope) (history : List Occurrence) : Prop :=
  Unvisited place (outer ++ history.flatMap Occurrence.scopes)

theorem Ahead.nodup {place : Place} {outer : List PlacedScope} {history : List Occurrence}
    (ahead : Ahead place outer history) (distinct : outer.Nodup) (marks : Marks) :
    (marks.scopesAt place outer).Nodup := by
  rw [Marks.scopesAt]
  cases marks.scope with
  | none => exact distinct
  | some scope =>
      refine List.nodup_cons.mpr ⟨fun member => ?_, distinct⟩
      exact ahead _ (List.mem_append_left _ member) (List.prefix_refl place)

theorem Ahead.children {place : Place} {outer : List PlacedScope} {history : List Occurrence}
    (ahead : Ahead place outer history) (marks : Marks) (index : Nat) :
    Ahead (place ++ [index]) (marks.scopesAt place outer)
      (history ++ marks.occurrences (marks.scopesAt place outer)) := by
  obtain ⟨aheadOuter, aheadHistory⟩ := unvisited_append.mp ahead
  have inner : Unvisited (place ++ [index]) (marks.scopesAt place outer) := by
    intro placed member within
    rcases mem_scopesAt member with around | rfl
    · exact aheadOuter.child index placed around within
    · exact absurd within.length_le (by simp)
  rw [Ahead, List.flatMap_append, unvisited_append, unvisited_append]
  refine ⟨inner, aheadHistory.child index, ?_⟩
  intro placed member
  obtain ⟨occurrence, own, inside⟩ := List.mem_flatMap.mp member
  obtain ⟨symbol, -, rfl⟩ := List.mem_map.mp own
  exact inner placed inside

/-- The next child is still ahead when the one before it has been walked through. -/
theorem Ahead.sibling {parent : Place} {index other : Nat} (different : index ≠ other)
    {outer : List PlacedScope} {history : List Occurrence}
    (ahead : Ahead (parent ++ [other]) outer history) {occurrences : List Occurrence}
    (inside : Local (parent ++ [index]) outer occurrences) :
    Ahead (parent ++ [other]) outer (history ++ occurrences) := by
  obtain ⟨aheadOuter, aheadHistory⟩ := unvisited_append.mp ahead
  rw [Ahead, List.flatMap_append, unvisited_append, unvisited_append]
  refine ⟨aheadOuter, aheadHistory, ?_⟩
  intro placed member
  obtain ⟨occurrence, earlier, mentioned⟩ := List.mem_flatMap.mp member
  rcases inside occurrence earlier placed mentioned with around | within
  · exact aheadOuter placed around
  · exact not_within_sibling different within

/-! ### The induction -/

mutual

/-- **The walk through a tree follows the occurrences in it.** -/
theorem follows_node (history : List Occurrence) (place : Place) (outer : List PlacedScope)
    (distinct : outer.Nodup) (ahead : Ahead place outer history) :
    ∀ node : Node, Follows all history outer node.trail (node.occurrencesAt place outer)
  | .leaf _ marks | .form _ marks => by
      have walk : Follows all history outer (marks.enclose [])
          (marks.occurrences (marks.scopesAt place outer) ++ []) :=
        .enclose (ahead.nodup distinct marks) (unvisited_append.mp ahead).2 (.nil _ _)
      rwa [List.append_nil] at walk
  | .group _ children marks | .fragment children marks =>
      Follows.enclose (ahead.nodup distinct marks) (unvisited_append.mp ahead).2
        (follows_nodes _ place 0 _ (ahead.nodup distinct marks)
          (fun index _ => ahead.children marks index) children)

theorem follows_nodes (history : List Occurrence) (parent : Place) (index : Nat)
    (outer : List PlacedScope) (distinct : outer.Nodup)
    (ahead : ∀ other, index ≤ other → Ahead (parent ++ [other]) outer history) :
    ∀ nodes : List Node,
      Follows all history outer (Node.trails nodes) (Node.occurrencesBelow parent index outer nodes)
  | [] => .nil history outer
  | node :: rest =>
      (follows_node history (parent ++ [index]) outer distinct (ahead index (Nat.le_refl index))
        node).append
      (follows_nodes _ parent (index + 1) outer distinct
        (fun other later => (ahead other (Nat.le_of_succ_le later)).sibling (Nat.ne_of_lt later)
          (local_occurrencesAt (parent ++ [index]) outer node)) rest)

end

end Walk

/-! ## The two readings -/

theorem Marks.symbols_occurrences (marks : Marks) (scopes : List PlacedScope) :
    (marks.occurrences scopes).map Occurrence.symbol = marks.symbols := by
  rw [Marks.occurrences, List.map_map]
  exact List.map_id _

mutual

theorem symbols_occurrencesAt (place : Place) (outer : List PlacedScope) :
    ∀ node : Node, (node.occurrencesAt place outer).map Occurrence.symbol =
      node.trail.filterMap TrailStep.symbol?
  | .leaf _ marks | .form _ marks => by
      simp [Node.occurrencesAt, Node.trail, Node.symbols_enclose, Marks.symbols_occurrences]
  | .group _ children marks | .fragment children marks => by
      simp only [Node.occurrencesAt, Node.trail, Node.symbols_enclose, List.map_append,
        Marks.symbols_occurrences, symbols_occurrencesBelow place 0 _ children]

theorem symbols_occurrencesBelow (parent : Place) (index : Nat) (outer : List PlacedScope) :
    ∀ nodes : List Node, (Node.occurrencesBelow parent index outer nodes).map Occurrence.symbol =
      (Node.trails nodes).filterMap TrailStep.symbol?
  | [] => rfl
  | node :: rest => by
      simp only [Node.occurrencesBelow, Node.trails_cons, List.map_append, List.filterMap_append,
        symbols_occurrencesAt (parent ++ [index]) outer node,
        symbols_occurrencesBelow parent (index + 1) outer rest]

end

/-- Occurrences are the uses of symbols, each with its scopes. -/
theorem symbols_occurrences (nodes : List Node) :
    (Node.occurrences nodes).map Occurrence.symbol = Node.uses nodes :=
  symbols_occurrencesBelow [] 0 [] nodes

theorem duplicate?_enterAll (earlier : List Occurrence) (occurrence : Occurrence) :
    (SymbolTable.empty.enterAll (earlier.map Occurrence.symbol)).duplicate? occurrence.symbol =
      moduleProblem? earlier occurrence := by
  obtain ⟨scopes, role, space, name, arity⟩ := occurrence
  cases role with
  | reference => rfl
  | declare =>
      by_cases moduleLevel : space.IsModuleLevel
      · have declares := SymbolTable.declares_enterAll SymbolTable.empty
          (earlier.map Occurrence.symbol) moduleLevel name
        rw [SymbolTable.declares_empty] at declares
        simp only [Bool.false_eq_true, false_or, List.mem_map] at declares
        simp [SymbolTable.duplicate?, moduleProblem?, moduleLevel, declares]
      · simp [SymbolTable.duplicate?, moduleProblem?, moduleLevel,
          SymbolTable.declares_eq_false _ moduleLevel]

/-- The first reading follows its rule. -/
theorem duplicates_eq_diagnose (earlier occurrences : List Occurrence) :
    (SymbolTable.empty.enterAll (earlier.map Occurrence.symbol)).duplicates
        (occurrences.map Occurrence.symbol) =
      diagnose moduleProblem? earlier occurrences := by
  induction occurrences generalizing earlier with
  | nil => rfl
  | cons occurrence rest ih =>
      have next := ih (earlier ++ [occurrence])
      rw [List.map_append, SymbolTable.enterAll_append] at next
      rw [List.map_cons, SymbolTable.duplicates, diagnose, duplicate?_enterAll, ← next]
      rfl

/-- **The check reports what the rules say.** First, in pre-order, the second declarations of
functions, globals and tables, then, again in pre-order, all else. -/
theorem symbolErrors_eq_diagnose (nodes : List Node) :
    symbolErrors nodes =
      diagnose moduleProblem? [] (Node.occurrences nodes) ++
        diagnose (scopeProblem? (Node.occurrences nodes)) [] (Node.occurrences nodes) := by
  have walk : Follows (Node.occurrences nodes) [] [] (Node.trails nodes) (Node.occurrences nodes) :=
    follows_nodes [] [] 0 [] .nil (fun _ _ placed member => by cases member) nodes
  have first := duplicates_eq_diagnose [] (Node.occurrences nodes)
  have second := walk.1
  rw [symbols_occurrences] at first second
  rw [symbolErrors]
  exact congrArg₂ (· ++ ·) first second

/-- The outcome of the check by the rules: success if they find nothing, else a report of the first
twenty diagnostics that counts all of them. -/
theorem checkSymbols_by_rules (nodes : List Node) :
    let occurrences := Node.occurrences nodes
    let diagnostics := diagnose moduleProblem? [] occurrences ++
      diagnose (scopeProblem? occurrences) [] occurrences
    symbolErrors nodes = diagnostics ∧
      checkSymbols nodes =
        if diagnostics = [] then .ok ()
        else .error { errors := diagnostics.take 20, total := diagnostics.length } := by
  intro occurrences diagnostics
  have same : symbolErrors nodes = diagnostics := symbolErrors_eq_diagnose nodes
  refine ⟨same, ?_⟩
  rw [checkSymbols, same, Report.ofList_eq, Report.verdict, Report.hasErrors]
  cases diagnostics with
  | nil => rfl
  | cons first rest => rfl

end WasmWorkshop
