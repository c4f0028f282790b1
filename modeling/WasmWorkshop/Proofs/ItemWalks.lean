import WasmWorkshop.Proofs.Trail

/-!
# Items are walked through one by one

Every node closes the scopes that it opens, and a use of a symbol opens and closes none, so a walk
through a tree ends with the same scopes open as it began (`keepsScopes_trail`). Outside of all
scopes nothing can be declared. The stack is therefore empty again after each top-level node, and
the second reading finds in a list of nodes what it finds in each of them by itself
(`resolutionErrors_trails`); the children of a top-level node without a scope are no different
(`resolutionErrors_unscoped`).

All that the items share is the table, and a use asks the table about its own name only. Where two
tables agree on the names that are asked for, the second reading finds the same with either
(`resolutionErrors_congr`), and what a table resolves is resolved by each table that agrees with it
on the names it declares (`resolutionErrors_eq_nil_of_agreeAt`).
-/

set_option autoImplicit false

namespace WasmWorkshop

/-! ## The scopes that are open -/

namespace ScopeStack

/-- The open scopes without the names in them, the innermost first. -/
def scopes (stack : ScopeStack) : List Scope := stack.frames.map Frame.scope

theorem scopes_push (stack : ScopeStack) (scope : Scope) :
    (stack.push scope).scopes = scope :: stack.scopes := rfl

@[simp] theorem scopes_pop (stack : ScopeStack) : stack.pop.scopes = stack.scopes.tail :=
  List.map_tail

theorem eq_empty_of_scopes {stack : ScopeStack} (none : stack.scopes = []) : stack = .empty := by
  obtain ⟨frames⟩ := stack
  exact congrArg ScopeStack.mk (List.map_eq_nil_iff.mp none)

theorem scopes_addLocal? {name : String} {frames added : List Frame}
    (found : addLocal? name frames = some added) :
    added.map Frame.scope = frames.map Frame.scope := by
  induction frames generalizing added with
  | nil => cases found
  | cons frame rest ih =>
      rw [addLocal?] at found
      split at found
      · obtain ⟨-, same⟩ := Option.ite_none_left_eq_some.mp found
        obtain rfl := Option.some.inj same
        rfl
      · obtain ⟨below, foundBelow, rfl⟩ := Option.map_eq_some_iff.mp found
        rw [List.map_cons, List.map_cons, ih foundBelow]

theorem scopes_addLabel? {name : String} {frames added : List Frame}
    (found : addLabel? name frames = some added) :
    added.map Frame.scope = frames.map Frame.scope := by
  cases frames with
  | nil => cases found
  | cons frame rest =>
      obtain ⟨-, same⟩ := Option.ite_none_left_eq_some.mp found
      obtain rfl := Option.some.inj same
      rfl

theorem scopes_defineLocal (stack : ScopeStack) (name : String) :
    (stack.defineLocal name).2.scopes = stack.scopes := by
  rw [defineLocal]
  split
  · next frames found => exact scopes_addLocal? found
  · rfl

theorem scopes_defineLabel (stack : ScopeStack) (name : String) :
    (stack.defineLabel name).2.scopes = stack.scopes := by
  rw [defineLabel]
  split
  · next frames found => exact scopes_addLabel? found
  · rfl

/-- **A use opens no scope and closes none.** -/
theorem scopes_afterUse (stack : ScopeStack) (symbol : SymbolUse) :
    (stack.afterUse symbol).scopes = stack.scopes := by
  rw [afterUse]
  split
  · exact scopes_defineLocal stack symbol.name
  · exact scopes_defineLabel stack symbol.name
  · rfl

end ScopeStack

/-- A trail on which every scope is closed that was opened on it, and no other. -/
def KeepsScopes (trail : List TrailStep) : Prop :=
  ∀ stack : ScopeStack, (stack.afterAll trail).scopes = stack.scopes

namespace KeepsScopes

theorem nil : KeepsScopes [] := fun _ => rfl

theorem append {first second : List TrailStep} (left : KeepsScopes first)
    (right : KeepsScopes second) : KeepsScopes (first ++ second) := by
  intro stack
  rw [ScopeStack.afterAll_append, right, left]

theorem uses (symbols : List SymbolUse) : KeepsScopes (symbols.map .use) := by
  induction symbols with
  | nil => exact nil
  | cons symbol rest ih =>
      intro stack
      exact (ih (stack.afterUse symbol)).trans (stack.scopes_afterUse symbol)

theorem enclose {inner : List TrailStep} (keeps : KeepsScopes inner) (marks : Marks) :
    KeepsScopes (marks.enclose inner) := by
  have own : KeepsScopes (marks.symbols.map .use ++ inner) := (uses marks.symbols).append keeps
  rw [Marks.enclose]
  cases marks.scope with
  | none => exact own
  | some scope =>
      intro stack
      have inside : ((stack.push scope).afterAll (marks.symbols.map .use ++ inner)).scopes =
          scope :: stack.scopes := own (stack.push scope)
      change ((stack.push scope).afterAll (marks.symbols.map .use ++ inner ++ [.leave])).scopes =
        stack.scopes
      rw [ScopeStack.afterAll_append, ScopeStack.afterAll_cons, ScopeStack.afterAll_nil,
        ScopeStack.after, ScopeStack.scopes_pop, inside, List.tail_cons]

/-- From no open scope such a trail leads back to none. -/
theorem afterAll_empty {trail : List TrailStep} (keeps : KeepsScopes trail) :
    ScopeStack.empty.afterAll trail = .empty :=
  ScopeStack.eq_empty_of_scopes (keeps .empty)

end KeepsScopes

mutual

/-- **A tree closes the scopes that it opens.** -/
theorem keepsScopes_trail : ∀ node : Node, KeepsScopes node.trail
  | .leaf _ marks | .form _ marks => KeepsScopes.nil.enclose marks
  | .group _ children marks | .fragment children marks =>
      (keepsScopes_trails children).enclose marks

theorem keepsScopes_trails : ∀ nodes : List Node, KeepsScopes (Node.trails nodes)
  | [] => .nil
  | node :: rest => (keepsScopes_trail node).append (keepsScopes_trails rest)

end

/-! ## The second reading of items -/

/-- **Each item is read from an empty stack**, whatever stands before it. -/
theorem resolutionErrors_trails (table : SymbolTable) (nodes : List Node) :
    resolutionErrors table .empty (Node.trails nodes) =
      nodes.flatMap fun node => resolutionErrors table .empty node.trail := by
  induction nodes with
  | nil => rfl
  | cons node rest ih =>
      rw [Node.trails_cons, resolutionErrors_append, (keepsScopes_trail node).afterAll_empty, ih,
        List.flatMap_cons]

/-- A node without a scope is read from an empty stack symbol by symbol, and then child by
child. -/
theorem resolutionErrors_unscoped (table : SymbolTable) {node : Node}
    (unscoped : node.marks.scope = none) :
    resolutionErrors table .empty node.trail =
      resolutionErrors table .empty (node.marks.symbols.map .use) ++
        resolutionErrors table .empty (Node.trails node.children) := by
  have apart : node.trail = node.marks.symbols.map .use ++ Node.trails node.children := by
    rw [Node.trail_eq, Marks.enclose, unscoped]
  rw [apart, resolutionErrors_append, (KeepsScopes.uses node.marks.symbols).afterAll_empty]

/-! ## What is asked of the table -/

/-- Two tables that tell the same of a name. -/
structure SymbolTable.AgreeAt (table other : SymbolTable) (space : Namespace) (name : String) :
    Prop where
  declares : table.declares space name = other.declares space name
  arity : space = .function → table.functions.lookup name = other.functions.lookup name

section Agreeing

variable {table other : SymbolTable}

/-- A reference asks the table about its own name only. -/
theorem referenceError?_congr {symbol : SymbolUse}
    (agree : table.AgreeAt other symbol.space symbol.name) (stack : ScopeStack) :
    referenceError? table stack symbol = referenceError? other stack symbol := by
  obtain ⟨role, space, name, arity⟩ := symbol
  cases space with
  | function => simp only [referenceError?, agree.declares, agree.arity rfl]
  | global | table => simp only [referenceError?, agree.declares]
  | localVariable | label => rfl

theorem useError?_congr {symbol : SymbolUse}
    (agree : table.AgreeAt other symbol.space symbol.name) (stack : ScopeStack) :
    useError? table stack symbol = useError? other stack symbol := by
  have reference := referenceError?_congr agree stack
  obtain ⟨role, space, name, arity⟩ := symbol
  cases role with
  | declare => cases space <;> rfl
  | reference => exact reference

/-- **Tables that agree on every name** lead the second reading to the same errors. -/
theorem resolutionErrors_congr (agree : ∀ space name, table.AgreeAt other space name)
    (stack : ScopeStack) (trail : List TrailStep) :
    resolutionErrors table stack trail = resolutionErrors other stack trail := by
  induction trail generalizing stack with
  | nil => rfl
  | cons step rest ih =>
      rw [resolutionErrors, resolutionErrors, ih]
      cases step with
      | enter scope => rfl
      | leave => rfl
      | use symbol =>
          rw [stepError?, stepError?, useError?_congr (agree symbol.space symbol.name)]

/-- A reference that a table resolves is to a name that the table declares, or to a local or a
label. -/
theorem useError?_eq_none_of_agreeAt
    (agree : ∀ space name, table.declares space name = true → table.AgreeAt other space name)
    {stack : ScopeStack} {symbol : SymbolUse} (resolved : useError? table stack symbol = none) :
    useError? other stack symbol = none := by
  obtain ⟨role, space, name, arity⟩ := symbol
  cases role with
  | declare => cases space <;> exact resolved
  | reference =>
      cases space with
      | localVariable | label => exact resolved
      | function | global | table =>
          cases declared : table.declares _ name with
          | true => rw [← useError?_congr (agree _ name declared)]; exact resolved
          | false => simp [useError?, referenceError?, declared] at resolved

/-- **A larger table resolves no less.** -/
theorem resolutionErrors_eq_nil_of_agreeAt
    (agree : ∀ space name, table.declares space name = true → table.AgreeAt other space name)
    {stack : ScopeStack} {trail : List TrailStep}
    (resolved : resolutionErrors table stack trail = []) :
    resolutionErrors other stack trail = [] := by
  induction trail generalizing stack with
  | nil => rfl
  | cons step rest ih =>
      obtain ⟨here, further⟩ := List.append_eq_nil_iff.mp resolved
      refine List.append_eq_nil_iff.mpr ⟨?_, ih further⟩
      cases step with
      | enter scope => rfl
      | leave => rfl
      | use symbol =>
          rw [Option.toList_eq_nil_iff, stepError?, Option.map_eq_none_iff] at here ⊢
          exact useError?_eq_none_of_agreeAt agree here

end Agreeing

end WasmWorkshop
