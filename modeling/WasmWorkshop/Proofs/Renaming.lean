import Mathlib.Data.List.Forall2
import WasmWorkshop.Proofs.NamespaceSlices

/-!
# Names are only compared

A renaming gives every symbol a new name, by an injective map for each namespace, and every scope
of a function a new name by any map at all (`Renaming`). The check of a renamed tree finds what the
check of the tree finds, about the renamed symbols and in the renamed functions
(`Renaming.symbolErrors_nodes`).

The reason is that the check compares names of one namespace and does nothing else with them. The
table and the stack of a renamed tree are, after each step, the renamed table and the renamed stack
(`Renaming.table_enter`, `Renaming.stack_after`), and what is looked up in them is found exactly if
it was found before. The names of scopes are never compared: a local belongs to the frame it was
declared in and not to a function of a certain name. So two functions may be given one name, and
their locals stay apart.
-/

set_option autoImplicit false

namespace WasmWorkshop

/-! ## Renamings -/

/-- New names for symbols and for the functions that are scopes. -/
structure Renaming where
  /-- The new name of a symbol of a namespace. -/
  symbolName : Namespace → String → String
  /-- No two symbols of one namespace get the same name. -/
  injective : ∀ space, Function.Injective (symbolName space)
  /-- The new name of a function where it is a scope. -/
  scopeName : String → String

namespace Renaming

variable (spelling : Renaming)

/-- The use of a renamed symbol. -/
def use (symbol : SymbolUse) : SymbolUse :=
  { symbol with name := spelling.symbolName symbol.space symbol.name }

/-- The renamed scope. -/
def scope : Scope → Scope
  | .function name => .function (spelling.scopeName name)
  | .label => .label

/-- The marks of a node with all names changed. -/
def marks (marks : Marks) : Marks :=
  { symbols := marks.symbols.map spelling.use, scope := marks.scope.map spelling.scope }

/-- The trees with the names in all marks changed. -/
def nodes (nodes : List Node) : List Node := Node.remarkAll spelling.marks nodes

/-- The step of a renamed trail. -/
def step : TrailStep → TrailStep
  | .enter scope => .enter (spelling.scope scope)
  | .use symbol => .use (spelling.use symbol)
  | .leave => .leave

/-- The table of the renamed symbols. -/
def table (table : SymbolTable) : SymbolTable where
  functions := table.functions.map fun entry => (spelling.symbolName .function entry.1, entry.2)
  globals := table.globals.map (spelling.symbolName .global)
  tables := table.tables.map (spelling.symbolName .table)

/-- The frame of a renamed scope, with its names changed. -/
def frame (frame : Frame) : Frame where
  scope := spelling.scope frame.scope
  locals := frame.locals.map (spelling.symbolName .localVariable)
  labels := frame.labels.map (spelling.symbolName .label)

/-- The stack of the renamed frames. -/
def stack (stack : ScopeStack) : ScopeStack := ⟨stack.frames.map spelling.frame⟩

/-- The second diagnostic says of the renamed symbol, in the renamed function, what the first one
says. The message differs in nothing but the name. -/
structure Renames (diagnostic renamed : Diagnostic) : Prop where
  kind : renamed.kind = diagnostic.kind
  code : renamed.code = diagnostic.code
  space : renamed.space = diagnostic.space
  name : renamed.name = spelling.symbolName diagnostic.space diagnostic.name
  function : renamed.function = diagnostic.function.map spelling.scopeName
  message : ∃ before after, diagnostic.message = before ++ sigil diagnostic.name ++ after ∧
    renamed.message = before ++ sigil renamed.name ++ after

/-! ## Diagnostics -/

theorem renames_ofKind (kind : DiagnosticKind) (space : Namespace) (name before after : String) :
    spelling.Renames (.ofKind kind space name (before ++ sigil name ++ after))
      (.ofKind kind space (spelling.symbolName space name)
        (before ++ sigil (spelling.symbolName space name) ++ after)) :=
  ⟨rfl, rfl, rfl, rfl, rfl, before, after, rfl, rfl⟩

theorem renames_duplicate (space : Namespace) (name : String) :
    spelling.Renames (.duplicate space name)
      (.duplicate space (spelling.symbolName space name)) := by
  have renames := spelling.renames_ofKind .duplicateDeclaration space name
    ("duplicate " ++ space.noun ++ " ") ""
  simpa only [Diagnostic.duplicate, String.append_empty] using renames

theorem renames_undeclared (space : Namespace) (name : String) :
    spelling.Renames (.undeclared space name)
      (.undeclared space (spelling.symbolName space name)) := by
  have renames := spelling.renames_ofKind .undeclaredSymbol space name
    ("undeclared " ++ space.noun ++ " ") ""
  simpa only [Diagnostic.undeclared, String.append_empty] using renames

theorem renames_mismatch (space : Namespace) (name : String) (actual expected : Nat) :
    spelling.Renames (.mismatch space name actual expected)
      (.mismatch space (spelling.symbolName space name) actual expected) := by
  have renames := spelling.renames_ofKind .arityMismatch space name "call to "
    (" passes " ++ toString actual ++ " argument(s), expected " ++ toString expected)
  simpa only [Diagnostic.mismatch, String.append_assoc] using renames

variable {spelling}

theorem Renames.inFunction {diagnostic renamed : Diagnostic}
    (renames : spelling.Renames diagnostic renamed) (function : String) :
    spelling.Renames (diagnostic.inFunction function)
      (renamed.inFunction (spelling.scopeName function)) :=
  ⟨renames.kind, renames.code, renames.space, renames.name, rfl, renames.message⟩

variable (spelling)

/-! ## Trails -/

theorem trail_enclose (marks : Marks) (inner : List TrailStep) :
    (spelling.marks marks).enclose (inner.map spelling.step) =
      (marks.enclose inner).map spelling.step := by
  obtain ⟨symbols, scope⟩ := marks
  have own : (symbols.map spelling.use).map TrailStep.use =
      (symbols.map TrailStep.use).map spelling.step := by
    rw [List.map_map, List.map_map]
    rfl
  cases scope with
  | none => simp only [marks, Marks.enclose, Option.map_none, own, List.map_append]
  | some scope =>
      simp only [marks, Marks.enclose, Option.map_some, own, List.map_append, List.map_cons,
        List.map_nil, step]

mutual

theorem trail_remark : ∀ node : Node,
    (node.remark spelling.marks).trail = node.trail.map spelling.step
  | .leaf _ marks | .form _ marks => spelling.trail_enclose marks []
  | .group _ children marks | .fragment children marks => by
      have below := trails_remarkAll children
      simp only [Node.remark, Node.trail, below, spelling.trail_enclose]

theorem trails_remarkAll : ∀ nodes : List Node,
    Node.trails (Node.remarkAll spelling.marks nodes) = (Node.trails nodes).map spelling.step
  | [] => rfl
  | node :: rest => by
      rw [Node.remarkAll, Node.trails_cons, Node.trails_cons, List.map_append,
        trail_remark node, trails_remarkAll rest]

end

/-- The uses in a renamed tree are the renamed uses. -/
theorem uses_nodes (nodes : List Node) :
    Node.uses (spelling.nodes nodes) = (Node.uses nodes).map spelling.use := by
  rw [Node.uses, Renaming.nodes, spelling.trails_remarkAll, List.filterMap_map, Node.uses,
    List.map_filterMap]
  refine List.filterMap_congr fun step _ => ?_
  cases step <;> rfl

/-! ## The table -/

/-- A name is found in an association list of renamed names exactly if it was found before. -/
theorem lookup_map {α : Type} {rename : String → String} (injective : Function.Injective rename)
    (entries : List (String × α)) (name : String) :
    (entries.map fun entry => (rename entry.1, entry.2)).lookup (rename name) =
      entries.lookup name := by
  induction entries with
  | nil => rfl
  | cons entry rest ih =>
      obtain ⟨known, value⟩ := entry
      have same : (rename name == rename known) = (name == known) := by
        rw [Bool.eq_iff_iff, beq_iff_eq, beq_iff_eq, injective.eq_iff]
      rw [List.map_cons, List.lookup_cons, List.lookup_cons, same, ih]

theorem lookup_table (table : SymbolTable) (name : String) :
    (spelling.table table).functions.lookup (spelling.symbolName .function name) =
      table.functions.lookup name :=
  lookup_map (spelling.injective .function) table.functions name

/-- **The renamed table has the renamed names** and no others. -/
theorem declares_table (table : SymbolTable) (space : Namespace) (name : String) :
    (spelling.table table).declares space (spelling.symbolName space name) =
      table.declares space name := by
  have found (names : List String) :
      spelling.symbolName space name ∈ names.map (spelling.symbolName space) ↔ name ∈ names :=
    List.mem_map_of_injective (spelling.injective space)
  cases space with
  | function =>
      rw [SymbolTable.declares_function, SymbolTable.declares_function, spelling.lookup_table]
  | global => exact decide_eq_decide.mpr (found table.globals)
  | table => exact decide_eq_decide.mpr (found table.tables)
  | localVariable | label => rfl

/-- **To enter a renamed use** is to rename the table after the use. -/
theorem table_enter (table : SymbolTable) (symbol : SymbolUse) :
    (spelling.table table).enter (spelling.use symbol) = spelling.table (table.enter symbol) := by
  obtain ⟨role, space, name, arity⟩ := symbol
  cases role with
  | reference => rfl
  | declare => cases space <;> rfl

theorem table_enterAll (table : SymbolTable) (symbols : List SymbolUse) :
    (spelling.table table).enterAll (symbols.map spelling.use) =
      spelling.table (table.enterAll symbols) := by
  induction symbols generalizing table with
  | nil => rfl
  | cons symbol rest ih =>
      rw [List.map_cons, SymbolTable.enterAll_cons, spelling.table_enter, ih]
      rfl

theorem renames_duplicate? (table : SymbolTable) (symbol : SymbolUse) :
    Option.Rel spelling.Renames (table.duplicate? symbol)
      ((spelling.table table).duplicate? (spelling.use symbol)) := by
  obtain ⟨role, space, name, arity⟩ := symbol
  cases role with
  | reference => exact .none
  | declare =>
      simp only [SymbolTable.duplicate?, use, spelling.declares_table]
      split
      · exact .some (spelling.renames_duplicate space name)
      · exact .none

end Renaming

/-- At most one element on either side, related if there is one. -/
theorem forall₂_toList {α β : Type} {related : α → β → Prop} {first : Option α} {second : Option β}
    (rel : Option.Rel related first second) :
    List.Forall₂ related first.toList second.toList := by
  cases rel with
  | none => exact .nil
  | some holds => exact .cons holds .nil

namespace Renaming

variable (spelling : Renaming)

/-- **The first reading** finds the same duplicates, renamed. -/
theorem renames_duplicates (table : SymbolTable) (symbols : List SymbolUse) :
    List.Forall₂ spelling.Renames (table.duplicates symbols)
      ((spelling.table table).duplicates (symbols.map spelling.use)) := by
  induction symbols generalizing table with
  | nil => exact .nil
  | cons symbol rest ih =>
      rw [List.map_cons, SymbolTable.duplicates, SymbolTable.duplicates, spelling.table_enter]
      apply List.rel_append
      · exact forall₂_toList (spelling.renames_duplicate? table symbol)
      · exact ih (table.enter symbol)

/-! ## The stack -/

theorem isFunction_frame (frame : Frame) :
    (spelling.frame frame).isFunction = frame.isFunction := by
  obtain ⟨scope, locals, labels⟩ := frame
  cases scope <;> rfl

theorem mem_locals_frame (frame : Frame) (name : String) :
    spelling.symbolName .localVariable name ∈ (spelling.frame frame).locals ↔
      name ∈ frame.locals :=
  List.mem_map_of_injective (spelling.injective .localVariable)

theorem mem_labels_frame (frame : Frame) (name : String) :
    spelling.symbolName .label name ∈ (spelling.frame frame).labels ↔ name ∈ frame.labels :=
  List.mem_map_of_injective (spelling.injective .label)

theorem currentFunction_stack (stack : ScopeStack) :
    (spelling.stack stack).currentFunction = stack.currentFunction.map spelling.scopeName := by
  obtain ⟨frames⟩ := stack
  induction frames with
  | nil => rfl
  | cons frame rest ih =>
      obtain ⟨scope, locals, labels⟩ := frame
      cases scope with
      | function name => rfl
      | label => exact ih

theorem upToFunction_frames (frames : List Frame) :
    ScopeStack.upToFunction (frames.map spelling.frame) =
      (ScopeStack.upToFunction frames).map spelling.frame := by
  induction frames with
  | nil => rfl
  | cons frame rest ih =>
      rw [List.map_cons, ScopeStack.upToFunction, ScopeStack.upToFunction,
        spelling.isFunction_frame, ih]
      split <;> rfl

theorem hasLocal_stack (stack : ScopeStack) (name : String) :
    (spelling.stack stack).hasLocal (spelling.symbolName .localVariable name) =
      stack.hasLocal name := by
  simp only [ScopeStack.hasLocal, ScopeStack.visible, Renaming.stack, spelling.upToFunction_frames,
    List.any_map, Function.comp_def, spelling.isFunction_frame, spelling.mem_locals_frame]

theorem hasLabel_stack (stack : ScopeStack) (name : String) :
    (spelling.stack stack).hasLabel (spelling.symbolName .label name) = stack.hasLabel name := by
  simp only [ScopeStack.hasLabel, ScopeStack.visible, Renaming.stack, spelling.upToFunction_frames,
    List.any_map, Function.comp_def, spelling.mem_labels_frame]

theorem addLocal?_frames (name : String) (frames : List Frame) :
    ScopeStack.addLocal? (spelling.symbolName .localVariable name) (frames.map spelling.frame) =
      (ScopeStack.addLocal? name frames).map (List.map spelling.frame) := by
  induction frames with
  | nil => rfl
  | cons frame rest ih =>
      simp only [List.map_cons, ScopeStack.addLocal?, spelling.isFunction_frame,
        spelling.mem_locals_frame, ih]
      split
      · split <;> rfl
      · cases ScopeStack.addLocal? name rest <;> rfl

theorem addLabel?_frames (name : String) (frames : List Frame) :
    ScopeStack.addLabel? (spelling.symbolName .label name) (frames.map spelling.frame) =
      (ScopeStack.addLabel? name frames).map (List.map spelling.frame) := by
  cases frames with
  | nil => rfl
  | cons frame rest =>
      simp only [List.map_cons, ScopeStack.addLabel?, spelling.mem_labels_frame]
      split <;> rfl

theorem defineLocal_stack (stack : ScopeStack) (name : String) :
    (spelling.stack stack).defineLocal (spelling.symbolName .localVariable name) =
      ((stack.defineLocal name).1, spelling.stack (stack.defineLocal name).2) := by
  have added := spelling.addLocal?_frames name stack.frames
  simp only [ScopeStack.defineLocal, Renaming.stack, added]
  cases ScopeStack.addLocal? name stack.frames <;> rfl

theorem defineLabel_stack (stack : ScopeStack) (name : String) :
    (spelling.stack stack).defineLabel (spelling.symbolName .label name) =
      ((stack.defineLabel name).1, spelling.stack (stack.defineLabel name).2) := by
  have added := spelling.addLabel?_frames name stack.frames
  simp only [ScopeStack.defineLabel, Renaming.stack, added]
  cases ScopeStack.addLabel? name stack.frames <;> rfl

theorem stack_afterUse (stack : ScopeStack) (symbol : SymbolUse) :
    (spelling.stack stack).afterUse (spelling.use symbol) =
      spelling.stack (stack.afterUse symbol) := by
  obtain ⟨role, space, name, arity⟩ := symbol
  cases role with
  | reference => rfl
  | declare =>
      cases space with
      | localVariable => exact congrArg Prod.snd (spelling.defineLocal_stack stack name)
      | label => exact congrArg Prod.snd (spelling.defineLabel_stack stack name)
      | function | global | table => rfl

/-- **A renamed step** leads from the renamed stack to the renamed stack. -/
theorem stack_after (stack : ScopeStack) (step : TrailStep) :
    (spelling.stack stack).after (spelling.step step) = spelling.stack (stack.after step) := by
  cases step with
  | enter scope => rfl
  | use symbol => exact spelling.stack_afterUse stack symbol
  | leave =>
      obtain ⟨frames⟩ := stack
      exact congrArg ScopeStack.mk List.map_tail.symm

/-! ## The second reading -/

theorem renames_arityError? (name : String) (declared used : Option Nat) :
    Option.Rel spelling.Renames (arityError? name declared used)
      (arityError? (spelling.symbolName .function name) declared used) := by
  cases declared with
  | none => exact .none
  | some expected =>
      cases used with
      | none => exact .none
      | some actual =>
          simp only [arityError?]
          split
          · exact .none
          · exact .some (spelling.renames_mismatch .function name actual expected)

/-- What is wrong with a renamed reference is what was wrong with it. -/
theorem renames_referenceError? (table : SymbolTable) (stack : ScopeStack) (symbol : SymbolUse) :
    Option.Rel spelling.Renames (referenceError? table stack symbol)
      (referenceError? (spelling.table table) (spelling.stack stack) (spelling.use symbol)) := by
  obtain ⟨role, space, name, arity⟩ := symbol
  have undeclared : Option.Rel spelling.Renames (some (.undeclared space name))
      (some (.undeclared space (spelling.symbolName space name))) :=
    .some (spelling.renames_undeclared space name)
  cases space with
  | function =>
      simp only [referenceError?, use, spelling.declares_table, spelling.lookup_table]
      split
      · cases table.functions.lookup name with
        | none => exact .none
        | some declared => exact spelling.renames_arityError? name declared arity
      · exact undeclared
  | global | table =>
      simp only [referenceError?, use, spelling.declares_table]
      split
      · exact .none
      · exact undeclared
  | localVariable =>
      simp only [referenceError?, use, spelling.hasLocal_stack]
      split
      · exact .none
      · exact undeclared
  | label =>
      simp only [referenceError?, use, spelling.hasLabel_stack]
      split
      · exact .none
      · exact undeclared

theorem renames_useError? (table : SymbolTable) (stack : ScopeStack) (symbol : SymbolUse) :
    Option.Rel spelling.Renames (useError? table stack symbol)
      (useError? (spelling.table table) (spelling.stack stack) (spelling.use symbol)) := by
  have reference := spelling.renames_referenceError? table stack symbol
  obtain ⟨role, space, name, arity⟩ := symbol
  cases role with
  | reference => exact reference
  | declare =>
      cases space with
      | localVariable =>
          simp only [useError?, use, spelling.currentFunction_stack, Option.isSome_map,
            spelling.defineLocal_stack]
          split
          · exact .some (spelling.renames_duplicate .localVariable name)
          · exact .none
      | function | global | table | label => exact .none

theorem renames_locate (stack : ScopeStack) {diagnostic renamed : Diagnostic}
    (renames : spelling.Renames diagnostic renamed) :
    spelling.Renames (stack.locate diagnostic) ((spelling.stack stack).locate renamed) := by
  rw [ScopeStack.locate, ScopeStack.locate, spelling.currentFunction_stack]
  cases stack.currentFunction with
  | none => exact renames
  | some function => exact renames.inFunction function

theorem renames_stepError? (table : SymbolTable) (stack : ScopeStack) (step : TrailStep) :
    Option.Rel spelling.Renames (stepError? table stack step)
      (stepError? (spelling.table table) (spelling.stack stack) (spelling.step step)) := by
  cases step with
  | enter scope => exact .none
  | leave => exact .none
  | use symbol =>
      have unplaced := spelling.renames_useError? table stack symbol
      rw [step, stepError?, stepError?]
      -- Whether there is an error decides on both sides whether there is one to locate.
      generalize useError? table stack symbol = found at unplaced ⊢
      generalize useError? (spelling.table table) _ _ = renamed at unplaced ⊢
      cases unplaced with
      | none => exact .none
      | some renames => exact .some (spelling.renames_locate stack renames)

/-- **The second reading** finds the same errors, renamed. -/
theorem renames_resolutionErrors (table : SymbolTable) (stack : ScopeStack)
    (trail : List TrailStep) :
    List.Forall₂ spelling.Renames (resolutionErrors table stack trail)
      (resolutionErrors (spelling.table table) (spelling.stack stack)
        (trail.map spelling.step)) := by
  induction trail generalizing stack with
  | nil => exact .nil
  | cons step rest ih =>
      rw [List.map_cons, resolutionErrors, resolutionErrors, spelling.stack_after]
      apply List.rel_append
      · exact forall₂_toList (spelling.renames_stepError? table stack step)
      · exact ih (stack.after step)

/-! ## The check -/

/-- **The errors of a renamed tree** are those of the tree, one by one, about the renamed symbols
and in the renamed functions. -/
theorem symbolErrors_nodes (nodes : List Node) :
    List.Forall₂ spelling.Renames (symbolErrors nodes) (symbolErrors (spelling.nodes nodes)) := by
  rw [symbolErrors, symbolErrors, spelling.uses_nodes]
  apply List.rel_append
  · exact spelling.renames_duplicates .empty (Node.uses nodes)
  · have table := spelling.table_enterAll .empty (Node.uses nodes)
    have resolution := spelling.renames_resolutionErrors
      (SymbolTable.empty.enterAll (Node.uses nodes)) .empty (Node.trails nodes)
    rw [← table, ← spelling.trails_remarkAll] at resolution
    exact resolution

/-- **The check does not depend on the choice of names.** A renamed tree is accepted exactly if the
tree is, with as many errors, and the reports agree position by position: kind, code and namespace
are the same, the symbol is renamed within its namespace and the function as a scope. -/
theorem check_renamed (nodes : List Node) :
    (checkSymbols (spelling.nodes nodes) = .ok () ↔ checkSymbols nodes = .ok ()) ∧
      (reported (checkSymbols (spelling.nodes nodes))).total =
        (reported (checkSymbols nodes)).total ∧
      List.Forall₂ spelling.Renames (reported (checkSymbols nodes)).errors
        (reported (checkSymbols (spelling.nodes nodes))).errors := by
  have errors := spelling.symbolErrors_nodes nodes
  refine ⟨?_, ?_, ?_⟩
  · rw [checkSymbols_eq_ok_iff, checkSymbols_eq_ok_iff, ← List.length_eq_zero_iff,
      ← List.length_eq_zero_iff, errors.length_eq]
  · simp only [reported_checkSymbols, errors.length_eq]
  · simp only [reported_checkSymbols]
    exact List.forall₂_take reportLimit errors

/-- Every symbol with a mark before its name, and one name for the scopes of all functions. -/
def oneScope : Renaming where
  symbolName _ name := "_" ++ name
  injective := by
    intro space first second same
    exact (String.append_right_inj "_").mp same
  scopeName _ := "f"

/-- Two functions, of which the second one reads the local of the first. -/
def strayLocal : List Node :=
  [.group ["func", "$a", "(local $i i32)"] []
      { symbols := [.declaring .function "a", .declaring .localVariable "i"]
        scope := some (.function "a") },
    .group ["func", "$b"] [(Node.ofHeader ["local.get", "$i"]).referring .localVariable "i"]
      { symbols := [.declaring .function "b"], scope := some (.function "b") }]

/-- The local stays unknown in the second function when both scopes have one name. -/
theorem check_renamed_one_scope :
    (reported (checkSymbols (oneScope.nodes strayLocal))).total = 1 ∧
      ∃ renamed, (reported (checkSymbols (oneScope.nodes strayLocal))).errors = [renamed] ∧
        renamed.name = "_i" ∧ renamed.function = some "f" := by
  obtain ⟨-, total, errors⟩ := oneScope.check_renamed strayLocal
  have found : (reported (checkSymbols strayLocal)).errors =
      [(Diagnostic.undeclared .localVariable "i").inFunction "b"] := by
    decide
  rw [found] at errors
  refine ⟨total.trans (by decide), ?_⟩
  cases errors with
  | cons renames none =>
      cases none
      exact ⟨_, rfl, renames.name, renames.function⟩

end Renaming

end WasmWorkshop
