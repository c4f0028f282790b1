import WasmWorkshop.Proofs.Outline
import WasmWorkshop.Proofs.Trail

/-!
# The check against the text

A node is faithful if its marks are the ones that its text calls for (`Meaning.marks`): a call
refers to the function it names with the number of its operands, a function declares itself and the
names in its header, and so on. For trees of faithful nodes in which functions stand at the level of
the module only (`Node.IsField`), both readings of the check are passes over the lines of the text:
the second one goes through its segments (`fieldWalks_field`), and the table of the first one is
read off its lines (`enterAll_lineSymbols`).

Inside a function the stack of the check is as simple as it can be: a frame for each block and loop
around, with one label in it, on top of the frame of the function (`openScopes`). Its locals grow
by the lines that declare one, so the walk through a body is a pass over its lines (`Walks`).
-/

set_option autoImplicit false

namespace WasmWorkshop

/-! ## Faithful nodes -/

/-- The marks that a meaning calls for. -/
def Meaning.marks : Meaning → Marks
  | .other => {}
  | .function name params locals =>
    { symbols := (SymbolUse.declaring .function name).withArity params.length ::
        (params ++ locals).map (.declaring .localVariable)
      scope := some (.function name) }
  | .importedFunction name params =>
    { symbols := [(SymbolUse.declaring .function name).withArity params] }
  | .global name => { symbols := [.declaring .global name] }
  | .table name => { symbols := [.declaring .table name] }
  | .call name operands => { symbols := [(SymbolUse.referring .function name).withArity operands] }
  | .functionUse name => { symbols := [.referring .function name] }
  | .globalUse name => { symbols := [.referring .global name] }
  | .localForm name => { symbols := [.declaring .localVariable name] }
  | .localUse name => { symbols := [.referring .localVariable name] }
  | .labelled name => { symbols := [.declaring .label name], scope := some .label }
  | .labelUse name => { symbols := [.referring .label name] }

/-- Whether a line opens a function. -/
def Meaning.isFunction : Meaning → Bool
  | .function _ _ _ => true
  | _ => false

theorem isFunction_named (word : String) {meaning : String → Meaning}
    (noFunction : ∀ name, (meaning name).isFunction = false) :
    (((symbolName? word).map meaning).getD .other).isFunction = false := by
  cases symbolName? word with
  | none => rfl
  | some name => exact noFunction name

@[simp] theorem isFunction_lineMeaning (text : String) :
    (lineMeaning text).isFunction = false := by
  unfold lineMeaning
  split
  · exact isFunction_named _ fun _ => rfl
  · split
    · exact isFunction_named _ fun _ => rfl
    · rfl
  · rfl

@[simp] theorem isFunction_formMeaning (header : List String) :
    (formMeaning header).isFunction = false := by
  unfold formMeaning
  split
  · unfold importMeaning
    split
    · split
      · exact isFunction_named _ fun _ => rfl
      · rfl
    · rfl
  · refine isFunction_named _ fun name => ?_
    unfold namedFormMeaning
    repeat' split
    all_goals rfl
  · rfl

/-- A tree of faithful nodes without a function in it. -/
inductive Node.IsPlain : Node → Prop
  | leaf (text : String) : IsPlain (.leaf text (lineMeaning text).marks)
  | form (header : List String) : IsPlain (.form header (formMeaning header).marks)
  | group {header : List String} {children : List Node}
      (noFunction : (groupMeaning header children.length).isFunction = false)
      (plain : ∀ child ∈ children, IsPlain child) :
      IsPlain (.group header children (groupMeaning header children.length).marks)
  | fragment {children : List Node} (plain : ∀ child ∈ children, IsPlain child) :
      IsPlain (.fragment children {})

/-- A tree of faithful nodes in which functions are not nested. -/
inductive Node.IsField : Node → Prop
  | plain {node : Node} (plain : node.IsPlain) : IsField node
  | function {header : List String} {children : List Node} {name : String}
      {params locals : List String}
      (meaning : groupMeaning header children.length = .function name params locals)
      (plain : ∀ child ∈ children, child.IsPlain) :
      IsField (.group header children (Meaning.function name params locals).marks)
  | group {header : List String} {children : List Node}
      (meaning : groupMeaning header children.length = .other)
      (fields : ∀ child ∈ children, IsField child) : IsField (.group header children {})
  | fragment {children : List Node} (fields : ∀ child ∈ children, IsField child) :
      IsField (.fragment children {})

@[simp] theorem Node.length_outlines (nodes : List Node) :
    (Node.outlines nodes).length = nodes.length := by
  induction nodes with
  | nil => rfl
  | cons node rest ih => simp [Node.outlines, ih]

/-! ## Walking through the lines of a body -/

/-- The stack inside the blocks and loops with the given labels and, if there is one, inside a
function with the given locals. -/
def openScopes (labels : List String) (function : Option (String × List String)) : ScopeStack where
  frames := labels.map (fun label => { scope := .label, labels := [label] }) ++
    (function.map fun known => { scope := .function known.1, locals := known.2 }).toList

/-- The function with the local that a line declares. -/
def Meaning.declareIn (function : Option (String × List String)) :
    Meaning → Option (String × List String)
  | .localForm name => function.map fun known => (known.1, known.2.insert name)
  | _ => function

/-- The function after some lines. -/
def declareAll (function : Option (String × List String)) (lines : List Line) :
    Option (String × List String) :=
  lines.foldl (fun function line => line.meaning.declareIn function) function

/-- A line that the check accepts, given the declarations of the module and the locals so far. -/
def Line.Accepted (table : SymbolTable) (function : Option (String × List String)) (line : Line) :
    Prop :=
  match line.meaning with
  | .call name operands => ∃ arity, table.functions.lookup name = some arity ∧
      arityError? name arity (some operands) = none
  | .functionUse name => (table.functions.lookup name).isSome
  | .globalUse name => name ∈ table.globals
  | .localForm name => ∀ known ∈ function, name ∉ known.2
  | .localUse name => ∃ known ∈ function, name ∈ known.2
  | .labelUse name => name ∈ line.labels
  | _ => True

/-- Lines that the check accepts one after another. -/
def LinesAccepted (table : SymbolTable) (function : Option (String × List String)) :
    List Line → Prop
  | [] => True
  | line :: rest =>
    line.Accepted table function ∧ LinesAccepted table (line.meaning.declareIn function) rest

theorem declareAll_append (function : Option (String × List String)) (first second : List Line) :
    declareAll function (first ++ second) = declareAll (declareAll function first) second :=
  List.foldl_append

theorem linesAccepted_append (table : SymbolTable) (function : Option (String × List String))
    (first second : List Line) :
    LinesAccepted table function (first ++ second) ↔
      LinesAccepted table function first ∧
        LinesAccepted table (declareAll function first) second := by
  induction first generalizing function with
  | nil => simp [LinesAccepted, declareAll]
  | cons line rest ih =>
      simp only [List.cons_append, LinesAccepted, ih, and_assoc]
      rfl

/-- The walk through a stretch of the trail is the pass over the given lines. -/
def Walks (table : SymbolTable) (labels : List String) (function : Option (String × List String))
    (trail : List TrailStep) (lines : List Line) : Prop :=
  (resolutionErrors table (openScopes labels function) trail = [] ↔
    LinesAccepted table function lines) ∧
  (openScopes labels function).afterAll trail = openScopes labels (declareAll function lines)

section Walks

variable {table : SymbolTable} {labels : List String} {function : Option (String × List String)}

theorem Walks.nil : Walks table labels function [] [] := ⟨iff_of_true rfl trivial, rfl⟩

theorem Walks.append {first second : List TrailStep} {firstLines secondLines : List Line}
    (before : Walks table labels function first firstLines)
    (after : Walks table labels (declareAll function firstLines) second secondLines) :
    Walks table labels function (first ++ second) (firstLines ++ secondLines) := by
  constructor
  · rw [resolutionErrors_append, List.append_eq_nil_iff, before.1, before.2, after.1,
      linesAccepted_append]
  · rw [ScopeStack.afterAll_append, before.2, after.2, declareAll_append]

/-! ### Looking up in open scopes -/

@[simp] theorem visible_openScopes_none :
    (openScopes labels none).visible =
      labels.map fun label => { scope := .label, labels := [label] } := by
  rw [ScopeStack.visible, openScopes]
  induction labels with
  | nil => rfl
  | cons label rest ih =>
      simp only [Option.map_none, Option.toList_none, List.append_nil] at ih
      simp [ScopeStack.upToFunction, Frame.isFunction, ih]

@[simp] theorem visible_openScopes_some (known : String × List String) :
    (openScopes labels (some known)).visible =
      (openScopes labels (some known)).frames := by
  rw [ScopeStack.visible, openScopes]
  induction labels with
  | nil => simp [ScopeStack.upToFunction, Frame.isFunction]
  | cons label rest ih =>
      simp only [Option.map_some, Option.toList_some] at ih
      simp [ScopeStack.upToFunction, Frame.isFunction, ih]

theorem hasLocal_openScopes (name : String) :
    (openScopes labels function).hasLocal name = true ↔ ∃ known ∈ function, name ∈ known.2 := by
  cases function with
  | none => simp [ScopeStack.hasLocal, Frame.isFunction]
  | some known =>
      rw [ScopeStack.hasLocal, visible_openScopes_some]
      simp [openScopes, Frame.isFunction]

theorem hasLabel_openScopes (name : String) :
    (openScopes labels function).hasLabel name = true ↔ name ∈ labels := by
  cases function with
  | none => simp [ScopeStack.hasLabel]
  | some known =>
      rw [ScopeStack.hasLabel, visible_openScopes_some]
      simp [openScopes]

theorem defineLocal_openScopes (name : String) :
    (openScopes labels function).defineLocal name =
      ((function.map fun known => decide (name ∉ known.2)).getD false,
        openScopes labels ((Meaning.localForm name).declareIn function)) := by
  have frames : ScopeStack.addLocal? name (openScopes labels function).frames =
      function.bind fun known =>
        if name ∈ known.2 then none
        else some (openScopes labels (some (known.1, name :: known.2))).frames := by
    rw [openScopes]
    induction labels with
    | nil => cases function <;> simp [ScopeStack.addLocal?, Frame.isFunction, openScopes]
    | cons label rest ih =>
        simp only [List.map_cons, List.cons_append, ScopeStack.addLocal?, Frame.isFunction,
          Bool.false_eq_true, if_false, ih]
        cases function with
        | none => rfl
        | some known => by_cases present : name ∈ known.2 <;> simp [present, openScopes]
  unfold ScopeStack.defineLocal
  rw [frames]
  cases function with
  | none => rfl
  | some known =>
      by_cases present : name ∈ known.2 <;> simp [present, Meaning.declareIn, openScopes]

theorem currentFunction_openScopes :
    (openScopes labels function).currentFunction = function.map Prod.fst := by
  rw [ScopeStack.currentFunction, openScopes]
  induction labels with
  | nil => cases function <;> rfl
  | cons label rest ih => exact ih

/-! ### Faithful trees -/

theorem stepError?_eq_none_iff (stack : ScopeStack) (symbol : SymbolUse) :
    stepError? table stack (.use symbol) = none ↔ useError? table stack symbol = none := by
  rw [stepError?, Option.map_eq_none_iff]

theorem resolutionErrors_use (stack : ScopeStack) (symbol : SymbolUse) :
    resolutionErrors table stack [.use symbol] = [] ↔ useError? table stack symbol = none := by
  rw [resolutionErrors, resolutionErrors, List.append_nil, Option.toList_eq_nil_iff,
    stepError?_eq_none_iff]

/-- A use that leaves the stack alone. -/
theorem Walks.use {symbol : SymbolUse} {meaning : Meaning}
    (accepted : useError? table (openScopes labels function) symbol = none ↔
      Line.Accepted table function ⟨labels, meaning⟩)
    (unchanged : (openScopes labels function).afterUse symbol = openScopes labels function)
    (undeclaring : meaning.declareIn function = function) :
    Walks table labels function [.use symbol] [⟨labels, meaning⟩] := by
  constructor
  · rw [resolutionErrors_use, accepted, LinesAccepted, LinesAccepted, and_true]
  · rw [declareAll, List.foldl_cons, List.foldl_nil, undeclaring]
    exact unchanged

/-- The walk through the declaration of a local. -/
theorem Walks.localForm (name : String) :
    Walks table labels function [.use (.declaring .localVariable name)]
      [⟨labels, .localForm name⟩] := by
  constructor
  · rw [resolutionErrors_use, LinesAccepted, LinesAccepted, and_true]
    cases function with
    | none => simp [useError?, SymbolUse.declaring, currentFunction_openScopes, Line.Accepted]
    | some known =>
        simp [useError?, SymbolUse.declaring, currentFunction_openScopes, defineLocal_openScopes,
          Line.Accepted]
  · exact congrArg Prod.snd (defineLocal_openScopes name)

/-- The walk through the own uses of a node that opens no scope. -/
theorem Walks.own {meaning : Meaning} (noFunction : meaning.isFunction = false)
    (noLabel : ∀ name, meaning ≠ .labelled name) :
    Walks table labels function (meaning.marks.symbols.map .use) [⟨labels, meaning⟩] := by
  cases meaning with
  | other => exact ⟨iff_of_true rfl ⟨trivial, trivial⟩, rfl⟩
  | function name params locals => cases noFunction
  | labelled name => exact absurd rfl (noLabel name)
  | localForm name => exact .localForm name
  | importedFunction name params => exact .use (iff_of_true rfl trivial) rfl rfl
  | global name => exact .use (iff_of_true rfl trivial) rfl rfl
  | table name => exact .use (iff_of_true rfl trivial) rfl rfl
  | localUse name =>
      refine .use ?_ rfl rfl
      have known : (openScopes labels function).hasLocal name = true ↔ _ :=
        hasLocal_openScopes name
      show _ ↔ ∃ known ∈ function, name ∈ known.2
      rw [← known]
      by_cases declared : (openScopes labels function).hasLocal name = true <;>
        simp [useError?, referenceError?, SymbolUse.referring, declared]
  | labelUse name =>
      refine .use ?_ rfl rfl
      simp [useError?, referenceError?, SymbolUse.referring, hasLabel_openScopes, Line.Accepted]
  | globalUse name =>
      refine .use ?_ rfl rfl
      simp [useError?, referenceError?, SymbolUse.referring, Line.Accepted]
  | functionUse name =>
      refine .use ?_ rfl rfl
      cases known : table.functions.lookup name with
      | none =>
          simp [useError?, referenceError?, SymbolUse.referring, Line.Accepted, known]
      | some arity =>
          cases arity <;>
            simp [useError?, referenceError?, SymbolUse.referring, Line.Accepted, known,
              arityError?]
  | call name operands =>
      refine .use ?_ rfl rfl
      cases known : table.functions.lookup name <;>
        simp [useError?, referenceError?, SymbolUse.referring, SymbolUse.withArity, Line.Accepted,
          known]

theorem Meaning.scope_marks {meaning : Meaning} (noFunction : meaning.isFunction = false)
    (noLabel : ∀ name, meaning ≠ .labelled name) : meaning.marks.scope = none := by
  cases meaning with
  | function name params locals => cases noFunction
  | labelled name => exact absurd rfl (noLabel name)
  | _ => rfl

theorem Meaning.labelsInside_eq {meaning : Meaning} (noFunction : meaning.isFunction = false)
    (noLabel : ∀ name, meaning ≠ .labelled name) (labels : List String) :
    meaning.labelsInside labels = labels := by
  cases meaning with
  | function name params locals => cases noFunction
  | labelled name => exact absurd rfl (noLabel name)
  | _ => rfl

/-- The walk through a node whose meaning is not a function, from the walk through its
children. -/
theorem Walks.enclose {meaning : Meaning} (noFunction : meaning.isFunction = false)
    {inner : List TrailStep} {lines : List Line}
    (children : ∀ function, Walks table (meaning.labelsInside labels) function inner lines) :
    Walks table labels function (meaning.marks.enclose inner) (⟨labels, meaning⟩ :: lines) := by
  by_cases label : ∃ name, meaning = .labelled name
  · obtain ⟨name, rfl⟩ := label
    obtain ⟨errors, stack⟩ := children function
    have opened : ((openScopes labels function).push .label).afterUse (.declaring .label name) =
        openScopes (name :: labels) function := by
      simp [ScopeStack.afterUse, SymbolUse.declaring, ScopeStack.push, ScopeStack.defineLabel,
        ScopeStack.addLabel?, openScopes]
    have declared : stepError? table ((openScopes labels function).push .label)
        (.use (.declaring .label name)) = none := rfl
    constructor
    · simp only [Marks.enclose, Meaning.marks, List.map_cons, List.map_nil, List.cons_append,
        List.nil_append, resolutionErrors, stepError?.eq_2, stepError?.eq_3, declared,
        Option.toList_none, resolutionErrors_append, ScopeStack.after, opened, List.append_nil]
      simp only [LinesAccepted, Line.Accepted, true_and]
      exact errors
    · simp only [Marks.enclose, Meaning.marks, List.map_cons, List.map_nil, List.cons_append,
        List.nil_append, ScopeStack.afterAll_cons, ScopeStack.afterAll_append, ScopeStack.after,
        opened, ScopeStack.afterAll_nil]
      simp only [Meaning.labelsInside] at stack
      rw [stack]
      rfl
  · have noLabel : ∀ name, meaning ≠ .labelled name := fun name same => label ⟨name, same⟩
    have own : Walks table labels function (meaning.marks.symbols.map .use) [⟨labels, meaning⟩] :=
      .own noFunction noLabel
    have walk := own.append (by
      have rest := children (declareAll function [⟨labels, meaning⟩])
      rwa [Meaning.labelsInside_eq noFunction noLabel] at rest)
    simpa only [Marks.enclose, Meaning.scope_marks noFunction noLabel, List.singleton_append]
      using walk

/-- The walk through a list of trees, from the walks through each of them. -/
theorem walks_nodes {nodes : List Node}
    (each : ∀ node ∈ nodes, ∀ function,
      Walks table labels function node.trail (node.outline.lines labels)) :
    ∀ function, Walks table labels function (Node.trails nodes)
      (Outline.linesOf labels (Node.outlines nodes)) := by
  induction nodes with
  | nil => exact fun _ => .nil
  | cons node rest ih =>
      intro function
      exact (each node List.mem_cons_self function).append
        (ih (fun other member => each other (List.mem_cons_of_mem node member)) _)

variable (table) in
/-- **The walk through a plain tree is the pass over its lines.** -/
theorem walks_plain {node : Node} (plain : node.IsPlain) :
    ∀ labels function, Walks table labels function node.trail (node.outline.lines labels) := by
  induction plain with
  | leaf text => exact fun labels function => .enclose (isFunction_lineMeaning text) fun _ => .nil
  | form header =>
      exact fun labels function => .enclose (isFunction_formMeaning header) fun _ => .nil
  | @group header children noFunction _ ih =>
      intro labels function
      have below := walks_nodes fun child member function =>
        ih child member ((groupMeaning header children.length).labelsInside labels) function
      rw [Node.outline, Outline.lines, Node.length_outlines]
      exact .enclose noFunction below
  | @fragment children _ ih =>
      intro labels function
      exact walks_nodes (fun child member function => ih child member labels function) function

end Walks

/-! ## Walking through the segments of a module -/

/-- A segment that the check accepts. The names in the header of a function are declared before its
lines. -/
def Segment.Accepted (table : SymbolTable) : Segment → Prop
  | .stray line => line.Accepted table none
  | .function name params locals body =>
    LinesAccepted table (some (name, [])) ((params ++ locals).map (⟨[], .localForm ·⟩) ++ body)

/-- The walk through a stretch of the trail, outside of functions, is the pass over the given
segments. It leaves nothing open. -/
def FieldWalks (table : SymbolTable) (trail : List TrailStep) (segments : List Segment) : Prop :=
  (resolutionErrors table .empty trail = [] ↔ ∀ segment ∈ segments, segment.Accepted table) ∧
  ScopeStack.empty.afterAll trail = .empty

theorem Outline.segmentsOf_eq_map {labels : List String} {nodes : List Node}
    (each : ∀ node ∈ nodes,
      node.outline.segments labels = (node.outline.lines labels).map .stray) :
    Outline.segmentsOf labels (Node.outlines nodes) =
      (Outline.linesOf labels (Node.outlines nodes)).map .stray := by
  induction nodes with
  | nil => rfl
  | cons node rest ih =>
      rw [Node.outlines, Outline.segmentsOf, Outline.linesOf, List.map_append,
        each node List.mem_cons_self,
        ih fun other member => each other (List.mem_cons_of_mem node member)]

/-- A plain tree has no function in it, so all of its lines are on their own. -/
theorem segments_plain {node : Node} (plain : node.IsPlain) :
    ∀ labels, node.outline.segments labels = (node.outline.lines labels).map .stray := by
  induction plain with
  | leaf text => exact fun _ => rfl
  | form header => exact fun _ => rfl
  | @group header children noFunction _ ih =>
      intro labels
      have below := Outline.segmentsOf_eq_map fun child member =>
        ih child member ((groupMeaning header children.length).labelsInside labels)
      rw [Node.outline, Outline.segments, Outline.lines, Node.length_outlines]
      cases meaning : groupMeaning header children.length with
      | function name params locals =>
          rw [meaning] at noFunction
          cases noFunction
      | _ => rw [meaning] at below; simp [below]
  | @fragment children _ ih =>
      exact fun labels => Outline.segmentsOf_eq_map fun child member => ih child member labels

theorem declareAll_none (lines : List Line) : declareAll none lines = none := by
  induction lines with
  | nil => rfl
  | cons line rest ih =>
      have unchanged : line.meaning.declareIn none = none := by cases line.meaning <;> rfl
      rw [declareAll, List.foldl_cons, unchanged]
      exact ih

theorem linesAccepted_none (table : SymbolTable) (lines : List Line) :
    LinesAccepted table none lines ↔ ∀ line ∈ lines, line.Accepted table none := by
  induction lines with
  | nil => simp [LinesAccepted]
  | cons line rest ih =>
      have unchanged : line.meaning.declareIn none = none := by cases line.meaning <;> rfl
      simp [LinesAccepted, unchanged, ih]

section FieldWalks

variable {table : SymbolTable}

theorem FieldWalks.append {first second : List TrailStep}
    {firstSegments secondSegments : List Segment} (before : FieldWalks table first firstSegments)
    (after : FieldWalks table second secondSegments) :
    FieldWalks table (first ++ second) (firstSegments ++ secondSegments) := by
  constructor
  · rw [resolutionErrors_append, List.append_eq_nil_iff, before.1, before.2, after.1,
      List.forall_mem_append]
  · rw [ScopeStack.afterAll_append, before.2, after.2]

/-- Outside of functions the walk through a plain tree accepts or refuses each line on its own. -/
theorem FieldWalks.plain {node : Node} (plain : node.IsPlain) :
    FieldWalks table node.trail (node.outline.segments []) := by
  obtain ⟨errors, stack⟩ := walks_plain table plain [] none
  rw [segments_plain plain]
  refine ⟨errors.trans ?_, ?_⟩
  · rw [linesAccepted_none]
    simp [Segment.Accepted]
  · rw [declareAll_none] at stack
    exact stack

variable (table) in
/-- The walk through the names that the header of a function declares. -/
theorem walks_header (function : Option (String × List String)) (names : List String) :
    Walks table [] function ((names.map (SymbolUse.declaring .localVariable)).map .use)
      (names.map (⟨[], .localForm ·⟩)) := by
  induction names generalizing function with
  | nil => exact .nil
  | cons name rest ih => exact (Walks.localForm name).append (ih _)

/-- The walk through a function: it opens an empty frame, and closes it at the end. -/
theorem FieldWalks.function {name : String} {params locals : List String}
    {inner : List TrailStep} {body : List Line}
    (children : ∀ function, Walks table [] function inner body) :
    FieldWalks table ((Meaning.function name params locals).marks.enclose inner)
      [.function name params locals body] := by
  obtain ⟨errors, stack⟩ :=
    (walks_header table (some (name, [])) (params ++ locals)).append (children _)
  have opened : ScopeStack.empty.push (.function name) = openScopes [] (some (name, [])) := rfl
  have declared (stack : ScopeStack) : stepError? table stack
      (.use ((SymbolUse.declaring .function name).withArity params.length)) = none := rfl
  have unchanged : (openScopes [] (some (name, []))).afterUse
      ((SymbolUse.declaring .function name).withArity params.length) =
        openScopes [] (some (name, [])) := rfl
  constructor
  · simp only [Marks.enclose, Meaning.marks, List.map_cons, List.cons_append, resolutionErrors,
      stepError?.eq_2, stepError?.eq_3, Option.toList_none, List.nil_append,
      resolutionErrors_append, List.append_nil, ScopeStack.after, opened, declared, unchanged]
    rw [← resolutionErrors_append, errors, List.forall_mem_singleton]
    rfl
  · simp only [Marks.enclose, Meaning.marks, List.map_cons, List.cons_append,
      ScopeStack.afterAll_cons, ScopeStack.after, opened, unchanged]
    rw [ScopeStack.afterAll_append, stack]
    cases declareAll (some (name, []))
      ((params ++ locals).map (⟨[], .localForm ·⟩) ++ body) <;> rfl

theorem fieldWalks_nodes {nodes : List Node}
    (each : ∀ node ∈ nodes, FieldWalks table node.trail (node.outline.segments [])) :
    FieldWalks table (Node.trails nodes) (Outline.segmentsOf [] (Node.outlines nodes)) := by
  induction nodes with
  | nil => exact ⟨iff_of_true rfl (by simp [Outline.segmentsOf, Node.outlines]), rfl⟩
  | cons node rest ih =>
      exact (each node List.mem_cons_self).append
        (ih fun other member => each other (List.mem_cons_of_mem node member))

variable (table) in
/-- **The walk through a field is the pass over its segments.** -/
theorem fieldWalks_field {node : Node} (field : node.IsField) :
    FieldWalks table node.trail (node.outline.segments []) := by
  induction field with
  | plain plain => exact .plain plain
  | @function header children name params locals meaning plain =>
      have below := walks_nodes fun child member function =>
        walks_plain table (plain child member) [] function
      rw [Node.outline, Outline.segments, Node.length_outlines, meaning]
      exact .function below
  | @group header children meaning _ ih =>
      have below := fieldWalks_nodes ih
      rw [Node.outline, Outline.segments, Node.length_outlines, meaning]
      refine ⟨below.1.trans ?_, below.2⟩
      simp [Segment.Accepted, Line.Accepted, Meaning.labelsInside]
  | @fragment children _ ih => exact fieldWalks_nodes ih

end FieldWalks

/-! ## The declarations of a module -/

/-- All lines of a segment. -/
def Segment.lines : Segment → List Line
  | .stray line => [line]
  | .function name params locals body => ⟨[], .function name params locals⟩ :: body

/-- The symbols that lines call for. -/
def lineSymbols (lines : List Line) : List SymbolUse :=
  lines.flatMap fun line => line.meaning.marks.symbols

theorem lineSymbols_append (first second : List Line) :
    lineSymbols (first ++ second) = lineSymbols first ++ lineSymbols second :=
  List.flatMap_append

theorem uses_nodes {labels : List String} {nodes : List Node}
    (each : ∀ node ∈ nodes, node.marks.symbols ++ Node.uses node.children =
      lineSymbols (node.outline.lines labels)) :
    Node.uses nodes = lineSymbols (Outline.linesOf labels (Node.outlines nodes)) := by
  induction nodes with
  | nil => rfl
  | cons node rest ih =>
      rw [Node.uses_cons, each node List.mem_cons_self,
        ih fun other member => each other (List.mem_cons_of_mem node member)]
      exact (lineSymbols_append _ _).symm

/-- The uses in a plain tree are those that its lines call for. -/
theorem uses_plain {node : Node} (plain : node.IsPlain) :
    ∀ labels, node.marks.symbols ++ Node.uses node.children =
      lineSymbols (node.outline.lines labels) := by
  induction plain with
  | leaf text => exact fun _ => rfl
  | form header => exact fun _ => rfl
  | @group header children noFunction _ ih =>
      intro labels
      have below := uses_nodes fun child member =>
        ih child member ((groupMeaning header children.length).labelsInside labels)
      rw [Node.outline, Outline.lines, Node.length_outlines, Node.children, below]
      rfl
  | @fragment children _ ih =>
      exact fun labels => uses_nodes fun child member => ih child member labels

theorem uses_field {node : Node} (field : node.IsField) :
    node.marks.symbols ++ Node.uses node.children = lineSymbols (node.outline.lines []) := by
  induction field with
  | plain plain => exact uses_plain plain []
  | @function header children name params locals meaning plain =>
      have below := uses_nodes fun child member => uses_plain (plain child member) []
      rw [Node.outline, Outline.lines, Node.length_outlines, meaning, Node.children, below]
      rfl
  | @group header children meaning _ ih =>
      have below := uses_nodes ih
      rw [Node.outline, Outline.lines, Node.length_outlines, meaning, Node.children, below]
      rfl
  | @fragment children _ ih => exact uses_nodes ih

theorem linesOf_eq_segments {nodes : List Node}
    (each : ∀ node ∈ nodes,
      node.outline.lines [] = (node.outline.segments []).flatMap Segment.lines) :
    Outline.linesOf [] (Node.outlines nodes) =
      (Outline.segmentsOf [] (Node.outlines nodes)).flatMap Segment.lines := by
  induction nodes with
  | nil => rfl
  | cons node rest ih =>
      rw [Node.outlines, Outline.linesOf, Outline.segmentsOf, List.flatMap_append,
        each node List.mem_cons_self,
        ih fun other member => each other (List.mem_cons_of_mem node member)]

/-- The segments of a field hold all of its lines. -/
theorem lines_eq_segments {node : Node} (field : node.IsField) :
    node.outline.lines [] = (node.outline.segments []).flatMap Segment.lines := by
  induction field with
  | plain plain =>
      rw [segments_plain plain, List.flatMap_map]
      exact (List.flatMap_singleton' _).symm
  | function meaning plain =>
      rw [Node.outline, Outline.lines, Outline.segments, Node.length_outlines, meaning]
      simp [Segment.lines, Meaning.labelsInside]
  | group meaning _ ih =>
      rw [Node.outline, Outline.lines, Outline.segments, Node.length_outlines, meaning]
      simp [Segment.lines, Meaning.labelsInside, linesOf_eq_segments ih]
  | fragment _ ih => exact linesOf_eq_segments ih

/-! ### The table of a text -/

/-- The table is read off the lines: the last declaration comes first. -/
theorem enterAll_lineSymbols (table : SymbolTable) (lines : List Line) :
    table.enterAll (lineSymbols lines) =
      { functions := (signatures lines).reverse.map (fun entry => (entry.1, some entry.2)) ++
          table.functions
        globals := (globalNames lines).reverse ++ table.globals
        tables := (tableNames lines).reverse ++ table.tables } := by
  induction lines generalizing table with
  | nil => rfl
  | cons line rest ih =>
      have locals (names : List String) (table : SymbolTable) :
          table.enterAll (names.map (.declaring .localVariable)) = table := by
        induction names with
        | nil => rfl
        | cons name rest ih => exact ih
      rw [lineSymbols, List.flatMap_cons, SymbolTable.enterAll_append]
      change SymbolTable.enterAll _ (lineSymbols rest) = _
      rw [ih]
      obtain ⟨labels, meaning⟩ := line
      cases meaning with
      | function name params own =>
          have entered : table.enterAll (Meaning.function name params own).marks.symbols =
              { table with functions := (name, some params.length) :: table.functions } :=
            locals (params ++ own) _
          rw [entered]
          simp [signatures, globalNames, tableNames, Meaning.signature?, Meaning.global?,
            Meaning.table?]
      | _ =>
          simp [signatures, globalNames, tableNames, Meaning.signature?, Meaning.global?,
            Meaning.table?, Meaning.marks, SymbolTable.enter, SymbolTable.add,
            SymbolUse.declaring, SymbolUse.referring, SymbolUse.withArity]

/-- What the lines declare in each namespace of the module. -/
theorem declaredNames_lineSymbols (lines : List Line) :
    declaredNames .function (lineSymbols lines) = (signatures lines).map Prod.fst ∧
      declaredNames .global (lineSymbols lines) = globalNames lines ∧
      declaredNames .table (lineSymbols lines) = tableNames lines := by
  induction lines with
  | nil => exact ⟨rfl, rfl, rfl⟩
  | cons line rest ih =>
      have locals (space : Namespace) (other : space ≠ .localVariable) (names : List String) :
          declaredNames space (names.map (.declaring .localVariable)) = [] := by
        simp [declaredNames, SymbolUse.declaring, Ne.symm other]
      have split (space : Namespace) : declaredNames space (lineSymbols (line :: rest)) =
          declaredNames space line.meaning.marks.symbols ++
            declaredNames space (lineSymbols rest) := by
        simp [declaredNames, lineSymbols]
      rw [split, split, split, ih.1, ih.2.1, ih.2.2]
      obtain ⟨labels, meaning⟩ := line
      cases meaning with
      | function name params own =>
          rw [Meaning.marks, declaredNames_cons, declaredNames_cons, declaredNames_cons,
            locals _ (by decide), locals _ (by decide), locals _ (by decide)]
          exact ⟨rfl, rfl, rfl⟩
      | _ => exact ⟨rfl, rfl, rfl⟩

end WasmWorkshop
