import WasmWorkshop.Proofs.ExportedForms
import WasmWorkshop.Proofs.ItemOrder
import WasmWorkshop.Proofs.ModuleBodies

/-!
# What a module exports

Operations make exports in two places only, behind a function and behind a memory, and both declare
what they export; a function also declares it by its marks (`FormsMatch`). The symbol check looks at
marks and not at exports. It accepts no function twice, and from that alone follows what can be said
of the exports of a finished module (`exports_of_finished`).

The memory has no mark. So a second memory is not noticed, and neither is an exported function with
the name under which the memory is exported (`exports_clash`).
-/

set_option autoImplicit false

namespace WasmWorkshop

/-! ## Forms and marks -/

/-- The functions that the headers of the nodes declare are those that their marks declare, and
their exports follow. -/
structure FormsMatch (nodes : List Node) : Prop where
  functions : (Node.formsAll nodes).filterMap ModuleForm.symbol? =
    (declaredNames .function (Node.uses nodes)).map sigil
  exports : ExportsFollow (Node.formsAll nodes)

namespace FormsMatch

variable {nodes more children : List Node} {header : List String} {marks : Marks}

theorem nil : FormsMatch [] := ⟨rfl, .nil⟩

theorem append (first : FormsMatch nodes) (second : FormsMatch more) :
    FormsMatch (nodes ++ more) where
  functions := by
    rw [Node.formsAll_append, Node.uses_append, List.filterMap_append, declaredNames_append,
      List.map_append, first.functions, second.functions]
  exports := by
    rw [Node.formsAll_append]
    exact first.exports.append second.exports

theorem cons {node : Node} (first : FormsMatch [node]) (rest : FormsMatch nodes) :
    FormsMatch (node :: nodes) := first.append rest

theorem two {first second : Node} (left : FormsMatch [first]) (right : FormsMatch [second]) :
    FormsMatch [first, second] := left.cons right

theorem ofEach (each : ∀ node ∈ nodes, FormsMatch [node]) : FormsMatch nodes := by
  induction nodes with
  | nil => exact .nil
  | cons node rest ih =>
      obtain ⟨first, others⟩ := List.forall_mem_cons.mp each
      exact first.cons (ih others)

theorem uses_singleton (node : Node) :
    Node.uses [node] = node.marks.symbols ++ Node.uses node.children := by
  rw [Node.uses_cons, Node.uses_nil, List.append_nil]

/-- A node that is no form of the module itself and declares no function. -/
theorem ordinary {node : Node} (noForm : node.header?.bind moduleForm? = none)
    (noFunction : declaredNames .function node.marks.symbols = [])
    (inside : FormsMatch node.children) : FormsMatch [node] := by
  have forms : Node.formsAll [node] = Node.formsAll node.children := by
    rw [Node.formsAll_singleton, Node.forms_of_noForm noForm]
  have declared : declaredNames .function (Node.uses [node]) =
      declaredNames .function (Node.uses node.children) := by
    rw [uses_singleton, declaredNames_append, noFunction]
    rfl
  refine ⟨?_, ?_⟩
  · rw [forms, declared]
    exact inside.functions
  · rw [forms]
    exact inside.exports

theorem convert (source target : ValueType) {operand : Node} (inside : FormsMatch [operand]) :
    FormsMatch [.convert source target operand] := by
  rw [Node.convert]
  cases source.conversion? target with
  | some instruction => exact .ordinary rfl rfl inside
  | none => exact inside

theorem ifThen (result : Option ValueType) {condition : Node} {consequent : List Node}
    {alternative : Option (List Node)} (conditionMatches : FormsMatch [condition])
    (consequentMatches : FormsMatch consequent)
    (alternativeMatches : ∀ nodes ∈ alternative, FormsMatch nodes) :
    FormsMatch [.ifThen result condition consequent alternative] := by
  have branch : FormsMatch [.ofGroup ["then"] consequent] := .ordinary rfl rfl consequentMatches
  have noForm : moduleForm? ("if" :: Node.resultTokens result) = none := by
    cases result <;> rfl
  cases alternative with
  | none => exact .ordinary noForm rfl (conditionMatches.cons branch)
  | some nodes =>
      have other : FormsMatch [.ofGroup ["else"] nodes] :=
        .ordinary rfl rfl (alternativeMatches nodes rfl)
      exact .ordinary noForm rfl (conditionMatches.cons (branch.cons other))

theorem loopWhile (label : String) {condition : Node} {body : List Node}
    (conditionMatches : FormsMatch [condition]) (bodyMatches : FormsMatch body) :
    FormsMatch [.loopWhile label condition body] := by
  have jump : FormsMatch [.breakIf label condition] := .ordinary rfl rfl conditionMatches
  exact .ordinary rfl rfl (bodyMatches.append jump)

theorem declareGlobal (isMutable : Bool) (name : String) (type : ValueType) {initial : Option Node}
    (inside : ∀ node ∈ initial, FormsMatch [node]) :
    FormsMatch [.declareGlobal isMutable name type initial] := by
  cases initial with
  | none => exact .ordinary rfl rfl .nil
  | some value => exact .ordinary rfl rfl (inside value rfl)

theorem elements {offset : Node} (inside : FormsMatch [offset]) (names : List String) :
    FormsMatch [.elements offset names] := by
  have lines : FormsMatch (names.map Node.elementLine) := by
    induction names with
    | nil => exact .nil
    | cons name names ih =>
        have line : FormsMatch [Node.elementLine name] := .ordinary rfl rfl .nil
        exact line.cons ih
  exact .ordinary rfl rfl (inside.cons lines)

theorem importFunction (library field : String) {name : String} (noSpace : ' ' ∉ name.toList)
    (params : List ValueType) : FormsMatch [.importFunction library field name params] := by
  have forms : Node.formsAll [.importFunction library field name params] =
      [.function (sigil name)] := by
    rw [Node.formsAll_singleton, Node.forms_importFunction library field noSpace params]
  refine ⟨?_, ?_⟩
  · rw [forms]
    rfl
  · rw [forms]
    exact .hidden name

theorem function (prototype : Prototype) {body : List Node} (inside : FormsMatch body) :
    FormsMatch [.function prototype body] := by
  have own : declaredNames .function (Node.functionSymbols prototype) = [prototype.name] := by
    simp [declaredNames, Node.functionSymbols, SymbolUse.declaring, SymbolUse.withArity]
  have uses : Node.uses [.function prototype body] =
      Node.functionSymbols prototype ++ Node.uses body := by
    have exportUses : Node.uses (if prototype.exported then [Node.functionExport prototype.name]
        else []) = [] := by
      cases prototype.exported <;> rfl
    rw [uses_singleton]
    change [] ++ Node.uses (_ :: _) = _
    rw [Node.uses_cons, exportUses, List.append_nil]
    rfl
  refine ⟨?_, ?_⟩
  · have noExport : (if prototype.exported then [ModuleForm.ofFunction prototype.name]
        else []).filterMap ModuleForm.symbol? = [] := by
      cases prototype.exported <;> rfl
    rw [Node.formsAll_singleton, Node.forms_function, uses, declaredNames_append, own]
    change sigil prototype.name :: (Node.formsAll body ++ _).filterMap ModuleForm.symbol? = _
    rw [List.filterMap_append, noExport, List.append_nil, inside.functions]
    rfl
  · rw [Node.formsAll_singleton, Node.forms_function]
    exact .function prototype.name inside.exports prototype.exported

theorem memory {literals : List Node} (inside : FormsMatch literals) (size : Nat) :
    FormsMatch [.memory literals size] := by
  have uses : Node.uses [.memory literals size] = Node.uses literals := by
    rw [uses_singleton]
    change [] ++ Node.uses (literals ++ _) = _
    rw [Node.uses_append]
    exact List.append_nil _
  refine ⟨?_, ?_⟩
  · rw [Node.formsAll_singleton, Node.forms_memory, uses, List.filterMap_append, inside.functions]
    exact List.append_nil _
  · rw [Node.formsAll_singleton, Node.forms_memory]
    exact inside.exports.append (.memory (toString size))

end FormsMatch

theorem FormsMatch.exportsTell {nodes : List Node} (formsMatch : FormsMatch nodes)
    (distinct : (declaredNames .function (Node.uses nodes)).Nodup) :
    ExportsTell (Node.formsAll nodes) := by
  refine formsMatch.exports.exportsTell ?_
  rw [formsMatch.functions]
  exact distinct.map sigil_injective

namespace Session

/-- A name without quotes and without white space. -/
def IsUnspaced (name : String) : Prop :=
  ∀ character ∈ name.toList, isBlankChar character = false ∧ character ≠ '"'

instance (name : String) : Decidable (IsUnspaced name) := List.decidableBAll _ name.toList

theorem IsUnspaced.noSpace {name : String} (unspaced : IsUnspaced name) : ' ' ∉ name.toList := by
  intro member
  cases (unspaced ' ' member).1

/-- Bodies of operations, and nodes whose forms match their marks. The actions in a body may do
whatever they like, and so the top-level nodes are arbitrary. -/
def formStandard : Standard where
  expression _ := Expression.OnlyOperations IsUnspaced
  body _ := Item.OnlyOperations IsUnspaced
  action _ := True
  node _ node := FormsMatch [node]
  item _ := True

/-- **An operation makes a node whose forms match its marks**, out of such nodes. -/
theorem meets_forms (position : Position) : ∀ expression : Expression,
    expression.OnlyOperations IsUnspaced → formStandard.Meets position expression.recipe
  | .binary _ _ _, ⟨left, right⟩ =>
      ⟨left, fun _ leftMatches => ⟨right, fun _ rightMatches =>
        .ordinary rfl rfl (.two leftMatches rightMatches)⟩⟩
  | .unary _ _, only | .memoryGrow _, only | .returnValue _, only | .drop _, only
  | .breakIf _ _, only => ⟨only, fun _ inside => .ordinary rfl rfl inside⟩
  | .convert source target _, only => ⟨only, fun _ inside => .convert source target inside⟩
  | .constant _ _, _ | .declareLocal _ _, _ | .memorySize, _ | .breakTo _, _ | .returnVoid, _
  | .table _ _ _, _ | .start _, _ => .ordinary rfl rfl .nil
  | .string _, _ | .data _, _ => fun _ => .ordinary rfl rfl .nil
  | .declareGlobal isMutable name type none, _ => .declareGlobal isMutable name type nofun
  | .declareGlobal isMutable name type (some _), only =>
      ⟨only, fun _ inside => .declareGlobal isMutable name type (forall_mem_some inside)⟩
  | .setVariable kind _ _, only =>
      ⟨only, fun _ inside => .ordinary (by cases kind <;> rfl) rfl inside⟩
  | .getVariable kind _, _ => .ordinary (by cases kind <;> rfl) rfl .nil
  | .store _ _ _ _, ⟨address, value⟩ =>
      ⟨address, fun _ addressMatches => ⟨value, fun _ valueMatches =>
        .ordinary rfl rfl
          (.cons (.ordinary rfl rfl .nil) (.two addressMatches valueMatches))⟩⟩
  | .load _ _ _, only =>
      ⟨only, fun _ inside => .ordinary rfl rfl (.two (.ordinary rfl rfl .nil) inside)⟩
  | .allocate _, only => ⟨only, fun _ inside size => .memory (.ofEach inside) size⟩
  | .ifThen result _ _ none, ⟨condition, consequent, _⟩ =>
      ⟨condition, fun _ conditionMatches => ⟨consequent, fun _ inside =>
        .ifThen result conditionMatches (.ofEach inside) nofun⟩⟩
  | .ifThen result _ _ (some _), ⟨condition, consequent, alternative⟩ =>
      ⟨condition, fun _ conditionMatches => ⟨consequent, fun _ inside =>
        ⟨alternative, fun _ others => .ifThen result conditionMatches (.ofEach inside)
          (forall_mem_some (.ofEach others))⟩⟩⟩
  | .loopWhile label _ _, ⟨condition, body⟩ =>
      ⟨condition, fun _ conditionMatches => ⟨body, fun _ inside =>
        .loopWhile label conditionMatches (.ofEach inside)⟩⟩
  | .block _ _, only | .call _ _, only =>
      ⟨only, fun _ inside => .ordinary rfl rfl (.ofEach inside)⟩
  | .select _ _ _, ⟨first, second, condition⟩ =>
      ⟨first, fun _ firstMatches => ⟨second, fun _ secondMatches =>
        ⟨condition, fun _ conditionMatches => .ordinary rfl rfl
          (.cons firstMatches (.two secondMatches conditionMatches))⟩⟩⟩
  | .importFunction library field _ params, unspaced =>
      .importFunction library field unspaced.noSpace params
  | .function name steps _, ⟨_, only⟩ =>
      ⟨only, fun _ inside => .function (.ofSteps name steps) (.ofEach inside)⟩
  | .elements _ names, only => ⟨only, fun _ inside => .elements inside names⟩

theorem kept_forms : formStandard.Kept where
  recipe := meets_forms
  expressionItem := id
  actionItem only := ⟨trivial, only⟩
  action _ _ _ _ _ := ⟨trivial, fun _ _ => trivial⟩

/-- **The nodes of a body of operations have forms that match their marks.** -/
theorem formsMatch_body (body : List Item) (state : State)
    (only : Item.OnlyOperations IsUnspaced body) : FormsMatch ((Item.makeAll body).run state).1 :=
  .ofEach (kept_forms.inherited.ofBody body .operand only state fun _ _ => trivial).1

/-- **What a finished module exports.** -/
theorem exports_of_finished {location : String} {options : LayoutOptions} {actions : List Action}
    {past future : List Event} {body : List Item} {text : String}
    (builds : BuildsModule (.create location options) actions past body future)
    (only : Item.OnlyOperations IsUnspaced body)
    (finished : (builderAfter location options actions).finish = .ok text) :
    .ofGroup ["module"] (bodyNodes (.create location options) past body) ∈
        (builderAfter location options actions).items ∧
      ExportsTell (Node.formsAll (bodyNodes (.create location options) past body)) := by
  have member := builds.mem_items
  refine ⟨member, (formsMatch_body body _ only).exportsTell ?_⟩
  have distinct := functions_nodup_of_accepted (accepted_of_finished finished).2
  obtain ⟨before, after, items⟩ := List.append_of_mem member
  rw [items, Node.uses_append, Node.uses_cons, declaredNames_append,
    declaredNames_append] at distinct
  exact distinct.of_append_right.of_append_left

/-- An import, an exported function, a hidden one and a memory. -/
def mixedBody : List Item :=
  [.expression (.importFunction "env" "show" "show" [.int]),
    .expression (.function "run" [] [.expression (.call "help" [])]),
    .expression (.function "help" [.hidden] []),
    .expression (.allocate [.expression (.string "hi")])]

/-- A module with an import, an exported function, a hidden one and a memory has two exports, which
are told apart. -/
theorem exports_of_finished_mixed :
    let nodes := bodyNodes (.create "m" {}) [] mixedBody
    (Node.formsAll nodes).filterMap ModuleForm.exportName? = ["\"run\"", "\"memory\""] ∧
      ExportsTell (Node.formsAll nodes) := by
  have builds : BuildsModule (.create "m" {}) [.module mixedBody] [] mixedBody [] := ⟨rfl, rfl⟩
  have only : Item.OnlyOperations IsUnspaced mixedBody := by
    simp only [mixedBody, Item.OnlyOperations, Expression.OnlyOperations, and_true]
    decide
  have finished : ∃ text, (builderAfter "m" {} [.module mixedBody]).finish = .ok text :=
    ⟨_, rfl⟩
  obtain ⟨text, finished⟩ := finished
  exact ⟨by decide, (exports_of_finished builds only finished).2⟩

/-- A function with the name of the memory, beside the memory. -/
def clashingBody : List Item :=
  [.expression (.function "memory" [] []), .expression (.allocate [])]

/-- **A function with the name of the memory is exported under the same name** as the memory, and
the module can be finished. -/
theorem exports_clash :
    Item.OnlyOperations IsUnspaced clashingBody ∧
      BuildsModule (.create "m" {}) [.module clashingBody] [] clashingBody [] ∧
      (builderAfter "m" {} [.module clashingBody]).finish = .ok
        ("(module\n (func $memory\n )\n (export \"memory\" (func $memory))\n" ++
          " (memory $memory 0)\n (export \"memory\" (memory $memory))\n)\n") ∧
      ¬ ((Node.formsAll (bodyNodes (.create "m" {}) [] clashingBody)).filterMap
        ModuleForm.exportName?).Nodup := by
  refine ⟨?_, ⟨rfl, rfl⟩, by decide, by decide⟩
  simp only [clashingBody, Item.OnlyOperations, Expression.OnlyOperations, and_true]
  decide

end Session

end WasmWorkshop
