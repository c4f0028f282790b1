import WasmWorkshop.Proofs.Operations
import WasmWorkshop.Proofs.ScopedText
import WasmWorkshop.Proofs.Standards

/-!
# Modules built by operations

A session that uses operations only (`Action.IsOperation`) puts no node together by hand, changes no
marks, takes names for its symbols, and keeps functions to the level of the module. Whatever it
does, all that it builds are fields (`meets_operation`, `kept_operations`), so for the module that
it leaves behind the symbol check is a judgement on the text (`check_performAll_iff_wellScoped`).
-/

set_option autoImplicit false

namespace WasmWorkshop.Session

/-! ## Sessions of operations -/

mutual

/-- An expression of operations only, at the given position. Functions are items of the module and
nothing else; the body of an allocation stands where the allocation does. -/
def Expression.IsOperation (position : Position) : Expression → Prop
  | .binary _ left right => left.IsOperation .operand ∧ right.IsOperation .operand
  | .unary _ operand => operand.IsOperation .operand
  | .convert _ _ operand => operand.IsOperation .operand
  | .constant _ _ => True
  | .declareLocal name _ => IsName name
  | .declareGlobal _ name _ initial => IsName name ∧ Expression.IsOptionalOperation initial
  | .setVariable _ name value => IsName name ∧ value.IsOperation .operand
  | .getVariable _ name => IsName name
  | .store _ _ address value => address.IsOperation .operand ∧ value.IsOperation .operand
  | .load _ _ address => address.IsOperation .operand
  | .memorySize => True
  | .memoryGrow pages => pages.IsOperation .operand
  | .string _ => True
  | .data _ => True
  | .allocate body => Item.AreOperations position body
  | .ifThen _ condition consequent alternative =>
    condition.IsOperation .operand ∧ Item.AreOperations .operand consequent ∧
      Item.AreOptionalOperations alternative
  | .loopWhile label condition body =>
    IsName label ∧ condition.IsOperation .operand ∧ Item.AreOperations .operand body
  | .block label body => IsName label ∧ Item.AreOperations .operand body
  | .breakTo label => IsName label
  | .breakIf label condition => IsName label ∧ condition.IsOperation .operand
  | .returnValue value => value.IsOperation .operand
  | .returnVoid => True
  | .select first second condition =>
    first.IsOperation .operand ∧ second.IsOperation .operand ∧ condition.IsOperation .operand
  | .drop value => value.IsOperation .operand
  | .call name arguments => IsName name ∧ Item.AreOperations .operand arguments
  | .importFunction _ _ name _ => IsName name
  | .function name steps body =>
    position = .moduleItem ∧ IsName name ∧ (∀ step ∈ steps, step.IsNamed) ∧
      Item.AreOperations .operand body
  | .table name _ _ => IsName name
  | .elements offset names => offset.IsOperation .operand ∧ ∀ name ∈ names, IsName name
  | .start name => IsName name
  | .rawLeaf _ => False
  | .rawForm _ => False
  | .rawGroup _ _ => False
  | .rawFragment _ => False
  | .withSymbol _ _ => False
  | .withScope _ _ => False

/-- An operand of operations only, if there is one. -/
def Expression.IsOptionalOperation : Option Expression → Prop
  | none => True
  | some expression => expression.IsOperation .operand

/-- A body of operations only. -/
def Item.AreOperations (position : Position) : List Item → Prop
  | [] => True
  | .expression expression :: rest =>
    expression.IsOperation position ∧ Item.AreOperations position rest
  | .action action :: rest => action.IsOperation ∧ Item.AreOperations position rest

/-- A body of operations only, if there is one. -/
def Item.AreOptionalOperations : Option (List Item) → Prop
  | none => True
  | some body => Item.AreOperations .operand body

/-- An action that makes nodes by operations only. -/
def Action.IsOperation : Action → Prop
  | .module body => Item.AreOperations .moduleItem body
  | .emit node => node.IsOperation .moduleItem
  | .build node => node.IsOperation .moduleItem
  | .reserve _ => True
  | .render => True
  | .check => True
  | .finish => True
  | .phase => True
  | .allocation => True
  | .location => True
  | .indentWidth => True
  | .items => True
  | .run _ _ => True

end

/-! ## Operations make fields -/

/-- The nodes that operations make at a position. -/
def Position.Allows (position : Position) (node : Node) : Prop :=
  match position with
  | .moduleItem => node.IsField
  | .operand => node.IsPlain

theorem Position.allows_plain (position : Position) {node : Node} (plain : node.IsPlain) :
    position.Allows node := by
  cases position with
  | moduleItem => exact .plain plain
  | operand => exact plain

theorem Position.allows_memory (position : Position) {literals : List Node}
    (allowed : ∀ node ∈ literals, position.Allows node) (size : Nat) :
    position.Allows (.memory literals size) := by
  cases position with
  | moduleItem => exact Node.isField_memory allowed size
  | operand => exact Node.isPlain_memory allowed size

/-- Sessions of operations, and the nodes that may stand where they go. -/
def operationStandard : Standard where
  expression := Expression.IsOperation
  body := Item.AreOperations
  action := Action.IsOperation
  node := Position.Allows
  item := Node.IsField

open Node

/-- **An operation makes a node that may stand where it goes**, out of such nodes. -/
theorem meets_operation (position : Position) : ∀ expression : Expression,
    expression.IsOperation position → operationStandard.Meets position expression.recipe
  | .binary operator _ _, ⟨left, right⟩ =>
      ⟨left, fun _ plainLeft => ⟨right, fun _ plainRight => position.allows_plain
        (isPlain_ofGroup operator.mnemonic (isPlain_two plainLeft plainRight))⟩⟩
  | .unary operator _, operation =>
      ⟨operation, fun _ plain => position.allows_plain
        (isPlain_ofGroup operator.mnemonic (isPlain_one plain))⟩
  | .convert source target _, operation =>
      ⟨operation, fun _ plain => position.allows_plain (isPlain_convert source target plain)⟩
  | .constant type value, _ => position.allows_plain (isPlain_constant type value)
  | .declareLocal name type, _ => position.allows_plain (isPlain_declareLocal name type)
  | .declareGlobal isMutable name type none, _ =>
      position.allows_plain (isPlain_declareGlobal isMutable name type nofun)
  | .declareGlobal isMutable name type (some _), ⟨_, operation⟩ =>
      ⟨operation, fun _ plain => position.allows_plain
        (isPlain_declareGlobal isMutable name type (forall_mem_some plain))⟩
  | .setVariable kind name _, ⟨_, operation⟩ =>
      ⟨operation, fun _ plain => position.allows_plain (isPlain_setVariable kind name plain)⟩
  | .getVariable kind name, _ => position.allows_plain (isPlain_getVariable kind name)
  | .store type offset _ _, ⟨address, value⟩ =>
      ⟨address, fun _ plainAddress => ⟨value, fun _ plainValue => position.allows_plain
        (isPlain_store type offset plainAddress plainValue)⟩⟩
  | .load type offset _, operation =>
      ⟨operation, fun _ plain => position.allows_plain (isPlain_load type offset plain)⟩
  | .memorySize, _ => position.allows_plain isPlain_memorySize
  | .memoryGrow _, operation =>
      ⟨operation, fun _ plain => position.allows_plain
        (isPlain_ofGroup "memory.grow" (isPlain_one plain))⟩
  | .string _, _ | .data _, _ => fun offset => position.allows_plain
      (isPlain_dataLiteral offset _)
  | .allocate _, operations => ⟨operations, fun _ allowed => position.allows_memory allowed⟩
  | .ifThen result _ _ none, ⟨condition, consequent, _⟩ =>
      ⟨condition, fun _ plainCondition => ⟨consequent, fun _ plainConsequent =>
        position.allows_plain (isPlain_ifThen result plainCondition plainConsequent nofun)⟩⟩
  | .ifThen result _ _ (some _), ⟨condition, consequent, alternative⟩ =>
      ⟨condition, fun _ plainCondition => ⟨consequent, fun _ plainConsequent =>
        ⟨alternative, fun _ plainAlternative => position.allows_plain
          (isPlain_ifThen result plainCondition plainConsequent
            (forall_mem_some plainAlternative))⟩⟩⟩
  | .loopWhile label _ _, ⟨_, condition, body⟩ =>
      ⟨condition, fun _ plainCondition => ⟨body, fun _ plainBody =>
        position.allows_plain (isPlain_loopWhile label plainCondition plainBody)⟩⟩
  | .block label _, ⟨_, operations⟩ =>
      ⟨operations, fun _ plain => position.allows_plain (isPlain_labelled label (.inl rfl) plain)⟩
  | .breakTo _, isName => position.allows_plain (isPlain_breakTo isName)
  | .breakIf label _, ⟨_, operation⟩ =>
      ⟨operation, fun _ plain => position.allows_plain (isPlain_breakIf label plain)⟩
  | .returnValue _, operation =>
      ⟨operation, fun _ plain => position.allows_plain
        (isPlain_ofGroup "return" (isPlain_one plain))⟩
  | .returnVoid, _ => position.allows_plain isPlain_returnVoid
  | .select _ _ _, ⟨first, second, condition⟩ =>
      ⟨first, fun _ plainFirst => ⟨second, fun _ plainSecond => ⟨condition, fun _ plainCondition =>
        position.allows_plain
          (isPlain_ofGroup "select" (isPlain_three plainFirst plainSecond plainCondition))⟩⟩⟩
  | .drop _, operation =>
      ⟨operation, fun _ plain => position.allows_plain (isPlain_ofGroup "drop" (isPlain_one plain))⟩
  | .call name _, ⟨_, operations⟩ =>
      ⟨operations, fun _ plain => position.allows_plain (isPlain_call name plain)⟩
  | .importFunction library field _ params, isName =>
      position.allows_plain (isPlain_importFunction library field isName params)
  | .function name _ _, ⟨atModule, _, named, operations⟩ =>
      ⟨operations, fun _ plain =>
        atModule ▸ isField_function (Prototype.isNamed_ofSteps name named) plain⟩
  | .table name size elements, _ => position.allows_plain (isPlain_table name size elements)
  | .elements _ _, ⟨operation, areNames⟩ =>
      ⟨operation, fun _ plain => position.allows_plain (isPlain_elements plain areNames)⟩
  | .start name, _ => position.allows_plain (isPlain_start name)

/-- **Operations make what may stand where they go**, in bodies and in whole sessions. -/
theorem kept_operations : operationStandard.Kept where
  recipe := meets_operation
  expressionItem := id
  actionItem := id
  action := Standard.forAction_of_each (fun _ => id) (fun _ => id) (fun _ => id) (fun _ => id)
    fun _ fields => .group rfl fields

/-! ## The check of what was built -/

/-- The builder that a session leaves behind. -/
def builderAfter (location : String) (options : LayoutOptions) (actions : List Action) :
    ModuleBuilder :=
  ((performAll actions).run (.create location options)).2.builder

/-- **Whatever operations build, the check accepts it exactly if its text is well scoped.** -/
theorem check_performAll_iff_wellScoped (location : String) (options : LayoutOptions)
    {actions : List Action} (operations : ∀ action ∈ actions, action.IsOperation) :
    (builderAfter location options actions).check = .ok () ↔
      WellScoped (Node.outlines (builderAfter location options actions).items) := by
  have fields := (kept_operations.performAll operations (.create location options)
    (List.forall_mem_nil _)).2
  exact check_iff_wellScoped fields

/-- A function that counts its parameter down in a loop, starts itself over, and shows the parameter
before that. -/
def countdown : List Action :=
  [.module
    [.expression (.importFunction "env" "show" "show" [.int]),
      .expression (.function "count" [.param "n" .int]
        [.expression (.call "show" [.expression (.getVariable .localVariable "n")]),
          .expression (.loopWhile "again" (.getVariable .localVariable "n")
            [.expression (.setVariable .localVariable "n"
              (.binary (.arithmetic .subtract .int) (.getVariable .localVariable "n")
                (.constant .int (.integer 1))))]),
          .expression (.call "count" [.expression (.getVariable .localVariable "n")])])]]

theorem wellScoped_countdown :
    (∀ action ∈ countdown, action.IsOperation) ∧
      WellScoped (Node.outlines (builderAfter "" {} countdown).items) := by
  have operations : ∀ action ∈ countdown, action.IsOperation := by
    refine List.forall_mem_singleton.mpr ?_
    simp only [Action.IsOperation, Item.AreOperations, Expression.IsOperation,
      List.forall_mem_singleton, PrototypeStep.IsNamed, and_true, true_and]
    decide
  exact ⟨operations, (check_performAll_iff_wellScoped "" {} operations).mp rfl⟩

end WasmWorkshop.Session
