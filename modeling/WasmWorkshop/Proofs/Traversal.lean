import WasmWorkshop.Session.Evaluation

/-!
# Going through a session

However many operations there are, an expression is made in one of few ways. Its operands and bodies
are made in the order in which they stand, and then the node is put together; or a data literal is
placed; or a body of literals is made, and the memory for it. The recipe of an expression tells how
it is with its own operation (`Expression.recipe`), and the expression is made by its recipe
(`Expression.make_eq_recipe`).

What is said of all sessions is therefore proved for recipes, and not once more for each operation.
It holds of everything in a session if an expression inherits it from the parts of its recipe, a
body from what stands in it, and an action from what it makes (`Inherited.ofExpression`,
`Inherited.ofBody`, `Inherited.ofAction`).
-/

set_option autoImplicit false

namespace WasmWorkshop.Session

/-! ## Recipes -/

/-- How the node of an expression comes about. -/
inductive Recipe where
  /-- The node is put together. -/
  | node (node : Node)
  /-- An operand is made, and then what comes of its node. -/
  | operand (operand : Expression) (next : Node → Recipe)
  /-- A body is made, and then what comes of its nodes. -/
  | body (body : List Item) (next : List Node → Recipe)
  /-- A data literal is placed. -/
  | literal (bytes : List UInt8)
  /-- Literals are made, and then the memory for all of them. -/
  | memory (body : List Item)

/-- Makes the node. -/
def Recipe.make : Recipe → SessionM Node
  | .node result => return result
  | .operand expression next => do
    let made ← expression.make
    (next made).make
  | .body items next => do
    let made ← Item.makeAll items
    (next made).make
  | .literal bytes => placeLiteral bytes
  | .memory items => do
    let literals ← Item.makeAll items
    return .memory literals (← get).builder.allocation

/-- One operand, from whose node the node is put together. -/
def Recipe.ofOperand (expression : Expression) (result : Node → Node) : Recipe :=
  .operand expression fun made => .node (result made)

/-- One body, from whose nodes the node is put together. -/
def Recipe.ofBody (items : List Item) (result : List Node → Node) : Recipe :=
  .body items fun made => .node (result made)

/-- The recipe of an expression. -/
def Expression.recipe : Expression → Recipe
  | .binary operator left right =>
    .operand left fun left => .ofOperand right (.binary operator left)
  | .unary operator operand => .ofOperand operand (.unary operator)
  | .convert source target operand => .ofOperand operand (.convert source target)
  | .constant type value => .node (.constant type value)
  | .declareLocal name type => .node (.declareLocal name type)
  | .declareGlobal isMutable name type none => .node (.declareGlobal isMutable name type none)
  | .declareGlobal isMutable name type (some initial) =>
    .ofOperand initial fun initial => .declareGlobal isMutable name type (some initial)
  | .setVariable kind name value => .ofOperand value (.setVariable kind name)
  | .getVariable kind name => .node (.getVariable kind name)
  | .store type offset address value =>
    .operand address fun address => .ofOperand value (.store type offset address)
  | .load type offset address => .ofOperand address (.load type offset)
  | .memorySize => .node .memorySize
  | .memoryGrow pages => .ofOperand pages .memoryGrow
  | .string text => .literal (terminated text)
  | .data bytes => .literal bytes
  | .allocate body => .memory body
  | .ifThen result condition consequent none =>
    .operand condition fun condition =>
      .ofBody consequent fun consequent => .ifThen result condition consequent none
  | .ifThen result condition consequent (some alternative) =>
    .operand condition fun condition => .body consequent fun consequent =>
      .ofBody alternative fun alternative =>
        .ifThen result condition consequent (some alternative)
  | .loopWhile label condition body =>
    .operand condition fun condition => .ofBody body (.loopWhile label condition)
  | .block label body => .ofBody body (.block label)
  | .breakTo label => .node (.breakTo label)
  | .breakIf label condition => .ofOperand condition (.breakIf label)
  | .returnValue value => .ofOperand value .returnValue
  | .returnVoid => .node .returnVoid
  | .select first second condition =>
    .operand first fun first => .operand second fun second =>
      .ofOperand condition (.select first second)
  | .drop value => .ofOperand value .drop
  | .call name arguments => .ofBody arguments (.call name)
  | .importFunction library field name params =>
    .node (.importFunction library field name params)
  | .function name steps body => .ofBody body (.function (.ofSteps name steps))
  | .table name size type => .node (.table name size type)
  | .elements offset names => .ofOperand offset fun offset => .elements offset names
  | .start name => .node (.start name)
  | .rawLeaf text => .node (.ofText text)
  | .rawForm header => .node (.ofHeader header)
  | .rawGroup header children => .ofBody children (.ofGroup header)
  | .rawFragment children => .ofBody children .ofNodes
  | .withSymbol node symbol => .ofOperand node (·.withSymbol symbol)
  | .withScope node scope => .ofOperand node (·.withScope scope)

/-- **An expression is made by its recipe.** -/
theorem Expression.make_eq_recipe (expression : Expression) :
    expression.make = expression.recipe.make := by
  cases expression with
  | declareGlobal isMutable name type initial => cases initial <;> rfl
  | ifThen result condition consequent alternative => cases alternative <;> rfl
  | _ => rfl

/-- What is so of a part that is there is so of each part that may be there. -/
theorem forall_mem_some {α : Type} {holds : α → Prop} {value : α} (given : holds value) :
    ∀ other ∈ some value, holds other :=
  fun _ same => Option.mem_some_iff.mp same ▸ given

/-! ## What is inherited -/

section Inherited

variable (forExpression : Expression → Prop) (forBody : List Item → Prop)

/-- What holds of the operands and bodies of a recipe. -/
def Recipe.Each : Recipe → Prop
  | .node _ => True
  | .operand expression next => forExpression expression ∧ ∀ made, (next made).Each
  | .body items next => forBody items ∧ ∀ made, (next made).Each
  | .literal _ => True
  | .memory items => forBody items

/-- What holds of the expression or the body of an action. -/
def Action.Each : Action → Prop
  | .module body => forBody body
  | .emit node | .build node => forExpression node
  | _ => True

/-- Something that everything in a session inherits from its parts. -/
structure Inherited (forAction : Action → Prop) : Prop where
  expression : ∀ expression : Expression,
    expression.recipe.Each forExpression forBody → forExpression expression
  nil : forBody []
  expressionItem : ∀ (expression : Expression) (rest : List Item),
    forExpression expression → forBody rest → forBody (.expression expression :: rest)
  actionItem : ∀ (action : Action) (rest : List Item),
    forAction action → forBody rest → forBody (.action action :: rest)
  action : ∀ action : Action, action.Each forExpression forBody → forAction action

end Inherited

namespace Inherited

variable {forExpression : Expression → Prop} {forBody : List Item → Prop}
  {forAction : Action → Prop}

mutual

/-- What is inherited holds of every expression. -/
theorem ofExpression (inherited : Inherited forExpression forBody forAction) :
    ∀ expression : Expression, forExpression expression
  | .constant _ _ | .declareLocal _ _ | .declareGlobal _ _ _ none | .getVariable _ _
  | .memorySize | .string _ | .data _ | .breakTo _ | .returnVoid | .importFunction _ _ _ _
  | .table _ _ _ | .start _ | .rawLeaf _ | .rawForm _ => inherited.expression _ trivial
  | .unary _ operand | .convert _ _ operand | .declareGlobal _ _ _ (some operand)
  | .setVariable _ _ operand | .load _ _ operand | .memoryGrow operand | .breakIf _ operand
  | .returnValue operand | .drop operand | .elements operand _ | .withSymbol operand _
  | .withScope operand _ =>
      inherited.expression _ ⟨inherited.ofExpression operand, fun _ => trivial⟩
  | .binary _ left right | .store _ _ left right =>
      inherited.expression _ ⟨inherited.ofExpression left, fun _ =>
        ⟨inherited.ofExpression right, fun _ => trivial⟩⟩
  | .select first second condition =>
      inherited.expression _ ⟨inherited.ofExpression first, fun _ =>
        ⟨inherited.ofExpression second, fun _ =>
          ⟨inherited.ofExpression condition, fun _ => trivial⟩⟩⟩
  | .block _ body | .call _ body | .function _ _ body | .rawGroup _ body | .rawFragment body =>
      inherited.expression _ ⟨inherited.ofBody body, fun _ => trivial⟩
  | .allocate body => inherited.expression _ (inherited.ofBody body)
  | .loopWhile _ condition body | .ifThen _ condition body none =>
      inherited.expression _ ⟨inherited.ofExpression condition, fun _ =>
        ⟨inherited.ofBody body, fun _ => trivial⟩⟩
  | .ifThen _ condition consequent (some alternative) =>
      inherited.expression _ ⟨inherited.ofExpression condition, fun _ =>
        ⟨inherited.ofBody consequent, fun _ => ⟨inherited.ofBody alternative, fun _ => trivial⟩⟩⟩

/-- What is inherited holds of every body. -/
theorem ofBody (inherited : Inherited forExpression forBody forAction) :
    ∀ body : List Item, forBody body
  | [] => inherited.nil
  | .expression expression :: rest =>
      inherited.expressionItem expression rest (inherited.ofExpression expression)
        (inherited.ofBody rest)
  | .action action :: rest =>
      inherited.actionItem action rest (inherited.ofAction action) (inherited.ofBody rest)

/-- What is inherited holds of every action. -/
theorem ofAction (inherited : Inherited forExpression forBody forAction) :
    ∀ action : Action, forAction action
  | .module body => inherited.action _ (inherited.ofBody body)
  | .emit node | .build node => inherited.action _ (inherited.ofExpression node)
  | .reserve _ | .render | .check | .finish | .phase | .allocation | .location | .indentWidth
  | .items | .run _ _ => inherited.action _ trivial

end

end Inherited

end WasmWorkshop.Session
