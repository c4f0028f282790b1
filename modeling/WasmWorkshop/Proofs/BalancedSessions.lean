import WasmWorkshop.Proofs.BalancedNodes
import WasmWorkshop.Proofs.BuiltModules

/-!
# Sessions build balanced texts

Whatever a session makes is put together by operations, if the names that it is given and the free
texts of its constants have no parentheses, and what it puts together by hand is balanced
(`kept_built`). So the text of the builder is balanced after any such session
(`isBalanced_render_builderAfter`), finished or not.
-/

set_option autoImplicit false

namespace WasmWorkshop

theorem Prototype.namesLackParentheses_ofSteps {name : String} (lacks : LacksParentheses name)
    {steps : List PrototypeStep}
    (each : ∀ step ∈ steps, ∀ name ∈ step.names, LacksParentheses name) :
    (Prototype.ofSteps name steps).NamesLackParentheses := by
  obtain ⟨params, locals⟩ := Prototype.names_ofSteps name each
  refine ⟨?_, params, locals⟩
  rwa [Prototype.name_ofSteps]

namespace Session

/-! ## Sessions without parentheses in names -/

mutual

/-- Names and free texts of constants have no parentheses, texts by hand are balanced, and literals
are arbitrary. -/
def Expression.NamesLackParentheses : Expression → Prop
  | .binary _ left right => left.NamesLackParentheses ∧ right.NamesLackParentheses
  | .unary _ operand => operand.NamesLackParentheses
  | .convert _ _ operand => operand.NamesLackParentheses
  | .constant _ value => value.TextLacksParentheses
  | .declareLocal name _ => LacksParentheses name
  | .declareGlobal _ name _ initial =>
    LacksParentheses name ∧ Expression.OptionalNamesLackParentheses initial
  | .setVariable _ name value => LacksParentheses name ∧ value.NamesLackParentheses
  | .getVariable _ name => LacksParentheses name
  | .store _ _ address value => address.NamesLackParentheses ∧ value.NamesLackParentheses
  | .load _ _ address => address.NamesLackParentheses
  | .memorySize => True
  | .memoryGrow pages => pages.NamesLackParentheses
  | .string _ => True
  | .data _ => True
  | .allocate body => Item.AllNamesLackParentheses body
  | .ifThen _ condition consequent alternative =>
    condition.NamesLackParentheses ∧ Item.AllNamesLackParentheses consequent ∧
      Item.OptionalNamesLackParentheses alternative
  | .loopWhile label condition body =>
    LacksParentheses label ∧ condition.NamesLackParentheses ∧ Item.AllNamesLackParentheses body
  | .block label body => LacksParentheses label ∧ Item.AllNamesLackParentheses body
  | .breakTo label => LacksParentheses label
  | .breakIf label condition => LacksParentheses label ∧ condition.NamesLackParentheses
  | .returnValue value => value.NamesLackParentheses
  | .returnVoid => True
  | .select first second condition =>
    first.NamesLackParentheses ∧ second.NamesLackParentheses ∧ condition.NamesLackParentheses
  | .drop value => value.NamesLackParentheses
  | .call name arguments => LacksParentheses name ∧ Item.AllNamesLackParentheses arguments
  | .importFunction library field name _ =>
    LacksParentheses library ∧ LacksParentheses field ∧ LacksParentheses name
  | .function name steps body =>
    LacksParentheses name ∧ (∀ step ∈ steps, ∀ name ∈ step.names, LacksParentheses name) ∧
      Item.AllNamesLackParentheses body
  | .table name _ _ => LacksParentheses name
  | .elements offset names =>
    offset.NamesLackParentheses ∧ ∀ name ∈ names, LacksParentheses name
  | .start name => LacksParentheses name
  | .rawLeaf text => IsBalanced text.toList
  | .rawForm header => ∀ token ∈ header, IsBalanced token.toList
  | .rawGroup header children =>
    (∀ token ∈ header, IsBalanced token.toList) ∧ Item.AllNamesLackParentheses children
  | .rawFragment children => Item.AllNamesLackParentheses children
  | .withSymbol node _ => node.NamesLackParentheses
  | .withScope node _ => node.NamesLackParentheses

/-- The same of an operand, if there is one. -/
def Expression.OptionalNamesLackParentheses : Option Expression → Prop
  | none => True
  | some expression => expression.NamesLackParentheses

/-- The same of a body. -/
def Item.AllNamesLackParentheses : List Item → Prop
  | [] => True
  | .expression expression :: rest =>
    expression.NamesLackParentheses ∧ Item.AllNamesLackParentheses rest
  | .action action :: rest => action.NamesLackParentheses ∧ Item.AllNamesLackParentheses rest

/-- The same of a body, if there is one. -/
def Item.OptionalNamesLackParentheses : Option (List Item) → Prop
  | none => True
  | some body => Item.AllNamesLackParentheses body

/-- The same of an action. -/
def Action.NamesLackParentheses : Action → Prop
  | .module body => Item.AllNamesLackParentheses body
  | .emit node => node.NamesLackParentheses
  | .build node => node.NamesLackParentheses
  | .reserve _ => True
  | .render => True
  | .check => True
  | .finish => True
  | .phase => True
  | .allocation => True
  | .location => True
  | .indentWidth => True
  | .items => True
  | .run _ _ => True

end

/-! ## What a session builds -/

/-- Sessions without parentheses in names, and nodes that are put together by operations. -/
def builtStandard : Standard where
  expression _ := Expression.NamesLackParentheses
  body _ := Item.AllNamesLackParentheses
  action := Action.NamesLackParentheses
  node _ := Node.IsBuilt
  item := Node.IsBuilt

/-- **An expression makes a node of operations**, out of such nodes. -/
theorem meets_built (position : Position) : ∀ expression : Expression,
    expression.NamesLackParentheses → builtStandard.Meets position expression.recipe
  | .binary operator _ _, ⟨left, right⟩ =>
      ⟨left, fun _ leftBuilt => ⟨right, fun _ rightBuilt => .binary operator leftBuilt rightBuilt⟩⟩
  | .unary operator _, lacks => ⟨lacks, fun _ built => .unary operator built⟩
  | .convert source target _, lacks => ⟨lacks, fun _ built => .convert source target built⟩
  | .constant type _, lacks => .constant type lacks
  | .declareLocal _ type, lacks => .declareLocal lacks type
  | .declareGlobal isMutable _ type none, ⟨name, _⟩ => .declareGlobal isMutable name type nofun
  | .declareGlobal isMutable _ type (some _), ⟨name, initial⟩ =>
      ⟨initial, fun _ built => .declareGlobal isMutable name type (forall_mem_some built)⟩
  | .setVariable kind _ _, ⟨name, value⟩ => ⟨value, fun _ built => .setVariable kind name built⟩
  | .getVariable kind _, lacks => .getVariable kind lacks
  | .store type offset _ _, ⟨address, value⟩ =>
      ⟨address, fun _ addressBuilt => ⟨value, fun _ valueBuilt =>
        .store type offset addressBuilt valueBuilt⟩⟩
  | .load type offset _, lacks => ⟨lacks, fun _ built => .load type offset built⟩
  | .memorySize, _ => .memorySize
  | .memoryGrow _, lacks => ⟨lacks, fun _ built => .memoryGrow built⟩
  | .string _, _ | .data _, _ => fun offset => .dataLiteral offset _
  | .allocate _, lacks => ⟨lacks, fun _ built size => .memory built size⟩
  | .ifThen result _ _ none, ⟨condition, consequent, _⟩ =>
      ⟨condition, fun _ conditionBuilt => ⟨consequent, fun _ built =>
        .ifThen result conditionBuilt built nofun⟩⟩
  | .ifThen result _ _ (some _), ⟨condition, consequent, alternative⟩ =>
      ⟨condition, fun _ conditionBuilt => ⟨consequent, fun _ built => ⟨alternative, fun _ others =>
        .ifThen result conditionBuilt built (forall_mem_some others)⟩⟩⟩
  | .loopWhile _ _ _, ⟨label, condition, body⟩ =>
      ⟨condition, fun _ conditionBuilt => ⟨body, fun _ built =>
        .loopWhile label conditionBuilt built⟩⟩
  | .block _ _, ⟨label, body⟩ => ⟨body, fun _ built => .block label built⟩
  | .breakTo _, lacks => .breakTo lacks
  | .breakIf _ _, ⟨label, condition⟩ => ⟨condition, fun _ built => .breakIf label built⟩
  | .returnValue _, lacks => ⟨lacks, fun _ built => .returnValue built⟩
  | .returnVoid, _ => .returnVoid
  | .select _ _ _, ⟨first, second, condition⟩ =>
      ⟨first, fun _ firstBuilt => ⟨second, fun _ secondBuilt => ⟨condition, fun _ conditionBuilt =>
        .select firstBuilt secondBuilt conditionBuilt⟩⟩⟩
  | .drop _, lacks => ⟨lacks, fun _ built => .drop built⟩
  | .call _ _, ⟨name, arguments⟩ => ⟨arguments, fun _ built => .call name built⟩
  | .importFunction _ _ _ params, ⟨library, field, name⟩ =>
      .importFunction library field name params
  | .function _ _ _, ⟨name, steps, body⟩ =>
      ⟨body, fun _ built =>
        .function (Prototype.namesLackParentheses_ofSteps name steps) built⟩
  | .table _ size elements, lacks => .table lacks size elements
  | .elements _ _, ⟨offset, names⟩ => ⟨offset, fun _ built => .elements built names⟩
  | .start _, lacks => .start lacks
  | .rawLeaf _, balanced => .line balanced
  | .rawForm _, balanced => .form balanced
  | .rawGroup _ _, ⟨balanced, children⟩ => ⟨children, fun _ built => .group balanced built⟩
  | .rawFragment _, lacks => ⟨lacks, fun _ built => .fragment built⟩
  | .withSymbol _ _, lacks | .withScope _ _, lacks => ⟨lacks, fun _ built => .mapMarks built _⟩

theorem isBuilt_module {body : List Node} (built : ∀ node ∈ body, node.IsBuilt) :
    (Node.ofGroup ["module"] body).IsBuilt := by
  have keyword : LacksParentheses "module" := by decide
  exact .group (List.forall_mem_singleton.mpr keyword.isBalanced) built

/-- **Whatever a session makes is put together by operations.** -/
theorem kept_built : builtStandard.Kept where
  recipe := meets_built
  expressionItem := id
  actionItem := id
  action := Standard.forAction_of_each (fun _ => id) (fun _ => id) (fun _ => id) (fun _ => id)
    fun _ => isBuilt_module

/-- **The text that a session builds is balanced**, whatever its literals are. -/
theorem isBalanced_render_builderAfter (location : String) (options : LayoutOptions)
    {actions : List Action} (lack : ∀ action ∈ actions, action.NamesLackParentheses) :
    IsBalanced (builderAfter location options actions).render.toList := by
  have built := (kept_built.performAll lack (.create location options) (List.forall_mem_nil _)).2
  refine isBalanced_render ?_ _
  intro node member
  exact (built node member).hasBalancedTexts

end Session

end WasmWorkshop
