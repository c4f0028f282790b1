import WasmWorkshop.Proofs.ModuleBodies
import WasmWorkshop.Proofs.ModuleForms

/-!
# When a memory is sized

An allocation makes its body, and then the memory takes the size that the data region has at that
moment. The moments at which this happens are prefixes of the log (`Item.sizings`): what has
happened since the body of the module was called for, up to there. What happens later changes
nothing about a memory that is declared already.

So the memories that operations declare are known from these moments alone, one memory for each
moment (`sizesTell_body`).
-/

set_option autoImplicit false

namespace WasmWorkshop.Session

/-! ## Moments -/

mutual

/-- The moments at which memories are sized while an expression is made. -/
def Expression.sizings (state : State) : Expression → List (List Event)
  | .binary _ left right | .store _ _ left right =>
    left.sizings state ++ (right.sizings (stateAfter left.make state)).map (left.log state ++ ·)
  | .unary _ operand | .convert _ _ operand | .setVariable _ _ operand | .load _ _ operand
  | .memoryGrow operand | .breakIf _ operand | .returnValue operand | .drop operand
  | .elements operand _ | .withSymbol operand _ | .withScope operand _ => operand.sizings state
  | .constant _ _ | .declareLocal _ _ | .getVariable _ _ | .memorySize | .breakTo _
  | .returnVoid | .importFunction _ _ _ _ | .table _ _ _ | .start _ | .string _ | .data _
  | .rawLeaf _ | .rawForm _ => []
  | .declareGlobal _ _ _ initial => Expression.sizingsOptional state initial
  | .allocate body => Item.sizings state body ++ [Item.logAll state body]
  | .block _ body | .call _ body | .function _ _ body | .rawGroup _ body
  | .rawFragment body => Item.sizings state body
  | .ifThen _ condition consequent alternative =>
    let tested := stateAfter condition.make state
    let between := Item.sizings tested consequent ++
      (Item.sizingsOptional (stateAfter (Item.makeAll consequent) tested) alternative).map
        (Item.logAll tested consequent ++ ·)
    condition.sizings state ++ between.map (condition.log state ++ ·)
  | .loopWhile _ condition body =>
    condition.sizings state ++
      (Item.sizings (stateAfter condition.make state) body).map (condition.log state ++ ·)
  | .select first second condition =>
    let chosen := stateAfter first.make state
    let others := second.sizings chosen ++
      (condition.sizings (stateAfter second.make chosen)).map (second.log chosen ++ ·)
    first.sizings state ++ others.map (first.log state ++ ·)

/-- The same of an expression that may be missing. -/
def Expression.sizingsOptional (state : State) : Option Expression → List (List Event)
  | none => []
  | some expression => expression.sizings state

/-- The moments at which memories are sized in a body. What an action makes does not get into the
body, and what happens in it happens all the same. -/
def Item.sizings (state : State) : List Item → List (List Event)
  | [] => []
  | .expression expression :: rest =>
    expression.sizings state ++
      (Item.sizings (stateAfter expression.make state) rest).map (expression.log state ++ ·)
  | .action action :: rest =>
    (Item.sizings (stateAfter action.perform state) rest).map (action.log state ++ ·)

/-- The same of a body that may be missing. -/
def Item.sizingsOptional (state : State) : Option (List Item) → List (List Event)
  | none => []
  | some body => Item.sizings state body

end

/-! ## Memories of parts -/

/-- The node declares the memories that the other nodes declare, in whatever order. -/
def SameMemories (node : Node) (others : List Node) : Prop :=
  (node.forms.filter (·.isMemory)).Perm ((Node.formsAll others).filter (·.isMemory))

namespace SameMemories

variable {nodes : List Node}

theorem ofForms {node : Node} (forms : node.forms = Node.formsAll nodes) :
    SameMemories node nodes :=
  .of_eq (congrArg _ forms)

theorem self (node : Node) : SameMemories node [node] :=
  .ofForms (Node.formsAll_singleton node).symm

/-- A node that is no form of the module itself. -/
theorem ordinary {node : Node} (noForm : node.header?.bind moduleForm? = none) :
    SameMemories node node.children :=
  .ofForms (Node.forms_of_noForm noForm)

/-- A node that is no form of the module itself, with a line before its operands. -/
theorem behindLine {node line : Node} (noForm : node.header?.bind moduleForm? = none)
    (noForms : line.forms = []) (children : node.children = line :: nodes) :
    SameMemories node nodes := by
  refine .ofForms ?_
  rw [Node.forms_of_noForm noForm, children, Node.formsAll, noForms, List.nil_append]

theorem convert (source target : ValueType) (operand : Node) :
    SameMemories (.convert source target operand) [operand] := by
  refine .ofForms ?_
  rw [Node.forms_convert, Node.formsAll_singleton]

theorem ifThen (result : Option ValueType) (condition : Node) (consequent : List Node)
    (alternative : Option (List Node)) :
    SameMemories (.ifThen result condition consequent alternative)
      ([condition] ++ consequent ++ alternative.getD []) := by
  refine .ofForms ?_
  rw [Node.forms_ifThen, Node.formsAll_append, Node.formsAll_append, Node.formsAll_singleton,
    List.append_assoc]

theorem ifThen_none (result : Option ValueType) (condition : Node) (consequent : List Node) :
    SameMemories (.ifThen result condition consequent none) ([condition] ++ consequent) := by
  simpa using ifThen result condition consequent none

theorem loopWhile (label : String) (condition : Node) (body : List Node) :
    SameMemories (.loopWhile label condition body) ([condition] ++ body) := by
  rw [SameMemories, Node.forms_loopWhile]
  exact List.perm_append_comm.filter _

theorem elements (offset : Node) (names : List String) :
    SameMemories (.elements offset names) [offset] := by
  refine .ofForms ?_
  rw [Node.forms_elements, Node.formsAll_singleton]

theorem importFunction (library field name : String) (params : List ValueType) :
    SameMemories (.importFunction library field name params) [] := by
  change List.Perm (List.filter _ (Option.toList (Option.map ModuleForm.function
    (importedSymbol? (Node.importToken name params))))) []
  cases importedSymbol? (Node.importToken name params) <;> exact .refl _

theorem function (prototype : Prototype) (body : List Node) :
    SameMemories (.function prototype body) body := by
  have noMemory : (if prototype.exported then [ModuleForm.ofFunction prototype.name]
      else []).filter (·.isMemory) = [] := by
    cases prototype.exported <;> rfl
  rw [SameMemories, Node.forms_function, List.filter_cons_of_neg Bool.false_ne_true,
    List.filter_append, noMemory, List.append_nil]

end SameMemories

/-! ## Memories and moments -/

/-- The memory that is sized at a moment. -/
def memoryAt (state : State) (moment : List Event) : ModuleForm :=
  .memory (sigil "memory") (toString (replay state moment).builder.allocation)

/-- The memories that the nodes declare are those that are sized at the moments, which are moments
of the log. -/
structure SizesTell (nodes : List Node) (state : State) (log : List Event)
    (moments : List (List Event)) : Prop where
  memories : ((Node.formsAll nodes).filter (·.isMemory)).Perm (moments.map (memoryAt state))
  within : ∀ moment ∈ moments, moment <+: log

namespace SizesTell

variable {α : Type} {program : SessionM α} {state : State} {nodes more : List Node}
  {log moreLog : List Event} {moments moreMoments : List (List Event)}

theorem nil (state : State) (log : List Event) : SizesTell [] state log [] :=
  ⟨.nil, fun _ member => absurd member List.not_mem_nil⟩

/-- What comes later is shifted by what comes before it. -/
theorem bind (first : SizesTell nodes state log moments) (records : Records program state log)
    (rest : SizesTell more (stateAfter program state) moreLog moreMoments) :
    SizesTell (nodes ++ more) state (log ++ moreLog) (moments ++ moreMoments.map (log ++ ·)) where
  memories := by
    have shifted : (moreMoments.map (log ++ ·)).map (memoryAt state) =
        moreMoments.map (memoryAt (stateAfter program state)) := by
      rw [List.map_map, records.replays]
      refine List.map_congr_left fun moment _ => ?_
      change memoryAt state (log ++ moment) = _
      rw [memoryAt, memoryAt, replay_append]
    rw [Node.formsAll_append, List.filter_append, List.map_append, shifted]
    exact first.memories.append rest.memories
  within := by
    intro moment member
    rcases List.mem_append.mp member with early | late
    · exact (first.within moment early).trans (List.prefix_append log moreLog)
    · obtain ⟨later, inRest, rfl⟩ := List.mem_map.mp late
      exact (List.prefix_append_right_inj log).mpr (rest.within later inRest)

/-- A node with the same memories. -/
theorem ofSame {node : Node} (tells : SizesTell nodes state log moments)
    (same : SameMemories node nodes) : SizesTell [node] state log moments := by
  refine ⟨?_, tells.within⟩
  rw [Node.formsAll_singleton]
  exact same.trans tells.memories

/-- **An allocation adds its own moment**, which is when all of its body has happened. -/
theorem memory (tells : SizesTell nodes state log moments) (records : Records program state log) :
    SizesTell [.memory nodes (stateAfter program state).builder.allocation] state log
      (moments ++ [log]) where
  memories := by
    have own : [ModuleForm.memory (sigil "memory")
        (toString (stateAfter program state).builder.allocation), .ofMemory].filter
          (·.isMemory) = [memoryAt state log] := by
      rw [records.replays]
      rfl
    rw [Node.formsAll_singleton, Node.forms_memory, List.filter_append, own, List.map_append]
    exact tells.memories.append_right _
  within := by
    intro moment member
    rcases List.mem_append.mp member with inside | own
    · exact tells.within moment inside
    · obtain rfl := List.mem_singleton.mp own
      exact List.prefix_refl moment

end SizesTell

/-! ## Recipes and their moments -/

/-- The recipe is one of operations, and the node declares the memories of the parts, of which the
given nodes are the first. -/
def Recipe.Gathers (named : String → Prop) (before : List Node) : Recipe → Prop
  | .node result => SameMemories result before
  | .operand expression next =>
    expression.OnlyOperations named ∧ ∀ made, Gathers named (before ++ [made]) (next made)
  | .body items next =>
    Item.OnlyOperations named items ∧ ∀ made, Gathers named (before ++ made) (next made)
  | .literal _ => before = []
  | .memory items => before = [] ∧ Item.OnlyOperations named items

/-- **The memories that an operation declares are those of its operands and bodies.** -/
theorem gathers_operation {named : String → Prop} : ∀ expression : Expression,
    expression.OnlyOperations named → expression.recipe.Gathers named []
  | .binary _ _ _, ⟨left, right⟩ => ⟨left, fun _ => ⟨right, fun _ => .ordinary rfl⟩⟩
  | .unary _ _, only | .memoryGrow _, only | .returnValue _, only | .drop _, only
  | .breakIf _ _, only => ⟨only, fun _ => .ordinary rfl⟩
  | .convert source target _, only => ⟨only, fun operand => .convert source target operand⟩
  | .constant _ _, _ | .declareLocal _ _, _ | .memorySize, _ | .breakTo _, _ | .returnVoid, _
  | .table _ _ _, _ | .start _, _ | .declareGlobal _ _ _ none, _ => .ordinary rfl
  | .string _, _ | .data _, _ => rfl
  | .declareGlobal _ _ _ (some _), only => ⟨only, fun _ => .ordinary rfl⟩
  | .setVariable kind _ _, only => ⟨only, fun _ => .ordinary (by cases kind <;> rfl)⟩
  | .getVariable kind _, _ => .ordinary (by cases kind <;> rfl)
  | .store _ _ _ _, ⟨address, value⟩ =>
      ⟨address, fun _ => ⟨value, fun _ => .behindLine rfl rfl rfl⟩⟩
  | .load _ _ _, only => ⟨only, fun _ => .behindLine rfl rfl rfl⟩
  | .allocate _, only => ⟨rfl, only⟩
  | .ifThen result _ _ none, ⟨condition, consequent, _⟩ =>
      ⟨condition, fun _ => ⟨consequent, fun _ => .ifThen_none result _ _⟩⟩
  | .ifThen result _ _ (some _), ⟨condition, consequent, alternative⟩ =>
      ⟨condition, fun _ => ⟨consequent, fun _ => ⟨alternative, fun _ => .ifThen result _ _ _⟩⟩⟩
  | .loopWhile label _ _, ⟨condition, body⟩ =>
      ⟨condition, fun _ => ⟨body, fun _ => .loopWhile label _ _⟩⟩
  | .block _ _, only | .call _ _, only => ⟨only, fun _ => .ordinary rfl⟩
  | .select _ _ _, ⟨first, second, condition⟩ =>
      ⟨first, fun _ => ⟨second, fun _ => ⟨condition, fun _ => .ordinary rfl⟩⟩⟩
  | .importFunction library field name params, _ => .importFunction library field name params
  | .function name steps _, ⟨_, only⟩ => ⟨only, fun body => .function (.ofSteps name steps) body⟩
  | .elements _ names, only => ⟨only, fun offset => .elements offset names⟩

/-- The moments at which memories are sized while a recipe is followed. -/
def Recipe.sizings (state : State) : Recipe → List (List Event)
  | .node _ => []
  | .operand expression next =>
    expression.sizings state ++
      (Recipe.sizings (stateAfter expression.make state) (next (expression.make.run state).1)).map
        (expression.log state ++ ·)
  | .body items next =>
    Item.sizings state items ++
      (Recipe.sizings (stateAfter (Item.makeAll items) state)
        (next ((Item.makeAll items).run state).1)).map (Item.logAll state items ++ ·)
  | .literal _ => []
  | .memory items => Item.sizings state items ++ [Item.logAll state items]

/-- The moments of an expression are those of its recipe. -/
theorem Expression.sizings_eq_recipe (expression : Expression) (state : State) :
    expression.sizings state = expression.recipe.sizings state := by
  cases expression with
  | declareGlobal isMutable name type initial =>
      cases initial <;> simp [Expression.sizings, Expression.sizingsOptional, recipe,
        Recipe.sizings, Recipe.ofOperand]
  | ifThen result condition consequent alternative =>
      cases alternative <;> simp [Expression.sizings, Item.sizingsOptional, recipe, Recipe.sizings,
        Recipe.ofBody]
  | _ => simp [Expression.sizings, recipe, Recipe.sizings, Recipe.ofOperand, Recipe.ofBody]

/-- The memories of the expression are sized at its moments, if it is one of operations. -/
def Expression.SizesTell (named : String → Prop) (expression : Expression) : Prop :=
  expression.OnlyOperations named → ∀ state,
    Session.SizesTell [(expression.make.run state).1] state (expression.log state)
      (expression.sizings state)

/-- The same of a body. -/
def Item.SizesTell (named : String → Prop) (body : List Item) : Prop :=
  Item.OnlyOperations named body → ∀ state,
    Session.SizesTell ((Item.makeAll body).run state).1 state (Item.logAll state body)
      (Item.sizings state body)

/-- What a recipe makes has the memories of the given nodes and of some whose memories are sized at
the moments of the recipe. -/
theorem Recipe.Gathers.sizesTell {named : String → Prop} {recipe : Recipe} {before : List Node}
    (gathers : recipe.Gathers named before)
    (each : recipe.Each (Expression.SizesTell named) (Item.SizesTell named)) (state : State) :
    ∃ nodes, SameMemories (recipe.make.run state).1 (before ++ nodes) ∧
      SizesTell nodes state (recipe.log state) (recipe.sizings state) := by
  induction recipe generalizing before state with
  | node result =>
      refine ⟨[], ?_, .nil state []⟩
      rw [List.append_nil]
      exact gathers
  | operand expression next ih =>
      obtain ⟨only, rest⟩ := gathers
      obtain ⟨nodes, same, tells⟩ := ih _ (rest _) (each.2 _) (stateAfter expression.make state)
      refine ⟨(expression.make.run state).1 :: nodes, ?_, ?_⟩
      · rwa [List.append_assoc] at same
      · exact (each.1 only state).bind (records_expression state expression) tells
  | body items next ih =>
      obtain ⟨only, rest⟩ := gathers
      obtain ⟨nodes, same, tells⟩ :=
        ih _ (rest _) (each.2 _) (stateAfter (Item.makeAll items) state)
      refine ⟨((Item.makeAll items).run state).1 ++ nodes, ?_, ?_⟩
      · rwa [List.append_assoc] at same
      · exact (each.1 only state).bind (records_body state items) tells
  | literal bytes =>
      cases gathers
      exact ⟨[], .refl _, .nil state _⟩
  | memory items =>
      obtain ⟨rfl, only⟩ := gathers
      exact ⟨_, .self _, (each only state).memory (records_body state items)⟩

/-- That memories are sized at the moments, is inherited. -/
theorem inherited_sizesTell (named : String → Prop) :
    Inherited (Expression.SizesTell named) (Item.SizesTell named) (fun _ => True) where
  expression expression each only state := by
    obtain ⟨nodes, same, tells⟩ := (gathers_operation expression only).sizesTell each state
    rw [expression.make_eq_recipe, expression.log_eq_recipe, expression.sizings_eq_recipe]
    exact tells.ofSame same
  nil _ state := .nil state []
  expressionItem expression _ first rest only state :=
    (first only.1 state).bind (records_expression state expression) (rest only.2 _)
  actionItem action _ _ rest only state :=
    (SizesTell.nil state _).bind (records_action state action) (rest only _)
  action _ _ := trivial

/-- **The memories of a body of operations are sized at its moments.** -/
theorem sizesTell_body {named : String → Prop} (body : List Item) (state : State)
    (only : Item.OnlyOperations named body) :
    SizesTell ((Item.makeAll body).run state).1 state (Item.logAll state body)
      (Item.sizings state body) :=
  (inherited_sizesTell named).ofBody body only state

end WasmWorkshop.Session
