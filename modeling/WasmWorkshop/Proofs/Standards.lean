import WasmWorkshop.Proofs.Traversal

/-!
# Standards for sessions

A standard says what is asked of the expressions, bodies and actions of a session, and what the
nodes are like that come of them (`Standard`). Asking it of the whole is enough if two things are
so for each operation by itself: what is asked of an expression is asked of its parts, and good
nodes for the parts give a good node for the whole (`Standard.Meets`). Then whatever the session
makes is good, and so are the top-level nodes that it leaves behind (`Standard.Kept.inherited`,
`Standard.Kept.performAll`).

Of the state a standard says nothing but what its top-level nodes are like. So the data region, the
answers and the phase play no part.
-/

set_option autoImplicit false

namespace WasmWorkshop.Session

/-! ## What a program makes -/

/-- A program that makes something good and keeps an invariant of the state. -/
def Ensures {α : Type} (invariant : State → Prop) (good : α → Prop) (program : SessionM α) :
    Prop :=
  ∀ state : State, invariant state →
    good (program.run state).1 ∧ invariant (program.run state).2

namespace Ensures

variable {α β : Type} {invariant : State → Prop} {good : α → Prop} {better : β → Prop}

theorem pure {value : α} (isGood : good value) : Ensures invariant good (pure value) :=
  fun _ holds => ⟨isGood, holds⟩

theorem bind {program : SessionM α} {next : α → SessionM β}
    (first : Ensures invariant good program)
    (rest : ∀ value, good value → Ensures invariant better (next value)) :
    Ensures invariant better (program >>= next) := by
  intro state holds
  obtain ⟨isGood, still⟩ := first state holds
  exact rest _ isGood _ still

theorem get : Ensures invariant (fun _ => True) (get : SessionM State) :=
  fun _ holds => ⟨trivial, holds⟩

theorem modify {change : State → State}
    (keeps : ∀ state : State, invariant state → invariant (change state)) :
    Ensures invariant (fun _ => True) (modify change : SessionM Unit) :=
  fun state holds => ⟨trivial, keeps state holds⟩

end Ensures

/-! ## Standards -/

/-- Where a node goes. -/
inductive Position where
  /-- Among the items of the module. -/
  | moduleItem
  /-- Among the operands of an instruction, or in a body. -/
  | operand
  deriving DecidableEq

/-- What is asked of the parts of a session, and what the nodes that are made of them are like. -/
structure Standard where
  expression : Position → Expression → Prop
  body : Position → List Item → Prop
  action : Action → Prop
  /-- The nodes that expressions make. -/
  node : Position → Node → Prop
  /-- The top-level nodes of the builder. -/
  item : Node → Prop

namespace Standard

variable (standard : Standard)

/-- The top-level nodes are good. -/
def Holds (state : State) : Prop := ∀ node ∈ state.builder.items, standard.item node

/-- If the standard is asked of the expression, the node is good where it goes. -/
def ForExpression (expression : Expression) : Prop :=
  ∀ position : Position, standard.expression position expression →
    Ensures standard.Holds (standard.node position) expression.make

/-- If the standard is asked of the body, its nodes are good where they go. -/
def ForBody (body : List Item) : Prop :=
  ∀ position : Position, standard.body position body →
    Ensures standard.Holds (fun nodes => ∀ node ∈ nodes, standard.node position node)
      (Item.makeAll body)

/-- If the standard is asked of the action, the top-level nodes stay good. -/
def ForAction (action : Action) : Prop :=
  standard.action action → Ensures standard.Holds (fun _ => True) action.perform

/-- The standard is asked of the parts of a recipe, and good nodes for them give a good node. Parts
stand among operands, and only the literals of a memory stand where the memory goes. -/
def Meets (position : Position) : Recipe → Prop
  | .node result => standard.node position result
  | .operand expression next =>
    standard.expression .operand expression ∧
      ∀ made, standard.node .operand made → Meets position (next made)
  | .body items next =>
    standard.body .operand items ∧
      ∀ made, (∀ node ∈ made, standard.node .operand node) → Meets position (next made)
  | .literal bytes => ∀ offset, standard.node position (.dataLiteral offset bytes)
  | .memory items =>
    standard.body position items ∧
      ∀ literals, (∀ node ∈ literals, standard.node position node) →
        ∀ size, standard.node position (.memory literals size)

/-- A standard that sessions keep: what is asked of the whole is asked of the parts, and each
expression, body or action is good if its parts are. -/
structure Kept : Prop where
  recipe : ∀ (position : Position) (expression : Expression),
    standard.expression position expression → standard.Meets position expression.recipe
  expressionItem : ∀ {position : Position} {expression : Expression} {rest : List Item},
    standard.body position (.expression expression :: rest) →
      standard.expression position expression ∧ standard.body position rest
  actionItem : ∀ {position : Position} {action : Action} {rest : List Item},
    standard.body position (.action action :: rest) →
      standard.action action ∧ standard.body position rest
  action : ∀ action : Action,
    action.Each standard.ForExpression standard.ForBody → standard.ForAction action

variable {standard}

theorem holds_append {state : State} (holds : standard.Holds state) {node : Node}
    (good : standard.item node) : standard.Holds (state.change (·.append node)) :=
  List.forall_mem_append.mpr ⟨holds, List.forall_mem_singleton.mpr good⟩

theorem ensures_reply (question : ModuleBuilder → Answer) :
    Ensures standard.Holds (fun _ => True) (reply question) :=
  .modify fun _ holds => holds

/-- A recipe that meets the standard makes a good node, if its parts make good nodes. -/
theorem Meets.ensures {position : Position} {recipe : Recipe}
    (meets : standard.Meets position recipe)
    (each : recipe.Each standard.ForExpression standard.ForBody) :
    Ensures standard.Holds (standard.node position) recipe.make := by
  induction recipe with
  | node result => exact .pure meets
  | operand expression next ih =>
      obtain ⟨asked, rest⟩ := meets
      exact .bind (each.1 _ asked) fun made good => ih made (rest made good) (each.2 made)
  | body items next ih =>
      obtain ⟨asked, rest⟩ := meets
      exact .bind (each.1 _ asked) fun made good => ih made (rest made good) (each.2 made)
  | literal bytes =>
      refine .bind .get fun state _ => .bind (.modify fun _ holds => holds) fun _ _ => ?_
      exact .pure (meets state.builder.allocation)
  | memory items =>
      obtain ⟨asked, rest⟩ := meets
      refine .bind (each _ asked) fun literals good => .bind .get fun state _ => ?_
      exact .pure (rest literals good state.builder.allocation)

/-- Actions keep a standard that asks of them what it asks of what they make, if good nodes are good
at the top level, by themselves and as a module. -/
theorem forAction_of_each
    (module : ∀ body, standard.action (.module body) → standard.body .moduleItem body)
    (emit : ∀ node, standard.action (.emit node) → standard.expression .moduleItem node)
    (build : ∀ node, standard.action (.build node) → standard.expression .moduleItem node)
    (item : ∀ node, standard.node .moduleItem node → standard.item node)
    (group : ∀ body, (∀ node ∈ body, standard.node .moduleItem node) →
      standard.item (.ofGroup ["module"] body)) :
    ∀ action : Action, action.Each standard.ForExpression standard.ForBody →
      standard.ForAction action
  | .module body, inside, asked => by
      rw [Action.perform]
      refine .bind .get fun state _ => ?_
      split
      · refine .bind (.modify fun _ holds => holds) fun _ _ => ?_
        refine .bind (inside .moduleItem (module body asked)) fun nodes good => ?_
        refine .bind (.modify fun state holds => ?_) fun _ _ => ensures_reply _
        exact holds_append holds (group nodes good)
      · exact ensures_reply _
  | .emit node, made, asked => by
      refine .bind (made .moduleItem (emit node asked)) fun _ good => ?_
      refine .bind (.modify fun _ holds => ?_) fun _ _ => ensures_reply _
      exact holds_append holds (item _ good)
  | .build node, made, asked =>
      .bind (made .moduleItem (build node asked)) fun _ _ => ensures_reply _
  | .reserve _, _, _ =>
      .bind .get fun _ _ => .bind (.modify fun _ holds => holds) fun _ _ => ensures_reply _
  | .render, _, _ | .check, _, _ | .finish, _, _ | .phase, _, _ | .allocation, _, _
  | .location, _, _ | .indentWidth, _, _ | .items, _, _ | .run _ _, _, _ => ensures_reply _

namespace Kept

variable (kept : standard.Kept)
include kept

/-- A standard that is kept by each part is kept by all expressions, bodies and actions. -/
theorem inherited : Inherited standard.ForExpression standard.ForBody standard.ForAction where
  expression expression each position asked := by
    rw [expression.make_eq_recipe]
    exact (kept.recipe position expression asked).ensures each
  nil _ _ := .pure (List.forall_mem_nil _)
  expressionItem _ _ first rest position asked := by
    obtain ⟨now, later⟩ := kept.expressionItem asked
    refine .bind (first position now) fun _ good => ?_
    refine .bind (rest position later) fun _ others => ?_
    exact .pure (List.forall_mem_cons.mpr ⟨good, others⟩)
  actionItem _ _ first rest position asked := by
    obtain ⟨now, later⟩ := kept.actionItem asked
    exact .bind (first now) fun _ _ => rest position later
  action := kept.action

/-- **What is asked of all actions is true of what the session leaves behind.** -/
theorem performAll {actions : List Action} (asked : ∀ action ∈ actions, standard.action action) :
    Ensures standard.Holds (fun _ => True) (Session.performAll actions) := by
  induction actions with
  | nil => exact .pure trivial
  | cons action rest ih =>
      obtain ⟨now, later⟩ := List.forall_mem_cons.mp asked
      exact .bind (kept.inherited.ofAction action now) fun _ _ => ih later

end Kept

end Standard

end WasmWorkshop.Session
