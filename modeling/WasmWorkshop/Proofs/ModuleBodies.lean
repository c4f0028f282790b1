import WasmWorkshop.Proofs.BuiltModules
import WasmWorkshop.Proofs.SessionHistory

/-!
# The body of the module in a session

A body of operations puts no node together by hand (`Item.OnlyOperations`). It may stand anywhere in
a session, and what the session does before it, after it or in the middle of it is not restricted:
actions make no nodes of the body.

The session builds the module from the body that is there when the module is called for the first
time (`BuildsModule`). The group of that module is then among the top-level nodes for good, and a
session that can be finished has refused no stretch of the data region and passes the symbol check
with all of its nodes (`BuildsModule.mem_items`, `accepted_of_finished`).
-/

set_option autoImplicit false

namespace WasmWorkshop.Session

/-! ## Bodies of operations -/

mutual

/-- An expression that puts nothing together by hand. What it calls its functions, imported or not,
is `named`. -/
def Expression.OnlyOperations (named : String → Prop) : Expression → Prop
  | .binary _ left right | .store _ _ left right =>
    left.OnlyOperations named ∧ right.OnlyOperations named
  | .unary _ operand | .convert _ _ operand | .setVariable _ _ operand | .load _ _ operand
  | .memoryGrow operand | .breakIf _ operand | .returnValue operand | .drop operand
  | .elements operand _ => operand.OnlyOperations named
  | .constant _ _ | .declareLocal _ _ | .getVariable _ _ | .memorySize | .breakTo _
  | .returnVoid | .table _ _ _ | .start _ | .string _ | .data _ => True
  | .declareGlobal _ _ _ initial => Expression.OptionalOnlyOperations named initial
  | .allocate body | .block _ body | .call _ body => Item.OnlyOperations named body
  | .ifThen _ condition consequent alternative =>
    condition.OnlyOperations named ∧ Item.OnlyOperations named consequent ∧
      Item.OptionalOnlyOperations named alternative
  | .loopWhile _ condition body =>
    condition.OnlyOperations named ∧ Item.OnlyOperations named body
  | .select first second condition =>
    first.OnlyOperations named ∧ second.OnlyOperations named ∧ condition.OnlyOperations named
  | .importFunction _ _ name _ => named name
  | .function name _ body => named name ∧ Item.OnlyOperations named body
  | .rawLeaf _ | .rawForm _ | .rawGroup _ _ | .rawFragment _ | .withSymbol _ _
  | .withScope _ _ => False

/-- The same of an operand, if there is one. -/
def Expression.OptionalOnlyOperations (named : String → Prop) : Option Expression → Prop
  | none => True
  | some expression => expression.OnlyOperations named

/-- The same of a body. The actions in it are not part of what it makes. -/
def Item.OnlyOperations (named : String → Prop) : List Item → Prop
  | [] => True
  | .expression expression :: rest =>
    expression.OnlyOperations named ∧ Item.OnlyOperations named rest
  | .action _ :: rest => Item.OnlyOperations named rest

/-- The same of a body, if there is one. -/
def Item.OptionalOnlyOperations (named : String → Prop) : Option (List Item) → Prop
  | none => True
  | some body => Item.OnlyOperations named body

end

/-! ## Sessions that build the module -/

/-- The session with the module open, after the given events. -/
def opened (start : State) (past : List Event) : State := (replay start past).change (·.openModule)

/-- The nodes that the body of the module makes. -/
def bodyNodes (start : State) (past : List Event) (body : List Item) : List Node :=
  ((Item.makeAll body).run (opened start past)).1

/-- What has happened in a session when the body of its module is made. -/
def bodyLog (start : State) (past : List Event) (body : List Item) : List Event :=
  past ++ .module true :: Item.logAll (opened start past) body

/-- The session builds its module from the given body. Before it is called for there are the past
events, and after it is answered the future ones. -/
structure BuildsModule (start : State) (actions : List Action) (past : List Event)
    (body : List Item) (future : List Event) : Prop where
  unopened : (replay start past).builder.phase = .unopened
  whole : Action.logAll start actions =
    past ++ ((Action.module body).log (replay start past) ++ future)

variable {start : State} {actions : List Action} {past future : List Event} {body : List Item}

/-- The body returns right after what happens in it. -/
theorem BuildsModule.log_eq (builds : BuildsModule start actions past body future) :
    ∃ rest, Action.logAll start actions =
      bodyLog start past body ++ .close (bodyNodes start past body) :: rest := by
  obtain ⟨unopened, whole⟩ := builds
  rw [Action.log, if_pos unopened] at whole
  rw [whole, bodyLog]
  exact ⟨_, by simp [opened, bodyNodes]; rfl⟩

theorem builder_eq_replay (location : String) (options : LayoutOptions) (actions : List Action) :
    builderAfter location options actions =
      (replay (.create location options)
        (Action.logAll (.create location options) actions)).builder :=
  congrArg State.builder (records_performAll (.create location options) actions).replays

/-- **The module stays among the top-level nodes.** -/
theorem BuildsModule.mem_items {location : String} {options : LayoutOptions}
    (builds : BuildsModule (.create location options) actions past body future) :
    .ofGroup ["module"] (bodyNodes (.create location options) past body) ∈
      (builderAfter location options actions).items := by
  obtain ⟨rest, log⟩ := builds.log_eq
  rw [builder_eq_replay, items_replay, log]
  simp [Event.nodes]

/-- A session that can be finished has refused nothing, and its nodes pass the check. -/
theorem accepted_of_finished {location : String} {options : LayoutOptions} {text : String}
    (finished : (builderAfter location options actions).finish = .ok text) :
    ¬ Refused (.create location options) (Action.logAll (.create location options) actions) ∧
      checkSymbols (builderAfter location options actions).items = .ok () := by
  rw [builder_eq_replay] at finished ⊢
  have fresh : (State.create location options).builder.layout.overflowed = false := rfl
  have tells := finish_cases (overflowed_replay fresh
    (Action.logAll (.create location options) actions))
  obtain ⟨-, notRefused, accepted, -⟩ := (tells.text text).mp finished
  exact ⟨notRefused, accepted⟩

end WasmWorkshop.Session
