import WasmWorkshop.Session.Expression

/-!
# Running a session

Running a session threads a builder through its expressions and actions (`State`). The operands of
an expression are made in the order in which they stand, before the node itself; the order shows in
the offsets of data literals and in what the actions inside a body answer. Every action adds one
answer to the log, when it is done, so an action inside a body answers before the action that the
body belongs to.

The module is built once. While it is open, and after that, a further attempt is ignored, and the
body that comes with it is not looked at.
-/

set_option autoImplicit false

namespace WasmWorkshop.Session

open Handoff (Rehearsal Summary Toolchain)

/-- What an action answers. -/
inductive Answer where
  /-- Whether the module was built now, and the builder after that. -/
  | module (ran : Bool) (phase : Phase) (items allocation : Nat)
  | emit (items allocation : Nat)
  | build (head : Option String) (allocation : Nat)
  | reserve (offset allocation : Nat) (overflowed : Bool)
  | render (text : String)
  | check (verdict : Except Report Unit)
  | finish (outcome : Except BuildError String)
  | phase (phase : Phase)
  | allocation (size : Nat)
  | location (location : String)
  | indentWidth (width : Nat)
  /-- The head and the number of groups of each top-level node. -/
  | items (nodes : List (Option String × Nat))
  | run (rehearsal : Rehearsal Summary)

/-- A builder, and the answers so far. -/
structure State where
  builder : ModuleBuilder
  answers : List Answer := []

namespace State

/-- A session with a fresh builder. -/
def create (location : String) (options : LayoutOptions) : State :=
  { builder := .create location options }

/-- The session with its builder changed. -/
def change (state : State) (change : ModuleBuilder → ModuleBuilder) : State :=
  { state with builder := change state.builder }

/-- The session with one more answer, which may depend on the builder. -/
def answer (state : State) (answer : ModuleBuilder → Answer) : State :=
  { state with answers := state.answers ++ [answer state.builder] }

end State

/-- A computation in a session. -/
abbrev SessionM := StateM State

/-- Places the bytes of a data literal, and makes its node. -/
def placeLiteral (bytes : List UInt8) : SessionM Node := do
  let offset := (← get).builder.allocation
  modify (·.change (·.place bytes))
  return .dataLiteral offset bytes

/-- Answers an action. -/
def reply (answer : ModuleBuilder → Answer) : SessionM Unit := modify (·.answer answer)

mutual

/-- Makes the node that an expression describes. -/
def Expression.make : Expression → SessionM Node
  | .binary operator left right => do
    let left ← left.make
    let right ← right.make
    return .binary operator left right
  | .unary operator operand => do
    let operand ← operand.make
    return .unary operator operand
  | .convert source target operand => do
    let operand ← operand.make
    return .convert source target operand
  | .constant type value => return .constant type value
  | .declareLocal name type => return .declareLocal name type
  | .declareGlobal isMutable name type initial => do
    let initial ← Expression.makeOptional initial
    return .declareGlobal isMutable name type initial
  | .setVariable kind name value => do
    let value ← value.make
    return .setVariable kind name value
  | .getVariable kind name => return .getVariable kind name
  | .store type offset address value => do
    let address ← address.make
    let value ← value.make
    return .store type offset address value
  | .load type offset address => do
    let address ← address.make
    return .load type offset address
  | .memorySize => return .memorySize
  | .memoryGrow pages => do
    let pages ← pages.make
    return .memoryGrow pages
  | .string text => placeLiteral (terminated text)
  | .data bytes => placeLiteral bytes
  | .allocate body => do
    let literals ← Item.makeAll body
    return .memory literals (← get).builder.allocation
  | .ifThen result condition consequent alternative => do
    let condition ← condition.make
    let consequent ← Item.makeAll consequent
    let alternative ← Item.makeOptional alternative
    return .ifThen result condition consequent alternative
  | .loopWhile label condition body => do
    let condition ← condition.make
    let body ← Item.makeAll body
    return .loopWhile label condition body
  | .block label body => do
    let body ← Item.makeAll body
    return .block label body
  | .breakTo label => return .breakTo label
  | .breakIf label condition => do
    let condition ← condition.make
    return .breakIf label condition
  | .returnValue value => do
    let value ← value.make
    return .returnValue value
  | .returnVoid => return .returnVoid
  | .select first second condition => do
    let first ← first.make
    let second ← second.make
    let condition ← condition.make
    return .select first second condition
  | .drop value => do
    let value ← value.make
    return .drop value
  | .call name arguments => do
    let arguments ← Item.makeAll arguments
    return .call name arguments
  | .importFunction library field name params => return .importFunction library field name params
  | .function name steps body => do
    let body ← Item.makeAll body
    return .function (.ofSteps name steps) body
  | .table name size elements => return .table name size elements
  | .elements offset names => do
    let offset ← offset.make
    return .elements offset names
  | .start name => return .start name
  | .rawLeaf text => return .ofText text
  | .rawForm header => return .ofHeader header
  | .rawGroup header children => do
    let children ← Item.makeAll children
    return .ofGroup header children
  | .rawFragment children => do
    let children ← Item.makeAll children
    return .ofNodes children
  | .withSymbol node symbol => do
    let node ← node.make
    return node.withSymbol symbol
  | .withScope node scope => do
    let node ← node.make
    return node.withScope scope

/-- Makes the node of an expression that may be missing. -/
def Expression.makeOptional : Option Expression → SessionM (Option Node)
  | none => return none
  | some expression => do
    let node ← expression.make
    return some node

/-- Makes the nodes of a body, and performs the actions in it. -/
def Item.makeAll : List Item → SessionM (List Node)
  | [] => return []
  | .expression expression :: rest => do
    let node ← expression.make
    let nodes ← Item.makeAll rest
    return node :: nodes
  | .action action :: rest => do
    action.perform
    Item.makeAll rest

/-- Makes the nodes of a body that may be missing. -/
def Item.makeOptional : Option (List Item) → SessionM (Option (List Node))
  | none => return none
  | some body => do
    let nodes ← Item.makeAll body
    return some nodes

/-- Performs an action, and answers it. -/
def Action.perform : Action → SessionM Unit
  | .module body => do
    if (← get).builder.phase = .unopened then
      modify (·.change (·.openModule))
      let nodes ← Item.makeAll body
      modify (·.change (·.closeModule nodes))
      reply fun builder => .module true builder.phase builder.items.length builder.allocation
    else
      reply fun builder => .module false builder.phase builder.items.length builder.allocation
  | .emit node => do
    let node ← node.make
    modify (·.change (·.append node))
    reply fun builder => .emit builder.items.length builder.allocation
  | .build node => do
    let node ← node.make
    reply fun builder => .build node.head? builder.allocation
  | .reserve length => do
    let offset := (← get).builder.allocation
    modify (·.change (·.reserve length))
    reply fun builder => .reserve offset builder.allocation builder.layout.overflowed
  | .render => reply fun builder => .render builder.render
  | .check => reply fun builder => .check builder.check
  | .finish => reply fun builder => .finish builder.finish
  | .phase => reply fun builder => .phase builder.phase
  | .allocation => reply fun builder => .allocation builder.allocation
  | .location => reply fun builder => .location builder.location
  | .indentWidth => reply fun builder => .indentWidth builder.options.indentWidth
  | .items => reply fun builder =>
      .items (builder.items.map fun node => (node.head?, node.groupCount))
  | .run toolchain directories =>
    reply fun builder => .run (Handoff.rehearseRun builder toolchain directories)

end

/-- Performs actions one after another. -/
def performAll : List Action → SessionM Unit
  | [] => return ()
  | action :: rest => do
    action.perform
    performAll rest

/-- The answers of a session, in the order in which its actions were done. -/
def answers (location : String) (options : LayoutOptions) (actions : List Action) :
    List Answer :=
  ((performAll actions).run (.create location options)).2.answers

/-- The nodes of a body that is made with a fresh builder, and the size of the data region after
that. -/
def makeNodes (body : List Item) : List Node × Nat :=
  let (nodes, state) := (Item.makeAll body).run (.create "" {})
  (nodes, state.builder.allocation)

/-! ## Writing step by step -/

/-- One step of a writer. -/
inductive WriterStep where
  | line (text : String)
  | node (node : Expression)
  | headed (header : List String) (children : Option (List Item))

/-- A writer after one more step, whose nodes are made in the session. -/
def WriterStep.apply (writer : LineWriter) : WriterStep → SessionM LineWriter
  | .line text => return writer.line text
  | .node expression => do
    let node ← expression.make
    return writer.node node
  | .headed header children => do
    let children ← Item.makeOptional children
    return writer.headed header children

/-- The writer after each of a sequence of steps. -/
def WriterStep.applyAll (writer : LineWriter) : List WriterStep → SessionM (List LineWriter)
  | [] => return []
  | step :: rest => do
    let writer ← step.apply writer
    let writers ← WriterStep.applyAll writer rest
    return writer :: writers

/-- The writer after each of a sequence of steps, all nodes being made with one fresh builder. -/
def writers (options : LayoutOptions) (steps : List WriterStep) : List LineWriter :=
  ((WriterStep.applyAll (.empty options) steps).run (.create "" {})).1

end WasmWorkshop.Session
