import WasmWorkshop.Machine.Host
import WasmWorkshop.Machine.Memory

/-!
# Execution

Running code changes a store, which has the memory, the globals and the log of host calls, and the
locals and operands of the running function. Code ends by running off its end, by a jump out of one
of the blocks around it, or by a return (`Flow`); or it stops with a trap.

A block runs on operands of its own and leaves its result on those outside. A jump to depth zero
ends the innermost block, and starts a loop again. Running is bounded by fuel, of which every
instruction takes one unit, so that it is a total function; a module that runs out of fuel has
not answered. Calls nest up to a limit, past which a call traps.
-/

set_option autoImplicit false

namespace WasmWorkshop.Machine

open Binary (FunctionType Instruction WordOperator LongOperator)

/-- What outlives a call. -/
structure Store where
  memory : Option Memory := none
  globals : List Value := []
  /-- The calls of host functions so far. -/
  calls : List HostCall := []

/-- A running function. -/
structure Activation where
  store : Store
  locals : List Value
  operands : List Value := []

/-- How code ends. -/
inductive Flow where
  | next
  | break (depth : Nat)
  | return
  deriving DecidableEq

/-- Why code stops. -/
inductive Trap where
  | unreachable
  | divisionByZero
  | integerOverflow
  | outOfBounds
  | callsTooDeep
  /-- Code that is not well typed. Valid code does not get here. -/
  | illTyped
  /-- The fuel is used up. -/
  | exhausted
  deriving DecidableEq

/-- A function that can be called: one of the host, or one with a body. -/
inductive Callee where
  | host (function : HostFunction)
  | code (type : FunctionType) (locals : List ValueType) (body : List Instruction)

/-- The type of a function that can be called. -/
def Callee.type : Callee → FunctionType
  | .host function => function.type
  | .code type _ _ => type

/-! ## Operands -/

/-- The last operand, which must be a word, and the running function without it. -/
def Activation.popWord? (activation : Activation) : Option (UInt32 × Activation) :=
  match activation.operands with
  | .word bits :: rest => some (bits, { activation with operands := rest })
  | _ => none

/-- The running function with a changed memory. -/
def Activation.withMemory (activation : Activation) (memory : Memory) : Activation :=
  { activation with store := { activation.store with memory := some memory } }

/-- The last `count` operands. -/
def Activation.results (activation : Activation) (count : Nat) : List Value :=
  activation.operands.take count

/-! ## Plain instructions -/

/-- Division of signed words toward zero. The one quotient that does not fit is an error. -/
def divideWords (left right : UInt32) : Except Trap UInt32 :=
  if right = 0 then .error .divisionByZero
  else if left = 0x80000000 ∧ right = 0xFFFFFFFF then .error .integerOverflow
  else .ok (left.toInt32 / right.toInt32).toUInt32

/-- The remainder of signed words, with the sign of the dividend. It is zero where the quotient
does not fit. -/
def remainderWords (left right : UInt32) : Except Trap UInt32 :=
  if right = 0 then .error .divisionByZero
  else if left = 0x80000000 ∧ right = 0xFFFFFFFF then .ok 0
  else .ok (left.toInt32 % right.toInt32).toUInt32

/-- The result of an operator on words. -/
def applyWord (operator : WordOperator) (left right : UInt32) : Except Trap UInt32 :=
  match operator with
  | .lessThan => .ok (if left.toInt32 < right.toInt32 then 1 else 0)
  | .add => .ok (left + right)
  | .subtract => .ok (left - right)
  | .multiply => .ok (left * right)
  | .divide => divideWords left right
  | .remainder => remainderWords left right

/-- The result of an operator on long words. -/
def applyLong (operator : LongOperator) (left right : UInt64) : UInt64 :=
  match operator with
  | .add => left + right
  | .multiply => left * right

/-- What an instruction does that neither jumps nor calls nor holds other instructions. -/
def Activation.step (activation : Activation) (instruction : Instruction) :
    Except Trap Activation :=
  match instruction, activation.operands with
  | .nop, _ => .ok activation
  | .unreachable, _ => .error .unreachable
  | .drop, _ :: rest => .ok { activation with operands := rest }
  | .localGet index, operands =>
    match activation.locals[index]? with
    | some value => .ok { activation with operands := value :: operands }
    | none => .error .illTyped
  | .localSet index, value :: rest =>
    .ok { activation with locals := activation.locals.set index value, operands := rest }
  | .localTee index, value :: rest =>
    .ok { activation with
      locals := activation.locals.set index value, operands := value :: rest }
  | .globalGet index, operands =>
    match activation.store.globals[index]? with
    | some value => .ok { activation with operands := value :: operands }
    | none => .error .illTyped
  | .globalSet index, value :: rest =>
    .ok { activation with
      store := { activation.store with globals := activation.store.globals.set index value }
      operands := rest }
  | .wordLoad _ offset, .word address :: rest =>
    match activation.store.memory with
    | none => .error .illTyped
    | some memory =>
      match memory.readWord? (address.toNat + offset) with
      | some word => .ok { activation with operands := .word word :: rest }
      | none => .error .outOfBounds
  | .wordStore _ offset, .word word :: .word address :: rest =>
    match activation.store.memory with
    | none => .error .illTyped
    | some memory =>
      match memory.writeWord? (address.toNat + offset) word with
      | some memory => .ok { activation.withMemory memory with operands := rest }
      | none => .error .outOfBounds
  | .memorySize, operands =>
    match activation.store.memory with
    | none => .error .illTyped
    | some memory =>
      .ok { activation with operands := .word (UInt32.ofNat memory.pages) :: operands }
  | .memoryGrow, .word pages :: rest =>
    match activation.store.memory with
    | none => .error .illTyped
    | some memory =>
      match memory.grow? pages.toNat with
      | some grown =>
        .ok { activation.withMemory grown with
          operands := .word (UInt32.ofNat memory.pages) :: rest }
      | none => .ok { activation with operands := .word 0xFFFFFFFF :: rest }
  | .wordConstant value, operands => .ok { activation with operands := .word value :: operands }
  | .longConstant value, operands => .ok { activation with operands := .long value :: operands }
  | .wordIsZero, .word value :: rest =>
    .ok { activation with operands := .word (if value = 0 then 1 else 0) :: rest }
  | .word operator, .word right :: .word left :: rest =>
    match applyWord operator left right with
    | .ok result => .ok { activation with operands := .word result :: rest }
    | .error trap => .error trap
  | .long operator, .long right :: .long left :: rest =>
    .ok { activation with operands := .long (applyLong operator left right) :: rest }
  | _, _ => .error .illTyped

/-! ## Blocks, jumps and calls -/

/-- How deep calls may nest. -/
def callLimit : Nat := 1000

/-- Calls a host function: it is logged, and its answer replaces its arguments. -/
def Activation.callHost (activation : Activation) (function : HostFunction) : Activation :=
  let count := function.type.params.length
  let arguments := (activation.operands.take count).reverse
  let call : HostCall := ⟨function.number, arguments⟩
  { activation with
    store := { activation.store with calls := activation.store.calls ++ [call] }
    operands := (function.respond arguments).reverse ++ activation.operands.drop count }

/-- The activation of a function that is called with the last operands. -/
def Activation.enter (activation : Activation) (type : FunctionType) (locals : List ValueType) :
    Activation :=
  let arguments := (activation.operands.take type.params.length).reverse
  { store := activation.store, locals := arguments ++ locals.map Value.zero }

/-- The calling function after a call, with the results in place of the arguments. -/
def Activation.leave (activation called : Activation) (type : FunctionType) : Activation :=
  { activation with
    store := called.store
    operands := called.results type.results.length ++ activation.operands.drop type.params.length }

/-- A running function after a block: the operands outside, with the result of the block. -/
def Activation.afterBlock (outside inside : Activation) (result : Option ValueType) :
    Activation :=
  { inside with operands := inside.results result.toList.length ++ outside.operands }

/-- Runs a sequence of instructions. A trap comes with the store as it was when it happened. -/
def run (callees : List Callee) :
    Nat → Nat → List Instruction → Activation → Except (Trap × Store) (Flow × Activation)
  | 0, _, _, activation => .error (.exhausted, activation.store)
  | _ + 1, _, [], activation => .ok (.next, activation)
  | fuel + 1, depth, instruction :: rest, activation =>
    match instruction with
    | .block result body =>
      match run callees fuel depth body { activation with operands := [] } with
      | .error stop => .error stop
      | .ok (.next, inside) | .ok (.break 0, inside) =>
        run callees fuel depth rest (activation.afterBlock inside result)
      | .ok (.break (outer + 1), inside) => .ok (.break outer, inside)
      | .ok (.return, inside) => .ok (.return, inside)
    | .loop result body =>
      match run callees fuel depth body { activation with operands := [] } with
      | .error stop => .error stop
      | .ok (.next, inside) =>
        run callees fuel depth rest (activation.afterBlock inside result)
      | .ok (.break 0, inside) =>
        run callees fuel depth (.loop result body :: rest)
          { inside with operands := activation.operands }
      | .ok (.break (outer + 1), inside) => .ok (.break outer, inside)
      | .ok (.return, inside) => .ok (.return, inside)
    | .branch result consequent alternative =>
      match activation.popWord? with
      | none => .error (.illTyped, activation.store)
      | some (condition, below) =>
        let body := if condition = 0 then alternative else consequent
        run callees fuel depth (.block result body :: rest) below
    | .break target => .ok (.break target, activation)
    | .breakIf target =>
      match activation.popWord? with
      | none => .error (.illTyped, activation.store)
      | some (condition, below) =>
        if condition = 0 then run callees fuel depth rest below
        else .ok (.break target, below)
    | .return => .ok (.return, activation)
    | .call function =>
      match callees[function]? with
      | none => .error (.illTyped, activation.store)
      | some (.host function) =>
        run callees fuel depth rest (activation.callHost function)
      | some (.code type locals body) =>
        if depth < callLimit then
          match run callees fuel (depth + 1) body (activation.enter type locals) with
          | .error stop => .error stop
          | .ok (_, called) => run callees fuel depth rest (activation.leave called type)
        else .error (.callsTooDeep, activation.store)
    | plain =>
      match activation.step plain with
      | .ok next => run callees fuel depth rest next
      | .error trap => .error (trap, activation.store)

/-- The fuel of one call from outside. -/
def callFuel : Nat := 0x10000000000

/-- Calls a function from outside. -/
def invoke (callees : List Callee) (store : Store) (function : Nat) (arguments : List Value) :
    Except (Trap × Store) (List Value × Store) :=
  match callees[function]? with
  | none => .error (.illTyped, store)
  | some callee =>
    match run callees callFuel 0 [.call function]
        { store := store, locals := [], operands := arguments.reverse } with
    | .error stop => .error stop
    | .ok (_, activation) =>
      .ok ((activation.results callee.type.results.length).reverse, activation.store)

end WasmWorkshop.Machine
