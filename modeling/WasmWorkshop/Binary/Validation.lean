import WasmWorkshop.Binary.Module

/-!
# Validation

A module is valid if every index in it exists, names of exports are distinct, limits are in order,
constants have the types they are used at, and every function body is well typed.

A body is typed against a stack of operand types. After an unconditional jump the stack is
polymorphic: it gives any type that is asked for (`Operands.pop?`), because the code behind the jump
never runs. A block starts on an empty stack of its own and must leave exactly its result.
-/

set_option autoImplicit false

namespace WasmWorkshop.Binary

/-! ## Operand types -/

/-- The types of the operands on the stack, the last one first. An operand of unknown type comes
from code that never runs. -/
structure Operands where
  types : List (Option ValueType) := []
  /-- Whether there may be anything below. -/
  polymorphic : Bool := false

namespace Operands

/-- The stack of a block that has just been entered. -/
def empty : Operands := {}

/-- The stack after code that never ends. -/
def unreachable : Operands := ⟨[], true⟩

/-- The stack with one more operand. -/
def push (operands : Operands) (type : ValueType) : Operands :=
  { operands with types := some type :: operands.types }

/-- The stack with more operands, the last one on top. -/
def pushAll (operands : Operands) (types : List ValueType) : Operands :=
  types.foldl push operands

/-- The stack without its top, whatever its type is. -/
def popAny? (operands : Operands) : Option Operands :=
  match operands.types with
  | _ :: rest => some { operands with types := rest }
  | [] => if operands.polymorphic then some operands else none

/-- The stack without its top, which must have the given type. -/
def pop? (operands : Operands) (type : ValueType) : Option Operands :=
  match operands.types with
  | some found :: rest => if found = type then some { operands with types := rest } else none
  | none :: rest => some { operands with types := rest }
  | [] => if operands.polymorphic then some operands else none

/-- The stack without operands of the given types, the last one of which is on top. -/
def popAll? (operands : Operands) (types : List ValueType) : Option Operands :=
  types.reverse.foldlM pop? operands

/-- Whether the stack holds operands of the given types and nothing else. -/
def isExactly (operands : Operands) (types : List ValueType) : Bool :=
  match operands.popAll? types with
  | some rest => rest.types.isEmpty
  | none => false

end Operands

/-! ## Function bodies -/

/-- What a body may refer to. -/
structure Context where
  module : Module
  locals : List ValueType
  results : List ValueType
  /-- What a jump to each enclosing block takes, the innermost first. -/
  labels : List (List ValueType)

/-- The context inside one more block. -/
def Context.enter (context : Context) (label : List ValueType) : Context :=
  { context with labels := label :: context.labels }

/-- An instruction that takes operands and gives results. -/
def step? (operands : Operands) (params results : List ValueType) : Option Operands :=
  (operands.popAll? params).map (·.pushAll results)

/-- Whether an access to the memory is in order: there is a memory, and the alignment is at most
the width of a word. -/
def Context.mayAccess (context : Context) (alignment : Nat) : Bool :=
  !context.module.memories.isEmpty && alignment ≤ 2

mutual

/-- The operands after an instruction, if it is well typed on the given ones. -/
def Instruction.type? (context : Context) (operands : Operands) :
    Instruction → Option Operands
  | .unreachable => some .unreachable
  | .nop => some operands
  | .block result body =>
    if Instruction.leaves (context.enter result.toList) .empty body result.toList then
      some (operands.pushAll result.toList)
    else none
  | .loop result body =>
    if Instruction.leaves (context.enter []) .empty body result.toList then
      some (operands.pushAll result.toList)
    else none
  | .branch result consequent alternative =>
    match operands.pop? .int with
    | none => none
    | some rest =>
      if Instruction.leaves (context.enter result.toList) .empty consequent result.toList &&
          Instruction.leaves (context.enter result.toList) .empty alternative result.toList then
        some (rest.pushAll result.toList)
      else none
  | .break depth => do
    let label ← context.labels[depth]?
    let _ ← operands.popAll? label
    return .unreachable
  | .breakIf depth => do
    let label ← context.labels[depth]?
    let rest ← operands.pop? .int
    step? rest label label
  | .return => do
    let _ ← operands.popAll? context.results
    return .unreachable
  | .call function => do
    let type ← context.module.functionType? function
    step? operands type.params type.results
  | .drop => operands.popAny?
  | .localGet index => do
    let type ← context.locals[index]?
    step? operands [] [type]
  | .localSet index => do
    let type ← context.locals[index]?
    step? operands [type] []
  | .localTee index => do
    let type ← context.locals[index]?
    step? operands [type] [type]
  | .globalGet index => do
    let global ← context.module.globals[index]?
    step? operands [] [global.type]
  | .globalSet index => do
    let global ← context.module.globals[index]?
    guard global.isMutable
    step? operands [global.type] []
  | .wordLoad alignment _ => do
    guard (context.mayAccess alignment)
    step? operands [.int] [.int]
  | .wordStore alignment _ => do
    guard (context.mayAccess alignment)
    step? operands [.int, .int] []
  | .memorySize => do
    guard (context.mayAccess 0)
    step? operands [] [.int]
  | .memoryGrow => do
    guard (context.mayAccess 0)
    step? operands [.int] [.int]
  | .wordConstant _ => step? operands [] [.int]
  | .longConstant _ => step? operands [] [.long]
  | .wordIsZero => step? operands [.int] [.int]
  | .word _ => step? operands [.int, .int] [.int]
  | .long _ => step? operands [.long, .long] [.long]

/-- Whether a sequence of instructions is well typed on the given operands and leaves operands of
the given types. -/
def Instruction.leaves (context : Context) (operands : Operands) :
    List Instruction → List ValueType → Bool
  | [], results => operands.isExactly results
  | first :: rest, results =>
    match first.type? context operands with
    | some next => Instruction.leaves context next rest results
    | none => false

end

/-- Whether a function has a type, not too many locals, and a body that is well typed. -/
def Function.isValid (module : Module) (function : Function) : Bool :=
  match module.types[function.typeIndex]? with
  | none => false
  | some type =>
    let locals := type.params ++ function.locals
    let context : Context := { module, locals, results := type.results, labels := [type.results] }
    locals.length ≤ localLimit &&
      Instruction.leaves context .empty function.body type.results

/-! ## Modules -/

/-- The greatest number of pages of a memory. -/
def pageLimit : Nat := 65536

/-- Whether limits are in order and within the address space. -/
def MemoryLimits.isValid (limits : MemoryLimits) : Bool :=
  match limits.maximum with
  | none => limits.minimum ≤ pageLimit
  | some maximum => limits.minimum ≤ maximum && maximum ≤ pageLimit

/-- Whether a global starts with a value of its type. -/
def Global.isValid (global : Global) : Bool := global.initial.type = global.type

/-- Whether what is exported exists. -/
def Export.isValid (module : Module) (exported : Export) : Bool :=
  match exported.target with
  | .function index => index < module.functionTypeIndices.length
  | .memory index => index < module.memories.length
  | .global index => index < module.globals.length

/-- Whether a start function takes and returns nothing. -/
def Module.hasValidStart (module : Module) : Bool :=
  match module.start with
  | none => true
  | some index => module.functionType? index = some ⟨[], []⟩

/-- Whether a segment has a memory to go to and an address of the right type. -/
def DataSegment.isValid (module : Module) (segment : DataSegment) : Bool :=
  !module.memories.isEmpty && segment.offset.type = .int

/-- Whether the module is valid. -/
def Module.isValid (module : Module) : Bool :=
  module.imports.all (fun entry => entry.typeIndex < module.types.length) &&
    module.functions.all (Function.isValid module) &&
    module.memories.length ≤ 1 && module.memories.all MemoryLimits.isValid &&
    module.globals.all Global.isValid &&
    decide (module.exports.map (·.name)).Nodup && module.exports.all (Export.isValid module) &&
    module.hasValidStart && module.data.all (DataSegment.isValid module)

end WasmWorkshop.Binary
