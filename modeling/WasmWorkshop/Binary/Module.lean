import WasmWorkshop.ValueType

/-!
# Binary modules

What a module in the binary format says, without the bytes: function types, imported functions,
functions with their bodies, a memory, globals, exports, a start function and data segments. The
instructions are those that the tool chain's output uses here; blocks are nested, so a body that
is not well bracketed cannot be written down.

A function index counts the imported functions first and then the module's own
(`Module.functionTypeIndices`).
-/

set_option autoImplicit false

namespace WasmWorkshop.Binary

/-- The type of a function. -/
structure FunctionType where
  params : List ValueType
  results : List ValueType
  deriving DecidableEq

/-- Operators on two `i32` operands with an `i32` result. -/
inductive WordOperator where
  | lessThan
  | add
  | subtract
  | multiply
  | divide
  | remainder
  deriving DecidableEq

/-- Operators on two `i64` operands with an `i64` result. -/
inductive LongOperator where
  | add
  | multiply
  deriving DecidableEq

/-- Instructions. The result of a block is the type of the one value it leaves, if it leaves
one. -/
inductive Instruction where
  | unreachable
  | nop
  | block (result : Option ValueType) (body : List Instruction)
  | loop (result : Option ValueType) (body : List Instruction)
  /-- A missing second branch is an empty one. -/
  | branch (result : Option ValueType) (consequent alternative : List Instruction)
  | break (depth : Nat)
  | breakIf (depth : Nat)
  | return
  | call (function : Nat)
  | drop
  | localGet (index : Nat)
  | localSet (index : Nat)
  | localTee (index : Nat)
  | globalGet (index : Nat)
  | globalSet (index : Nat)
  | wordLoad (alignment offset : Nat)
  | wordStore (alignment offset : Nat)
  | memorySize
  | memoryGrow
  | wordConstant (value : UInt32)
  | longConstant (value : UInt64)
  | wordIsZero
  | word (operator : WordOperator)
  | long (operator : LongOperator)

/-- An imported function. -/
structure Import where
  library : String
  field : String
  typeIndex : Nat
  deriving DecidableEq

/-- A function of the module. -/
structure Function where
  typeIndex : Nat
  locals : List ValueType
  body : List Instruction

/-- The greatest number of locals of a function, its parameters included. -/
def localLimit : Nat := 50000

/-- The size of a memory in pages: at the start, and at most. -/
structure MemoryLimits where
  minimum : Nat
  maximum : Option Nat
  deriving DecidableEq

/-- A constant, as it initialises a global or gives the address of a data segment. -/
inductive ConstantExpression where
  | word (value : UInt32)
  | long (value : UInt64)
  deriving DecidableEq

/-- The type of a constant. -/
def ConstantExpression.type : ConstantExpression → ValueType
  | .word _ => .int
  | .long _ => .long

/-- A global of the module. -/
structure Global where
  type : ValueType
  isMutable : Bool
  initial : ConstantExpression
  deriving DecidableEq

/-- What an export stands for. -/
inductive ExportTarget where
  | function (index : Nat)
  | memory (index : Nat)
  | global (index : Nat)
  deriving DecidableEq

/-- A named export. -/
structure Export where
  name : String
  target : ExportTarget
  deriving DecidableEq

/-- Bytes that are copied into the memory when the module is instantiated. -/
structure DataSegment where
  offset : ConstantExpression
  bytes : List UInt8
  deriving DecidableEq

/-- A binary module. -/
structure Module where
  types : List FunctionType := []
  imports : List Import := []
  functions : List Function := []
  memories : List MemoryLimits := []
  globals : List Global := []
  exports : List Export := []
  start : Option Nat := none
  data : List DataSegment := []

/-- The type indices of all functions, the imported ones first. -/
def Module.functionTypeIndices (module : Module) : List Nat :=
  module.imports.map (·.typeIndex) ++ module.functions.map (·.typeIndex)

/-- The type of a function, by its index. -/
def Module.functionType? (module : Module) (index : Nat) : Option FunctionType :=
  (module.functionTypeIndices[index]?).bind fun type => module.types[type]?

end WasmWorkshop.Binary
