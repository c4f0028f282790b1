/-!
# Value types and their mnemonics

Operands are described by four logical types. Each stands for one physical value type of the
WebAssembly text format: `int` is `i32`, `long` is `i64`, `float` is `f32`, `double` is `f64`.
Operators that exist for one class of types only take the narrow types `IntegerType` and
`FloatType`, so an integer operator on a float cannot be written down.

A conversion between two types is one instruction for each ordered pair of distinct types
(`conversion?`), and none for a type and itself. A reinterpretation keeps the bits and crosses
from one class to the other of the same width (`reinterpretation`).
-/

set_option autoImplicit false

namespace WasmWorkshop

/-! ## The logical types -/

/-- One of the four logical numeric types. -/
inductive ValueType where
  | int
  | long
  | float
  | double
  deriving DecidableEq

/-- The logical types that hold integers. -/
inductive IntegerType where
  | int
  | long
  deriving DecidableEq

/-- The logical types that hold floating-point numbers. -/
inductive FloatType where
  | float
  | double
  deriving DecidableEq

/-- The element type of a table. -/
inductive RefType where
  | funcref
  | externref
  deriving DecidableEq

namespace IntegerType

/-- The physical type an integer type stands for. -/
def mnemonic : IntegerType → String
  | .int => "i32"
  | .long => "i64"

/-- An integer type is a value type. -/
def toValueType : IntegerType → ValueType
  | .int => .int
  | .long => .long

/-- The instruction that applies `operator` to operands of type `type`. -/
def instruction (type : IntegerType) (operator : String) : String :=
  type.mnemonic ++ "." ++ operator

end IntegerType

namespace FloatType

/-- The physical type a float type stands for. -/
def mnemonic : FloatType → String
  | .float => "f32"
  | .double => "f64"

/-- A float type is a value type. -/
def toValueType : FloatType → ValueType
  | .float => .float
  | .double => .double

/-- The instruction that applies `operator` to operands of type `type`. -/
def instruction (type : FloatType) (operator : String) : String :=
  type.mnemonic ++ "." ++ operator

end FloatType

/-- The text-format name of a table's element type. -/
def RefType.mnemonic : RefType → String
  | .funcref => "funcref"
  | .externref => "externref"

namespace ValueType

/-- The physical type a value type stands for. -/
def mnemonic : ValueType → String
  | .int => "i32"
  | .long => "i64"
  | .float => "f32"
  | .double => "f64"

/-- The width of the physical type in bytes. -/
def byteWidth : ValueType → Nat
  | .int | .float => 4
  | .long | .double => 8

/-- The integer type that `type` is, if it is one. -/
def toInteger? : ValueType → Option IntegerType
  | .int => some .int
  | .long => some .long
  | .float | .double => none

/-- The float type that `type` is, if it is one. -/
def toFloat? : ValueType → Option FloatType
  | .float => some .float
  | .double => some .double
  | .int | .long => none

/-- Whether the type holds integers. -/
def isInteger (type : ValueType) : Bool := type.toInteger?.isSome

/-- Whether the type holds floating-point numbers. -/
def isFloat (type : ValueType) : Bool := type.toFloat?.isSome

/-- The instruction that applies `operator` to operands of type `type`. -/
def instruction (type : ValueType) (operator : String) : String :=
  type.mnemonic ++ "." ++ operator

/-! ## Conversion and reinterpretation -/

/-- The instruction that turns a value of type `source` into one of type `target`. Integers are
read as signed, and a float becomes an integer by dropping its fraction. A type needs no
instruction to become itself. -/
def conversion? (source target : ValueType) : Option String :=
  match source, target with
  | .int, .long => some "i64.extend_i32_s"
  | .int, .float => some "f32.convert_i32_s"
  | .int, .double => some "f64.convert_i32_s"
  | .long, .int => some "i32.wrap_i64"
  | .long, .float => some "f32.convert_i64_s"
  | .long, .double => some "f64.convert_i64_s"
  | .float, .int => some "i32.trunc_f32_s"
  | .float, .long => some "i64.trunc_f32_s"
  | .float, .double => some "f64.promote_f32"
  | .double, .int => some "i32.trunc_f64_s"
  | .double, .long => some "i64.trunc_f64_s"
  | .double, .float => some "f32.demote_f64"
  | .int, .int | .long, .long | .float, .float | .double, .double => none

/-- The type of the same width in the other class. -/
def reinterpretationTarget : ValueType → ValueType
  | .int => .float
  | .float => .int
  | .long => .double
  | .double => .long

/-- The instruction that reads the bits of a value of type `source` as the type of the same width
in the other class. -/
def reinterpretation (source : ValueType) : String :=
  source.reinterpretationTarget.instruction ("reinterpret_" ++ source.mnemonic)

end ValueType

end WasmWorkshop
