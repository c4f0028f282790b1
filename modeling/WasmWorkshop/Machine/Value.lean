import WasmWorkshop.ValueType

/-!
# Values

A value is one of the four numeric types, given by its bits. Integers have no sign of their own:
an operation that reads them as signed says so, and `Value.toInt` does for showing them.
-/

set_option autoImplicit false

namespace WasmWorkshop.Machine

/-- A value by its bits. -/
inductive Value where
  | word (bits : UInt32)
  | long (bits : UInt64)
  | single (bits : UInt32)
  | double (bits : UInt64)
  deriving DecidableEq

namespace Value

/-- The type of a value. -/
def type : Value → ValueType
  | .word _ => .int
  | .long _ => .long
  | .single _ => .float
  | .double _ => .double

/-- The value of a type whose bits are all zero, with which locals start. -/
def zero : ValueType → Value
  | .int => .word 0
  | .long => .long 0
  | .float => .single 0
  | .double => .double 0

/-- The bits of a value, read as a signed number. -/
def toInt : Value → Int
  | .word bits => bits.toInt32.toInt
  | .long bits => bits.toInt64.toInt
  | .single bits => bits.toInt32.toInt
  | .double bits => bits.toInt64.toInt

/-- The word whose signed reading is `number`, modulo the width. -/
def ofInt32 (number : Int) : Value := .word (UInt32.ofNat (number % 0x100000000).toNat)

/-- The long word whose signed reading is `number`, modulo the width. -/
def ofInt64 (number : Int) : Value := .long (UInt64.ofNat (number % 0x10000000000000000).toNat)

end Value

end WasmWorkshop.Machine
