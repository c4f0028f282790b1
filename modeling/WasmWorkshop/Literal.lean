import WasmWorkshop.Decimal
import WasmWorkshop.ValueType

/-!
# Constants

The value of a constant is an integer, a float given by its bits, a truth value or free text. Its
text does not depend on the type of the constant (`Literal.spelling`), with one exception: where a
float is wanted, a NaN has the lower-case spelling that the text format knows
(`Literal.spellingAt`).
-/

set_option autoImplicit false

namespace WasmWorkshop

/-- The value of a constant. -/
inductive Literal where
  | integer (value : Int)
  | double (bits : UInt64)
  | single (bits : UInt32)
  | truth (value : Bool)
  | text (value : String)
  deriving DecidableEq

/-- The text of a value. -/
def Literal.spelling : Literal → String
  | .integer value => toString value
  | .double bits => FloatFormat.double.text bits.toNat
  | .single bits => FloatFormat.single.text bits.toNat
  | .truth value => if value then "true" else "false"
  | .text value => value

/-- The text of a NaN where the text format reads a float. -/
def floatSpelling (text : String) : String :=
  if text = "NaN" then "nan" else if text = "-NaN" then "-nan" else text

/-- The text of a value in a constant of the given type. -/
def Literal.spellingAt (literal : Literal) (type : ValueType) : String :=
  if type.isFloat then floatSpelling literal.spelling else literal.spelling

end WasmWorkshop
