import WasmWorkshop.ValueType

/-!
# Numeric operators

An operator together with the type of its operands determines the head of one instruction
(`BinaryOperator.mnemonic`, `UnaryOperator.mnemonic`). The operators come in three classes: those
that every value type has, those of the integer types, and those of the float types.

Only one rule is not a table: division and the four orderings exist for integers in a signed and
an unsigned form, and for floats in one form without a suffix. The operators on every value type
mean the signed form, so their mnemonic ends in `_s` exactly for the integer types
(`signedSuffix`).
-/

set_option autoImplicit false

namespace WasmWorkshop

/-- Operators with two operands that every value type has. -/
inductive ArithmeticOperator where
  | add
  | subtract
  | multiply
  | divide
  | lessThan
  | greaterThan
  | lessThanOrEqualTo
  | greaterThanOrEqualTo
  | equalTo
  | notEqualTo
  deriving DecidableEq

/-- Operators with two operands of an integer type. -/
inductive IntegerBinaryOperator where
  | divideUnsigned
  | modulo
  | moduloUnsigned
  | lessThanUnsigned
  | greaterThanUnsigned
  | lessThanOrEqualToUnsigned
  | greaterThanOrEqualToUnsigned
  | and
  | or
  | xor
  | leftShift
  | rightShift
  | rightUnsignedShift
  | leftRotate
  | rightRotate
  deriving DecidableEq

/-- Operators with one operand of an integer type. -/
inductive IntegerUnaryOperator where
  | not
  | countLeadingZeros
  | countTrailingZeros
  | countOnes
  deriving DecidableEq

/-- Operators with two operands of a float type. -/
inductive FloatBinaryOperator where
  | min
  | max
  | copySign
  deriving DecidableEq

/-- Operators with one operand of a float type. -/
inductive FloatUnaryOperator where
  | floor
  | ceil
  | round
  | truncate
  | absoluteValue
  | negate
  | squareRoot
  deriving DecidableEq

/-- An operator with two operands, at a type that has it. -/
inductive BinaryOperator where
  | arithmetic (operator : ArithmeticOperator) (type : ValueType)
  | integer (operator : IntegerBinaryOperator) (type : IntegerType)
  | float (operator : FloatBinaryOperator) (type : FloatType)
  deriving DecidableEq

/-- An operator with one operand, at a type that has it. -/
inductive UnaryOperator where
  | integer (operator : IntegerUnaryOperator) (type : IntegerType)
  | float (operator : FloatUnaryOperator) (type : FloatType)
  | reinterpret (source : ValueType)
  deriving DecidableEq

/-- What marks the signed form of an operator: integers have the mark, floats have no second form
to tell it from. -/
def signedSuffix (type : ValueType) : String :=
  if type.isInteger then "_s" else ""

/-- The instruction of an operator that every value type has. -/
def ArithmeticOperator.mnemonic (operator : ArithmeticOperator) (type : ValueType) : String :=
  type.instruction <|
    match operator with
    | .add => "add"
    | .subtract => "sub"
    | .multiply => "mul"
    | .divide => "div" ++ signedSuffix type
    | .lessThan => "lt" ++ signedSuffix type
    | .greaterThan => "gt" ++ signedSuffix type
    | .lessThanOrEqualTo => "le" ++ signedSuffix type
    | .greaterThanOrEqualTo => "ge" ++ signedSuffix type
    | .equalTo => "eq"
    | .notEqualTo => "ne"

/-- The instruction of an integer operator with two operands. -/
def IntegerBinaryOperator.mnemonic (operator : IntegerBinaryOperator) (type : IntegerType) :
    String :=
  type.instruction <|
    match operator with
    | .divideUnsigned => "div_u"
    | .modulo => "rem_s"
    | .moduloUnsigned => "rem_u"
    | .lessThanUnsigned => "lt_u"
    | .greaterThanUnsigned => "gt_u"
    | .lessThanOrEqualToUnsigned => "le_u"
    | .greaterThanOrEqualToUnsigned => "ge_u"
    | .and => "and"
    | .or => "or"
    | .xor => "xor"
    | .leftShift => "shl"
    | .rightShift => "shr_s"
    | .rightUnsignedShift => "shr_u"
    | .leftRotate => "rotl"
    | .rightRotate => "rotr"

/-- The instruction of an integer operator with one operand. Logical negation is the test for
zero. -/
def IntegerUnaryOperator.mnemonic (operator : IntegerUnaryOperator) (type : IntegerType) : String :=
  type.instruction <|
    match operator with
    | .not => "eqz"
    | .countLeadingZeros => "clz"
    | .countTrailingZeros => "ctz"
    | .countOnes => "popcnt"

/-- The instruction of a float operator with two operands. -/
def FloatBinaryOperator.mnemonic (operator : FloatBinaryOperator) (type : FloatType) : String :=
  type.instruction <|
    match operator with
    | .min => "min"
    | .max => "max"
    | .copySign => "copysign"

/-- The instruction of a float operator with one operand. Rounding goes to the nearest integer,
and a tie to the even one. -/
def FloatUnaryOperator.mnemonic (operator : FloatUnaryOperator) (type : FloatType) : String :=
  type.instruction <|
    match operator with
    | .floor => "floor"
    | .ceil => "ceil"
    | .round => "nearest"
    | .truncate => "trunc"
    | .absoluteValue => "abs"
    | .negate => "neg"
    | .squareRoot => "sqrt"

/-- The instruction of an operator with two operands. -/
def BinaryOperator.mnemonic : BinaryOperator → String
  | .arithmetic operator type => operator.mnemonic type
  | .integer operator type => operator.mnemonic type
  | .float operator type => operator.mnemonic type

/-- The instruction of an operator with one operand. -/
def UnaryOperator.mnemonic : UnaryOperator → String
  | .integer operator type => operator.mnemonic type
  | .float operator type => operator.mnemonic type
  | .reinterpret source => source.reinterpretation

end WasmWorkshop
