/-!
# The shortest decimal of a binary float

A finite binary float is `coefficient * 2 ^ exponent`. The real numbers that round to it form an
interval around it, half a unit of the last place wide on each side; below a power of two the
lower half is half as wide. The ends belong to the interval when the coefficient is even, because
a tie goes to the even neighbour.

The text written for the float is the decimal with the fewest digits inside that interval. The
search goes through the decimal grids `10 ^ place` from coarse to fine and stops at the first grid
that has a point in the interval (`shortest`). Only the two grid points next to the float need a
look: if any point of the grid is inside, one of these is. When both are inside, the nearer one is
taken, and the upper one on a tie.

The decimal is written out by places, never with an exponent, and a whole number has no point
(`Decimal.positional`).
-/

set_option autoImplicit false

namespace WasmWorkshop

/-- A non-negative decimal number, `digits * 10 ^ place`. -/
structure Decimal where
  digits : Nat
  place : Int
  deriving DecidableEq

/-- The decimal written out by places. -/
def Decimal.positional (decimal : Decimal) : String :=
  let text := toString decimal.digits
  match decimal.place with
  | .ofNat zeros => text ++ "".pushn '0' zeros
  | .negSucc n =>
    let places := n + 1
    let padded := "".pushn '0' (places + 1 - text.length) ++ text
    let characters := padded.toList
    let whole := characters.length - places
    String.ofList (characters.take whole) ++ "." ++ String.ofList (characters.drop whole)

/-- A binary interchange format: the width of the stored fraction and of the exponent. -/
structure FloatFormat where
  fractionBits : Nat
  exponentBits : Nat

/-- The format of `f32`. -/
def FloatFormat.single : FloatFormat := ⟨23, 8⟩

/-- The format of `f64`. -/
def FloatFormat.double : FloatFormat := ⟨52, 11⟩

/-- The magnitude that a bit pattern stands for. -/
inductive Magnitude where
  | nan
  | infinite
  | zero
  /-- The number `coefficient * 2 ^ exponent`, with a positive coefficient. -/
  | finite (coefficient : Nat) (exponent : Int)

namespace FloatFormat

/-- The sign of a bit pattern: whether its highest bit is set. -/
def isNegative (format : FloatFormat) (bits : Nat) : Bool :=
  bits.testBit (format.fractionBits + format.exponentBits)

/-- The magnitude of a bit pattern. -/
def magnitude (format : FloatFormat) (bits : Nat) : Magnitude :=
  let fraction := bits % Nat.pow 2 format.fractionBits
  let exponent := bits / Nat.pow 2 format.fractionBits % Nat.pow 2 format.exponentBits
  let bias : Int := (Nat.pow 2 (format.exponentBits - 1) - 1 : Nat)
  if exponent = Nat.pow 2 format.exponentBits - 1 then
    if fraction = 0 then .infinite else .nan
  else if exponent = 0 then
    if fraction = 0 then .zero else .finite fraction (1 - bias - format.fractionBits)
  else
    .finite (Nat.pow 2 format.fractionBits + fraction) (exponent - bias - format.fractionBits)

end FloatFormat

/-- The reals that round to a float, in units of `2 ^ exponent`: from `centre - below` to
`centre + above`, the ends included or not. -/
structure RoundingInterval where
  centre : Nat
  below : Nat
  above : Nat
  exponent : Int
  closed : Bool

/-- The rounding interval of `coefficient * 2 ^ exponent`. The smallest coefficient of full width
has its lower neighbour half as far away as the upper one. -/
def FloatFormat.interval (format : FloatFormat) (coefficient : Nat) (exponent : Int) :
    RoundingInterval :=
  if coefficient = Nat.pow 2 format.fractionBits then
    ⟨4 * coefficient, 1, 2, exponent - 2, true⟩
  else
    ⟨2 * coefficient, 1, 1, exponent - 1, coefficient % 2 = 0⟩

namespace RoundingInterval

/-- The factor that turns a count of units into a numerator over `denominator place`, so that the
quotient counts steps of `10 ^ place`. -/
def scale (interval : RoundingInterval) (place : Int) : Nat :=
  Nat.pow 2 interval.exponent.toNat * Nat.pow 10 (-place).toNat

/-- The denominator that belongs to `scale`. -/
def denominator (interval : RoundingInterval) (place : Int) : Nat :=
  Nat.pow 2 (-interval.exponent).toNat * Nat.pow 10 place.toNat

/-- Whether `steps * 10 ^ place` lies in the interval. -/
def contains (interval : RoundingInterval) (place : Int) (steps : Nat) : Bool :=
  let point := steps * interval.denominator place
  let low := (interval.centre - interval.below) * interval.scale place
  let high := (interval.centre + interval.above) * interval.scale place
  if interval.closed then low ≤ point && point ≤ high else low < point && point < high

/-- The point of the grid `10 ^ place` that stands for the interval, if the grid has one. -/
def gridPoint? (interval : RoundingInterval) (place : Int) : Option Nat :=
  let value := interval.centre * interval.scale place
  let step := interval.denominator place
  let lower := value / step
  let upper := lower + 1
  match interval.contains place lower, interval.contains place upper with
  | true, true => some (if 2 * (value % step) < step then lower else upper)
  | true, false => some lower
  | false, true => some upper
  | false, false => none

/-- The first grid with a point in the interval, among `count` grids from `place` downwards. -/
def firstPoint (interval : RoundingInterval) : Nat → Int → Decimal
  | 0, place =>
    ⟨interval.centre * interval.scale place / interval.denominator place, place⟩
  | count + 1, place =>
    match interval.gridPoint? place with
    | some digits => ⟨digits, place⟩
    | none => interval.firstPoint count (place - 1)

/-- A place above every digit of the interval's upper end: the end is below
`2 ^ (log2 + 1 + exponent)`, and 0.30103 is just above the decimal logarithm of two. -/
def topPlace (interval : RoundingInterval) : Int :=
  let bits := ((interval.centre + interval.above).log2 + 1 : Nat) + interval.exponent
  bits * 30103 / 100000 + 1

/-- The shortest decimal in the interval. No format here needs more than seventeen digits. -/
def shortest (interval : RoundingInterval) : Decimal :=
  interval.firstPoint 24 interval.topPlace

end RoundingInterval

/-- The text of the float with the given bit pattern: the shortest decimal that reads back, with
its sign, also that of zero. The sign of a NaN is not shown. -/
def FloatFormat.text (format : FloatFormat) (bits : Nat) : String :=
  let sign := if format.isNegative bits then "-" else ""
  match format.magnitude bits with
  | .nan => "NaN"
  | .infinite => sign ++ "inf"
  | .zero => sign ++ "0"
  | .finite coefficient exponent =>
    sign ++ (format.interval coefficient exponent).shortest.positional

end WasmWorkshop
