import WasmWorkshop.Bytes

/-!
# Reading binary data

A reader takes bytes from the front of its input and gives a value and the rest, or refuses. The
readers here are those that every part of the binary format is made of: a byte, a number in
LEB128 of a given width, a counted sequence, a stretch of given length that must be used up, and a
name.

A number of `width` bits takes at most `⌈width / 7⌉` bytes. The last of these may have spare bits,
which must be zero, or for a signed number copies of its sign. Fewer significant bytes than
possible are no fault, and neither are leading zeros within the allowed length.
-/

set_option autoImplicit false

namespace WasmWorkshop.Binary

/-- Takes bytes from the front of the input. -/
abbrev Reader := StateT (List UInt8) Option

namespace Reader

/-- Refuses. -/
def refuse {α : Type} : Reader α := fun _ => none

/-- Refuses unless a condition holds. -/
def require (condition : Bool) : Reader Unit := fun bytes =>
  if condition then some ((), bytes) else none

/-- One byte. -/
def byte : Reader UInt8
  | [] => none
  | first :: rest => some (first, rest)

/-- Whether the input is used up. -/
def atEnd : Reader Bool := fun bytes => some (bytes.isEmpty, bytes)

/-- The next `length` bytes. -/
def take (length : Nat) : Reader (List UInt8) := fun bytes =>
  if length ≤ bytes.length then some (bytes.splitAt length) else none

/-- Reads the whole of `bytes` with a reader. -/
def whole {α : Type} (reader : Reader α) (bytes : List UInt8) : Option α :=
  match reader.run bytes with
  | some (value, []) => some value
  | _ => none

/-- The next `length` bytes, all of which the reader must use. -/
def within {α : Type} (length : Nat) (reader : Reader α) : Reader α := do
  let bytes ← take length
  match whole reader bytes with
  | some value => return value
  | none => refuse

/-! ## Numbers -/

/-- An unsigned number of `width` bits in at most `count` more bytes, of which the next one counts
`2 ^ shift`. -/
def unsignedFrom (width : Nat) : Nat → Nat → Reader Nat
  | 0, _ => refuse
  | count + 1, shift => do
    let next ← byte
    let bits := next.toNat % 128
    if next < 128 then
      require (bits < Nat.pow 2 (width - shift))
      return bits * Nat.pow 2 shift
    else
      let higher ← unsignedFrom width count (shift + 7)
      return bits * Nat.pow 2 shift + higher

/-- A signed number of `width` bits in at most `count` more bytes, of which the next one counts
`2 ^ shift`. -/
def signedFrom (width : Nat) : Nat → Nat → Reader Int
  | 0, _ => refuse
  | count + 1, shift => do
    let next ← byte
    let bits := next.toNat % 128
    if next < 128 then
      let value : Int := if bits < 64 then bits else bits - 128
      let bound : Int := Nat.pow 2 (width - shift - 1)
      require (-bound ≤ value && value < bound)
      return value * Nat.pow 2 shift
    else
      let higher ← signedFrom width count (shift + 7)
      return bits * Nat.pow 2 shift + higher

/-- The greatest number of bytes of a number of `width` bits. -/
def numberBytes (width : Nat) : Nat := (width + 6) / 7

/-- An unsigned number of 32 bits, as for counts, lengths and indices. -/
def index : Reader Nat := unsignedFrom 32 (numberBytes 32) 0

/-- The bits of a signed number of 32 bits. -/
def word : Reader UInt32 := do
  let value ← signedFrom 32 (numberBytes 32) 0
  return UInt32.ofNat (value % 0x100000000).toNat

/-- The bits of a signed number of 64 bits. -/
def long : Reader UInt64 := do
  let value ← signedFrom 64 (numberBytes 64) 0
  return UInt64.ofNat (value % 0x10000000000000000).toNat

/-! ## Sequences and names -/

/-- `count` values, one after another. -/
def repeated {α : Type} (reader : Reader α) : Nat → Reader (List α)
  | 0 => return []
  | count + 1 => do
    let first ← reader
    let rest ← repeated reader count
    return first :: rest

/-- A count, and then that many values. -/
def vector {α : Type} (reader : Reader α) : Reader (List α) := do
  let count ← index
  repeated reader count

/-- A name, which must be UTF-8. -/
def name : Reader String := do
  let length ← index
  let bytes ← take length
  match decodeUtf8? bytes with
  | some text => return text
  | none => refuse

end Reader

end WasmWorkshop.Binary
