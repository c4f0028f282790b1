import Std.Data.HashMap

/-!
# Linear memory

A memory is a number of pages of 65536 bytes, all zero at first. Only the bytes that were written
are kept. An access that does not lie within the pages fails as a whole and changes nothing; an
access to no byte at the very end lies within.
-/

set_option autoImplicit false

namespace WasmWorkshop.Machine

/-- A linear memory. -/
structure Memory where
  pages : Nat
  maximum : Option Nat
  written : Std.HashMap Nat UInt8 := {}

namespace Memory

/-- The number of bytes in a page. -/
def pageSize : Nat := 65536

/-- The greatest number of pages that addresses of 32 bits reach. -/
def addressablePages : Nat := 65536

/-- The size in bytes. -/
def size (memory : Memory) : Nat := memory.pages * pageSize

/-- Whether `length` bytes from `address` on lie within the memory. -/
def covers (memory : Memory) (address length : Nat) : Bool := address + length ≤ memory.size

/-- The byte at an address. -/
def byteAt (memory : Memory) (address : Nat) : UInt8 := memory.written.getD address 0

/-- The bytes from an address on. -/
def read? (memory : Memory) (address length : Nat) : Option (List UInt8) :=
  if memory.covers address length then
    some ((List.range length).map fun place => memory.byteAt (address + place))
  else none

/-- The memory with one byte after another written from an address on. -/
def writeAll (memory : Memory) : Nat → List UInt8 → Memory
  | _, [] => memory
  | address, byte :: rest =>
    { memory with written := memory.written.insert address byte }.writeAll (address + 1) rest

/-- The memory with bytes written from an address on. -/
def write? (memory : Memory) (address : Nat) (bytes : List UInt8) : Option Memory :=
  if memory.covers address bytes.length then some (memory.writeAll address bytes) else none

/-- The memory with more pages, if its maximum allows them. -/
def grow? (memory : Memory) (pages : Nat) : Option Memory :=
  if memory.pages + pages ≤ memory.maximum.getD addressablePages then
    some { memory with pages := memory.pages + pages }
  else none

/-- A word at an address, its lowest byte first. -/
def readWord? (memory : Memory) (address : Nat) : Option UInt32 :=
  (memory.read? address 4).map fun bytes =>
    UInt32.ofNat (bytes.foldr (fun byte higher => byte.toNat + 256 * higher) 0)

/-- The memory with a word written at an address, its lowest byte first. -/
def writeWord? (memory : Memory) (address : Nat) (word : UInt32) : Option Memory :=
  memory.write? address
    [word.toUInt8, (word >>> 8).toUInt8, (word >>> 16).toUInt8, (word >>> 24).toUInt8]

end Memory

end WasmWorkshop.Machine
