import WasmWorkshop.Bytes

/-!
# The layout of data literals in linear memory

Literals lie back to back from address 0 in the order in which they were placed, without padding
and without sharing. Addresses have 32 bits, so the region holds at most `2 ^ 32 - 1` bytes. A
literal that does not fit is refused: it is given the current end as its offset, nothing moves, and
the layout remembers that it once overflowed. A later literal that fits is still placed.

The bytes of a literal are written as `\hh` for each byte (`escapeBytes`), so the written form
shows neither quotes nor parentheses nor line breaks, whatever the bytes are.
-/

set_option autoImplicit false

namespace WasmWorkshop

/-- A stretch of the data region. -/
structure Region where
  offset : Nat
  length : Nat
  deriving DecidableEq

/-- The data region of a module. -/
structure DataLayout where
  /-- The next free address, which is the size of the region. -/
  cursor : Nat := 0
  /-- The accepted literals in order. -/
  regions : List Region := []
  /-- Whether some literal was refused. -/
  overflowed : Bool := false
  deriving DecidableEq

namespace DataLayout

/-- The greatest size of the region, `2 ^ 32 - 1`. -/
def limit : Nat := 0xFFFFFFFF

/-- The empty region. -/
def empty : DataLayout := {}

/-- Where `length` more bytes end. There is no such place if 32 bits cannot hold the length, and
none if they cannot hold the place. -/
def finish? (layout : DataLayout) (length : Nat) : Option Nat :=
  if limit < length then none
  else if limit < layout.cursor + length then none
  else some (layout.cursor + length)

/-- The layout after `length` more bytes, or after refusing them. -/
def reserve (layout : DataLayout) (length : Nat) : DataLayout :=
  match layout.finish? length with
  | some finish =>
    { layout with
      cursor := finish
      regions := layout.regions ++ [⟨layout.cursor, length⟩] }
  | none => { layout with overflowed := true }

/-- The layout after a literal. Its offset is the cursor before. -/
def place (layout : DataLayout) (bytes : List UInt8) : DataLayout :=
  layout.reserve bytes.length

/-- The offset that a literal of the given bytes gets, and the layout after it. -/
def register (layout : DataLayout) (bytes : List UInt8) : Nat × DataLayout :=
  (layout.cursor, layout.place bytes)

end DataLayout

/-- The bytes of a string literal: the text in UTF-8 and a zero byte. -/
def terminated (text : String) : List UInt8 := utf8Bytes text ++ [0]

/-- The offset and the bytes of a string literal, and the layout after it. -/
def DataLayout.registerText (layout : DataLayout) (text : String) :
    (Nat × List UInt8) × DataLayout :=
  let bytes := terminated text
  let (offset, layout) := layout.register bytes
  ((offset, bytes), layout)

/-- One byte of a data literal as it is written. -/
def escapeByte (byte : UInt8) : List Char := '\\' :: hexDigits byte

/-- The bytes of a data literal as they are written. -/
def escapeBytes (bytes : List UInt8) : String := String.ofList (bytes.flatMap escapeByte)

end WasmWorkshop
