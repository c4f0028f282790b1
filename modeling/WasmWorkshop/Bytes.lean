/-!
# Bytes, their hexadecimal digits and UTF-8

A byte is written as two lower-case hexadecimal digits (`hexDigits`). The bytes of a text are its
UTF-8 encoding (`utf8Bytes`). Reading back is total: `decodeLossy` turns each maximal part that no
character starts with into one replacement character U+FFFD, and hence is the inverse of
`utf8Bytes` on what `utf8Bytes` produces.
-/

set_option autoImplicit false

namespace WasmWorkshop

/-- Lower-case hexadecimal digit of a number below sixteen. -/
def hexDigit (value : Nat) : Char :=
  if value < 10 then Char.ofNat (0x30 + value) else Char.ofNat (0x57 + value)

/-- The two lower-case hexadecimal digits of a byte. -/
def hexDigits (byte : UInt8) : List Char :=
  [hexDigit (byte.toNat / 16), hexDigit (byte.toNat % 16)]

/-- The bytes in hexadecimal, without separators. -/
def hexText (bytes : List UInt8) : String := String.ofList (bytes.flatMap hexDigits)

/-- The UTF-8 bytes of a text. -/
def utf8Bytes (text : String) : List UInt8 := text.toUTF8.data.toList

/-! ## Reading UTF-8 -/

/-- Whether a byte continues a character, `10xxxxxx`. -/
def isContinuation (byte : UInt8) : Bool := 0x80 ≤ byte && byte ≤ 0xBF

/-- Whether `second` may follow the leading byte `first` of a character of more than one byte: no
overlong forms, no surrogates, nothing above U+10FFFF. -/
def isSecondByte (first second : UInt8) : Bool :=
  if first = 0xE0 then 0xA0 ≤ second && second ≤ 0xBF
  else if first = 0xED then 0x80 ≤ second && second ≤ 0x9F
  else if first = 0xF0 then 0x90 ≤ second && second ≤ 0xBF
  else if first = 0xF4 then 0x80 ≤ second && second ≤ 0x8F
  else isContinuation second

/-- The number of bytes of a character with the leading byte `first`, or none if no character
starts with it. -/
def sequenceLength? (first : UInt8) : Option Nat :=
  if first < 0x80 then some 1
  else if 0xC2 ≤ first && first ≤ 0xDF then some 2
  else if 0xE0 ≤ first && first ≤ 0xEF then some 3
  else if 0xF0 ≤ first && first ≤ 0xF4 then some 4
  else none

/-- The payload of a continuation byte. -/
def continuationBits (byte : UInt8) : Nat := byte.toNat % 64

/-- Reads one character at the head of `first :: rest`. Returns the character, or none for a
maximal part that no character starts with, and the number of bytes of `rest` that belong to it. -/
def decodeHead (first : UInt8) (rest : List UInt8) : Option Char × Nat :=
  match sequenceLength? first, rest with
  | some 1, _ => (some (Char.ofNat first.toNat), 0)
  | some 2, second :: _ =>
    if isSecondByte first second then
      (some (Char.ofNat (first.toNat % 32 * 64 + continuationBits second)), 1)
    else (none, 0)
  | some 3, second :: third :: _ =>
    if !isSecondByte first second then (none, 0)
    else if !isContinuation third then (none, 1)
    else
      (some (Char.ofNat
        (first.toNat % 16 * 4096 + continuationBits second * 64 + continuationBits third)), 2)
  | some 4, second :: third :: fourth :: _ =>
    if !isSecondByte first second then (none, 0)
    else if !isContinuation third then (none, 1)
    else if !isContinuation fourth then (none, 2)
    else
      (some (Char.ofNat (first.toNat % 8 * 262144 + continuationBits second * 4096 +
        continuationBits third * 64 + continuationBits fourth)), 3)
  | some 3, [second] => (none, if isSecondByte first second then 1 else 0)
  | some 4, [second] => (none, if isSecondByte first second then 1 else 0)
  | some 4, [second, third] =>
    (none, if !isSecondByte first second then 0 else if isContinuation third then 2 else 1)
  | _, _ => (none, 0)

/-- The characters of a byte sequence, with U+FFFD for each maximal invalid part. -/
def decodeLossyChars : List UInt8 → List Char
  | [] => []
  | first :: rest =>
    let head := decodeHead first rest
    head.1.getD (Char.ofNat 0xFFFD) :: decodeLossyChars (rest.drop head.2)
  termination_by bytes => bytes.length
  decreasing_by
    simp only [List.length_drop, List.length_cons]
    omega

/-- The text of a byte sequence, with U+FFFD for each maximal invalid part. -/
def decodeLossy (bytes : List UInt8) : String := String.ofList (decodeLossyChars bytes)

/-- The characters of a byte sequence, if it is UTF-8. -/
def decodeUtf8Chars? : List UInt8 → Option (List Char)
  | [] => some []
  | first :: rest =>
    let head := decodeHead first rest
    match head.1 with
    | none => none
    | some character => (decodeUtf8Chars? (rest.drop head.2)).map (character :: ·)
  termination_by bytes => bytes.length
  decreasing_by
    simp only [List.length_drop, List.length_cons]
    omega

/-- The text of a byte sequence, if it is UTF-8. -/
def decodeUtf8? (bytes : List UInt8) : Option String :=
  (decodeUtf8Chars? bytes).map String.ofList

end WasmWorkshop
