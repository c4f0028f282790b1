import WasmWorkshop.Bytes

/-!
# The SHA-256 digest

The digest of a byte sequence: the sequence is padded to whole blocks of 64 bytes with a one bit,
zeros and its length in bits, and every block is mixed into a state of eight words. The words of the
schedule and the state are added modulo `2 ^ 32`.

The initial state and the round constants are the first 32 bits of the fractional parts of the
square roots and cube roots of the first primes.
-/

set_option autoImplicit false

namespace WasmWorkshop.Digest

/-- The state before the first block. -/
def initialState : List UInt32 :=
  [0x6a09e667, 0xbb67ae85, 0x3c6ef372, 0xa54ff53a, 0x510e527f, 0x9b05688c, 0x1f83d9ab, 0x5be0cd19]

/-- The constant of each round. -/
def roundConstants : List UInt32 :=
  [0x428a2f98, 0x71374491, 0xb5c0fbcf, 0xe9b5dba5, 0x3956c25b, 0x59f111f1, 0x923f82a4, 0xab1c5ed5,
   0xd807aa98, 0x12835b01, 0x243185be, 0x550c7dc3, 0x72be5d74, 0x80deb1fe, 0x9bdc06a7, 0xc19bf174,
   0xe49b69c1, 0xefbe4786, 0x0fc19dc6, 0x240ca1cc, 0x2de92c6f, 0x4a7484aa, 0x5cb0a9dc, 0x76f988da,
   0x983e5152, 0xa831c66d, 0xb00327c8, 0xbf597fc7, 0xc6e00bf3, 0xd5a79147, 0x06ca6351, 0x14292967,
   0x27b70a85, 0x2e1b2138, 0x4d2c6dfc, 0x53380d13, 0x650a7354, 0x766a0abb, 0x81c2c92e, 0x92722c85,
   0xa2bfe8a1, 0xa81a664b, 0xc24b8b70, 0xc76c51a3, 0xd192e819, 0xd6990624, 0xf40e3585, 0x106aa070,
   0x19a4c116, 0x1e376c08, 0x2748774c, 0x34b0bcb5, 0x391c0cb3, 0x4ed8aa4a, 0x5b9cca4f, 0x682e6ff3,
   0x748f82ee, 0x78a5636f, 0x84c87814, 0x8cc70208, 0x90befffa, 0xa4506ceb, 0xbef9a3f7, 0xc67178f2]

/-- A word turned to the right. -/
def rotate (word : UInt32) (places : UInt32) : UInt32 :=
  (word >>> places) ||| (word <<< (32 - places))

/-- The bytes of a number, the highest first. -/
def bigEndian : Nat → Nat → List UInt8
  | 0, _ => []
  | count + 1, number => bigEndian count (number / 256) ++ [UInt8.ofNat number]

/-- The sequence with the padding that makes it whole blocks. -/
def padded (bytes : List UInt8) : List UInt8 :=
  let zeros := (119 - bytes.length % 64) % 64
  bytes ++ 0x80 :: (List.replicate zeros 0 ++ bigEndian 8 (8 * bytes.length))

/-- The words of a sequence of whole words, the highest byte first. -/
def words : List UInt8 → List UInt32
  | a :: b :: c :: d :: rest =>
    ((a.toUInt32 <<< 24) ||| (b.toUInt32 <<< 16) ||| (c.toUInt32 <<< 8) ||| d.toUInt32) ::
      words rest
  | _ => []

/-- The schedule with `count` more words. It is kept with the last word first. -/
def extend : Nat → List UInt32 → List UInt32
  | 0, schedule => schedule
  | count + 1, schedule =>
    let before (places : Nat) := schedule.getD (places - 1) 0
    let low := rotate (before 15) 7 ^^^ rotate (before 15) 18 ^^^ (before 15 >>> 3)
    let high := rotate (before 2) 17 ^^^ rotate (before 2) 19 ^^^ (before 2 >>> 10)
    extend count ((before 16 + low + before 7 + high) :: schedule)

/-- One round, with the sum of its constant and its word of the schedule. -/
def round (state : List UInt32) (input : UInt32) : List UInt32 :=
  match state with
  | [a, b, c, d, e, f, g, h] =>
    let high := rotate e 6 ^^^ rotate e 11 ^^^ rotate e 25
    let choice := (e &&& f) ^^^ (~~~e &&& g)
    let first := h + high + choice + input
    let low := rotate a 2 ^^^ rotate a 13 ^^^ rotate a 22
    let majority := (a &&& b) ^^^ (a &&& c) ^^^ (b &&& c)
    [first + low + majority, a, b, c, d + first, e, f, g]
  | other => other

/-- The state after one block of sixteen words. -/
def mix (state block : List UInt32) : List UInt32 :=
  let schedule := (extend 48 block.reverse).reverse
  let inputs := List.zipWith (· + ·) roundConstants schedule
  List.zipWith (· + ·) state (inputs.foldl round state)

/-- The state after a sequence of blocks, of which there are at most `count`. -/
def mixAll : Nat → List UInt32 → List UInt32 → List UInt32
  | 0, state, _ => state
  | count + 1, state, rest =>
    if rest.isEmpty then state
    else mixAll count (mix state (rest.take 16)) (rest.drop 16)

/-- The digest of a byte sequence. -/
def sha256 (bytes : List UInt8) : List UInt8 :=
  let input := words (padded bytes)
  (mixAll input.length initialState input).flatMap fun word => bigEndian 4 word.toNat

end WasmWorkshop.Digest
