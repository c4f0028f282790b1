import Mathlib.Tactic.SplitIfs
import WasmWorkshop.DataLayout
import WasmWorkshop.Json.Token

/-!
# Reading escaped bytes

The bytes of a data literal are written as groups of a backslash and two hexadecimal digits. Reading
the groups (`unescape?`) gives back the bytes that were written (`unescape?_escapeBytes`), whatever
they are: the digits of a byte are two, also of a small one, so the groups stay apart.

A text is kept with a zero byte behind its UTF-8 encoding. No character but U+0000 has a zero byte
in its encoding (`zero_notMem_utf8EncodeChar`), so the zero byte behind a text without U+0000 is the
first one (`takeWhile_terminated`).
-/

set_option autoImplicit false

namespace WasmWorkshop

/-! ## Groups of a backslash and two digits -/

/-- The bytes that groups of a backslash and two hexadecimal digits stand for. -/
def unescape? : List Char → Option (List UInt8)
  | [] => some []
  | '\\' :: high :: low :: rest => do
    let high ← Json.hexValue? high
    let low ← Json.hexValue? low
    let bytes ← unescape? rest
    return UInt8.ofNat (16 * high + low) :: bytes
  | _ => none

/-- A hexadecimal digit stands for its value. -/
theorem hexValue?_hexDigit {value : Nat} (small : value < 16) :
    Json.hexValue? (hexDigit value) = some value := by
  decide +revert

theorem unescape?_escapeByte_append (byte : UInt8) (rest : List Char) :
    unescape? (escapeByte byte ++ rest) = (unescape? rest).map (byte :: ·) := by
  have below := byte.toNat_lt
  have high := hexValue?_hexDigit (show byte.toNat / 16 < 16 by omega)
  have low := hexValue?_hexDigit (show byte.toNat % 16 < 16 by omega)
  have value : UInt8.ofNat (16 * (byte.toNat / 16) + byte.toNat % 16) = byte := by
    rw [Nat.div_add_mod, UInt8.ofNat_toNat]
  change (do
    let high ← Json.hexValue? (hexDigit (byte.toNat / 16))
    let low ← Json.hexValue? (hexDigit (byte.toNat % 16))
    let bytes ← unescape? rest
    return UInt8.ofNat (16 * high + low) :: bytes) = _
  rw [high, low]
  cases unescape? rest with
  | none => rfl
  | some bytes => exact congrArg (fun first => some (first :: bytes)) value

/-- **What was escaped is read back.** -/
theorem unescape?_escapeBytes (bytes : List UInt8) :
    unescape? (escapeBytes bytes).toList = some bytes := by
  rw [escapeBytes, String.toList_ofList]
  induction bytes with
  | nil => rfl
  | cons byte rest ih => rw [List.flatMap_cons, unescape?_escapeByte_append, ih, Option.map_some]

/-! ## Texts and the zero byte behind them -/

/-- The bytes of a text are those of its characters. -/
theorem utf8Bytes_eq_flatMap (text : String) :
    utf8Bytes text = text.toList.flatMap String.utf8EncodeChar := by
  rw [utf8Bytes, show text.toUTF8 = text.toByteArray from rfl, ← String.utf8Encode_toList]
  simp [List.utf8Encode]

/-- A byte that is given by a number from 1 to 255. -/
theorem ofNat_ne_zero {value : Nat} (positive : 0 < value) (small : value < 256) :
    UInt8.ofNat value ≠ 0 := by
  intro zero
  have same : value % 256 = 0 := congrArg UInt8.toNat zero
  omega

/-- **No character but U+0000 has a zero byte.** A character of one byte is that byte, and all bytes
of the others have their highest bit set. -/
theorem zero_notMem_utf8EncodeChar {character : Char} (notZero : character ≠ '\x00') :
    0 ∉ String.utf8EncodeChar character := by
  have positive : 0 < character.val.toNat := by
    refine Nat.pos_of_ne_zero fun zero => notZero ?_
    exact Char.ext (UInt32.toNat_inj.mp zero)
  rw [String.utf8EncodeChar]
  generalize character.val.toNat = code at positive
  split_ifs with one two three
  all_goals
    simp only [List.mem_cons, List.not_mem_nil, or_false, not_or]
    repeat' apply And.intro
    all_goals exact (ofNat_ne_zero (by omega) (by omega)).symm

/-- A text without U+0000 has no zero byte. -/
theorem zero_notMem_utf8Bytes {text : String} (noZero : '\x00' ∉ text.toList) :
    0 ∉ utf8Bytes text := by
  rw [utf8Bytes_eq_flatMap, List.mem_flatMap]
  rintro ⟨character, member, zero⟩
  refine zero_notMem_utf8EncodeChar ?_ zero
  rintro rfl
  exact noZero member

/-- **The zero byte behind a text without U+0000 is the first one.** -/
theorem takeWhile_terminated {text : String} (noZero : '\x00' ∉ text.toList)
    (more : List UInt8) :
    (terminated text ++ more).takeWhile (· ≠ 0) = utf8Bytes text := by
  have nonzero : ∀ byte ∈ utf8Bytes text, decide (byte ≠ 0) = true := by
    intro byte member
    refine decide_eq_true fun zero => zero_notMem_utf8Bytes noZero ?_
    rwa [zero] at member
  rw [terminated, List.append_assoc, List.takeWhile_append_of_pos nonzero]
  exact List.append_nil _

end WasmWorkshop
