import WasmWorkshop.Proofs.StringLiterals
import WasmWorkshop.Session.Evaluation

/-!
# The written form of bytes

Bytes are written as groups of a backslash and two lower-case hexadecimal digits, three characters
for each byte. These groups are described on their own (`IsEscaped`), and they are just what is
written (`isEscaped_iff`): every byte has a group, and every group stands for a byte. As reading is
the inverse of writing, each sequence of bytes has one written form and each form is that of one
sequence (`Session.forms_oneToOne`), which is also what it denotes as a string literal. Nothing in
it can end the literal or the line, or count as a parenthesis.

The node of a text has the form of the UTF-8 bytes of the text and the zero byte behind them.
-/

set_option autoImplicit false

namespace WasmWorkshop

/-! ## Digits -/

/-- The lower-case hexadecimal digits. -/
def lowerHexDigits : List Char := "0123456789abcdef".toList

/-- They are the digits of the values below sixteen. -/
theorem mem_lowerHexDigits_iff {digit : Char} :
    digit ∈ lowerHexDigits ↔ ∃ value < 16, hexDigit value = digit := by
  have digits : lowerHexDigits = (List.range 16).map hexDigit := by decide
  simp only [digits, List.mem_map, List.mem_range]

/-! ## Groups -/

/-- Groups of a backslash and two lower-case hexadecimal digits. -/
inductive IsEscaped : List Char → Prop where
  | nil : IsEscaped []
  | group {high low : Char} {rest : List Char} (isHigh : high ∈ lowerHexDigits)
      (isLow : low ∈ lowerHexDigits) (more : IsEscaped rest) :
      IsEscaped ('\\' :: high :: low :: rest)

/-- Two digits below sixteen make a byte. -/
theorem exists_escapeByte {high low : Nat} (smallHigh : high < 16) (smallLow : low < 16) :
    ∃ byte, escapeByte byte = ['\\', hexDigit high, hexDigit low] := by
  have value : (UInt8.ofNat (16 * high + low)).toNat = 16 * high + low :=
    UInt8.toNat_ofNat_of_lt' (show 16 * high + low < 256 by omega)
  refine ⟨UInt8.ofNat (16 * high + low), ?_⟩
  rw [escapeByte, hexDigits, value, show (16 * high + low) / 16 = high by omega,
    show (16 * high + low) % 16 = low by omega]

/-- **Groups are just what is written for bytes.** -/
theorem isEscaped_iff (characters : List Char) :
    IsEscaped characters ↔ ∃ bytes : List UInt8, bytes.flatMap escapeByte = characters := by
  constructor
  · intro escaped
    induction escaped with
    | nil => exact ⟨[], rfl⟩
    | group isHigh isLow more ih =>
        obtain ⟨high, smallHigh, rfl⟩ := mem_lowerHexDigits_iff.mp isHigh
        obtain ⟨low, smallLow, rfl⟩ := mem_lowerHexDigits_iff.mp isLow
        obtain ⟨byte, group⟩ := exists_escapeByte smallHigh smallLow
        obtain ⟨bytes, rfl⟩ := ih
        refine ⟨byte :: bytes, ?_⟩
        rw [List.flatMap_cons, group]
        rfl
  · rintro ⟨bytes, rfl⟩
    induction bytes with
    | nil => exact .nil
    | cons byte rest ih =>
        have below := byte.toNat_lt
        refine .group ?_ ?_ ih
        · exact mem_lowerHexDigits_iff.mpr ⟨byte.toNat / 16, by omega, rfl⟩
        · exact mem_lowerHexDigits_iff.mpr ⟨byte.toNat % 16, by omega, rfl⟩

namespace IsEscaped

variable {characters : List Char}

/-- There is nothing but backslashes and digits. -/
theorem mem (escaped : IsEscaped characters) :
    ∀ character ∈ characters, character = '\\' ∨ character ∈ lowerHexDigits := by
  induction escaped with
  | nil => exact List.forall_mem_nil _
  | group isHigh isLow more ih =>
      exact List.forall_mem_cons.mpr ⟨.inl rfl, List.forall_mem_cons.mpr ⟨.inr isHigh,
        List.forall_mem_cons.mpr ⟨.inr isLow, ih⟩⟩⟩

end IsEscaped

theorem isEscaped_escapeBytes (bytes : List UInt8) : IsEscaped (escapeBytes bytes).toList := by
  rw [escapeBytes, String.toList_ofList, isEscaped_iff]
  exact ⟨bytes, rfl⟩

/-! ## Written forms -/

/-- How the written form of bytes stands to the bytes. -/
structure FormTells (bytes : List UInt8) (form : String) : Prop where
  length : form.length = 3 * bytes.length
  characters : ∀ character ∈ form.toList, character = '\\' ∨ character ∈ lowerHexDigits
  /-- Nothing ends the literal or the line, or counts as a parenthesis. -/
  harmless : ∀ character ∈ ['"', '\n', '\r', '(', ')'], character ∉ form.toList
  read : unescape? form.toList = some bytes
  /-- Between quotes it is the literal of the bytes, and of no others. -/
  literal : ∀ other, IsStringLiteral (quoted form) other ↔ other = bytes

theorem length_escapeBytes (bytes : List UInt8) :
    (escapeBytes bytes).length = 3 * bytes.length := by
  rw [escapeBytes, String.length_ofList]
  induction bytes with
  | nil => rfl
  | cons byte rest ih =>
      have three : (escapeByte byte).length = 3 := rfl
      rw [List.flatMap_cons, List.length_append, three, ih, List.length_cons]
      omega

theorem formTells (bytes : List UInt8) : FormTells bytes (escapeBytes bytes) where
  length := length_escapeBytes bytes
  characters := (isEscaped_escapeBytes bytes).mem
  harmless := by
    intro character harmful member
    have none : ['"', '\n', '\r', '(', ')'].all (· ∉ '\\' :: lowerHexDigits) = true := by decide
    have other := of_decide_eq_true (List.all_eq_true.mp none character harmful)
    exact other (List.mem_cons.mpr ((isEscaped_escapeBytes bytes).mem character member))
  read := unescape?_escapeBytes bytes
  literal := by
    intro other
    rw [isStringLiteral_quoted_iff]
    constructor
    · intro denotes
      exact denotes.unique (denotes_escapeBytes bytes)
    · rintro rfl
      exact denotes_escapeBytes other

/-- Escaping different bytes gives different forms. -/
theorem escapeBytes_injective : Function.Injective escapeBytes := by
  intro first second same
  have read := unescape?_escapeBytes first
  rw [same, unescape?_escapeBytes] at read
  exact (Option.some.inj read).symm

/-- Groups are the form of the bytes that they are read as, and of no others. -/
theorem isEscaped_iff_readable (form : String) :
    IsEscaped form.toList ↔ ∃ bytes, unescape? form.toList = some bytes ∧
      ∀ other, escapeBytes other = form ↔ other = bytes := by
  constructor
  · intro escaped
    obtain ⟨bytes, same⟩ := (isEscaped_iff form.toList).mp escaped
    obtain rfl : escapeBytes bytes = form := by rw [escapeBytes, same, String.ofList_toList]
    exact ⟨bytes, unescape?_escapeBytes bytes, fun other => escapeBytes_injective.eq_iff⟩
  · rintro ⟨bytes, -, only⟩
    obtain rfl := (only bytes).mpr rfl
    exact isEscaped_escapeBytes bytes

namespace Session

/-- **Bytes and their written forms are in one-to-one correspondence.** Every sequence of bytes has
a form of three characters for each byte, which is read back, and groups of a backslash and two
lower-case digits are the form of just one sequence, which is what they are read as. The node of a
text has the form of its UTF-8 bytes and a zero byte behind them. -/
theorem forms_oneToOne :
    (∀ bytes, FormTells bytes (escapeBytes bytes)) ∧
    (∀ form : String, IsEscaped form.toList ↔ ∃ bytes, unescape? form.toList = some bytes ∧
      ∀ other, escapeBytes other = form ↔ other = bytes) ∧
    ∀ (text : String) (state : State), ∃ position form,
      ((Expression.string text).make.run state).1.header? =
        some ["data", position, quoted form] ∧
      FormTells (utf8Bytes text ++ [0]) form :=
  ⟨formTells, isEscaped_iff_readable, fun text _ => ⟨_, _, rfl, formTells (terminated text)⟩⟩

end Session

end WasmWorkshop
