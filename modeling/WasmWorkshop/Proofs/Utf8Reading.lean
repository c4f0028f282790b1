import WasmWorkshop.Proofs.EscapedBytes

/-!
# Reading UTF-8 back

The bytes of a character form a sequence of one of four shapes (`IsSequence`). These are the
sequences that a character is written as (`exists_isSequence`, `IsSequence.utf8EncodeChar_eq`) and
those that are read as a character (`decodeHead_of_isSequence`, `isSequence_of_decodeHead`), so
reading is the inverse of writing in both directions: what was written is read back
(`decodeLossy_utf8Bytes`), and bytes that are read without a replacement are those of the text that
was read (`utf8Bytes_decodeLossy`).
-/

set_option autoImplicit false

namespace WasmWorkshop

/-! ## Tests on bytes as bounds -/

theorem isContinuation_iff (byte : UInt8) :
    isContinuation byte = true ↔ 0x80 ≤ byte.toNat ∧ byte.toNat ≤ 0xBF := by
  simp [isContinuation, UInt8.le_iff_toNat_le]

/-- A second byte is a continuation, and some first bytes set it narrower bounds. -/
theorem isSecondByte_iff (first second : UInt8) :
    isSecondByte first second = true ↔
      (0x80 ≤ second.toNat ∧ second.toNat ≤ 0xBF) ∧
        (first.toNat = 0xE0 → 0xA0 ≤ second.toNat) ∧
        (first.toNat = 0xED → second.toNat ≤ 0x9F) ∧
        (first.toNat = 0xF0 → 0x90 ≤ second.toNat) ∧
        (first.toNat = 0xF4 → second.toNat ≤ 0x8F) := by
  have number (literal : UInt8) : first = literal ↔ first.toNat = literal.toNat :=
    UInt8.toNat_inj.symm
  simp only [isSecondByte, isContinuation, number]
  split_ifs <;> simp_all [UInt8.le_iff_toNat_le] <;> omega

/-- The first byte tells how many bytes there are. -/
theorem sequenceLength?_eq_some_iff (first : UInt8) (length : Nat) :
    sequenceLength? first = some length ↔
      first.toNat < 0x80 ∧ length = 1 ∨
      (0xC2 ≤ first.toNat ∧ first.toNat ≤ 0xDF) ∧ length = 2 ∨
      (0xE0 ≤ first.toNat ∧ first.toNat ≤ 0xEF) ∧ length = 3 ∨
      (0xF0 ≤ first.toNat ∧ first.toNat ≤ 0xF4) ∧ length = 4 := by
  simp only [sequenceLength?, Bool.and_eq_true, decide_eq_true_eq, UInt8.lt_iff_toNat_lt,
    UInt8.le_iff_toNat_le, UInt8.reduceToNat]
  split_ifs <;> simp <;> omega

theorem sequenceLength?_eq_one_iff (first : UInt8) :
    sequenceLength? first = some 1 ↔ first.toNat < 0x80 := by
  simp [sequenceLength?_eq_some_iff]

theorem sequenceLength?_eq_two_iff (first : UInt8) :
    sequenceLength? first = some 2 ↔ 0xC2 ≤ first.toNat ∧ first.toNat ≤ 0xDF := by
  simp [sequenceLength?_eq_some_iff]

theorem sequenceLength?_eq_three_iff (first : UInt8) :
    sequenceLength? first = some 3 ↔ 0xE0 ≤ first.toNat ∧ first.toNat ≤ 0xEF := by
  simp [sequenceLength?_eq_some_iff]

theorem sequenceLength?_eq_four_iff (first : UInt8) :
    sequenceLength? first = some 4 ↔ 0xF0 ≤ first.toNat ∧ first.toNat ≤ 0xF4 := by
  simp [sequenceLength?_eq_some_iff]

/-! ## The sequences of a character -/

/-- The first byte of a character and those behind it, and the number of the character. -/
inductive IsSequence (first : UInt8) : List UInt8 → Nat → Prop where
  | one {number : Nat} (leads : sequenceLength? first = some 1) (isNumber : number = first.toNat) :
      IsSequence first [] number
  | two {second : UInt8} {number : Nat} (leads : sequenceLength? first = some 2)
      (follows : isSecondByte first second = true)
      (isNumber : number = first.toNat % 32 * 64 + continuationBits second) :
      IsSequence first [second] number
  | three {second third : UInt8} {number : Nat} (leads : sequenceLength? first = some 3)
      (follows : isSecondByte first second = true) (continues : isContinuation third = true)
      (isNumber : number =
        first.toNat % 16 * 4096 + continuationBits second * 64 + continuationBits third) :
      IsSequence first [second, third] number
  | four {second third fourth : UInt8} {number : Nat} (leads : sequenceLength? first = some 4)
      (follows : isSecondByte first second = true) (continues : isContinuation third = true)
      (ends : isContinuation fourth = true)
      (isNumber : number = first.toNat % 8 * 262144 + continuationBits second * 4096 +
        continuationBits third * 64 + continuationBits fourth) :
      IsSequence first [second, third, fourth] number

section

variable {first : UInt8} {more rest : List UInt8} {number : Nat}

/-- A sequence is read as its character, whatever follows it. -/
theorem decodeHead_of_isSequence (sequence : IsSequence first more number) (rest : List UInt8) :
    decodeHead first (more ++ rest) = (some (Char.ofNat number), more.length) := by
  cases sequence with
  | one leads isNumber => simp [decodeHead, leads, isNumber]
  | two leads follows isNumber => simp [decodeHead, leads, follows, isNumber]
  | three leads follows continues isNumber =>
      simp [decodeHead, leads, follows, continues, isNumber]
  | four leads follows continues ends isNumber =>
      simp [decodeHead, leads, follows, continues, ends, isNumber]

/-- Where a character is read, there is a sequence. -/
theorem isSequence_of_decodeHead {character : Char} {length : Nat}
    (read : decodeHead first rest = (some character, length)) :
    ∃ number, IsSequence first (rest.take length) number ∧ character = Char.ofNat number := by
  unfold decodeHead at read
  split at read
  · next leads =>
    cases read
    exact ⟨_, .one leads rfl, rfl⟩
  · next leads =>
    split_ifs at read with follows <;> cases read
    exact ⟨_, .two leads follows rfl, rfl⟩
  · next leads =>
    split_ifs at read with follows continues <;> cases read
    rw [Bool.not_eq_true', Bool.not_eq_false] at follows continues
    exact ⟨_, .three leads follows continues rfl, rfl⟩
  · next leads =>
    split_ifs at read with follows continues ends <;> cases read
    rw [Bool.not_eq_true', Bool.not_eq_false] at follows continues ends
    exact ⟨_, .four leads follows continues ends rfl, rfl⟩
  all_goals cases read

/-- **A sequence is how its character is written.** The bounds on its bytes leave out what has a
shorter sequence, surrogates, and what is above U+10FFFF. -/
theorem IsSequence.utf8EncodeChar_eq (sequence : IsSequence first more number) :
    String.utf8EncodeChar (Char.ofNat number) = first :: more := by
  have written (valid : number.isValidChar) : (Char.ofNat number).val.toNat = number := by
    rw [Char.ofNat, dif_pos valid]
    rfl
  rw [String.utf8EncodeChar]
  cases sequence with
  | one leads isNumber =>
      rw [sequenceLength?_eq_one_iff] at leads
      rw [written (.inl (by omega)), if_pos (by omega), isNumber, UInt8.ofNat_toNat]
  | @two second _ leads follows isNumber =>
      rw [sequenceLength?_eq_two_iff] at leads
      obtain ⟨bounds, -⟩ := (isSecondByte_iff first second).mp follows
      rw [continuationBits] at isNumber
      rw [written (.inl (by omega)), if_neg (by omega), if_pos (by omega)]
      simp only [List.cons.injEq, ← UInt8.toNat_inj, UInt8.toNat_ofNat', and_true]
      omega
  | @three second third _ leads follows continues isNumber =>
      rw [sequenceLength?_eq_three_iff] at leads
      obtain ⟨bounds, long, noSurrogate, -⟩ := (isSecondByte_iff first second).mp follows
      rw [isContinuation_iff] at continues
      rw [continuationBits, continuationBits] at isNumber
      have valid : number.isValidChar := by
        rw [Nat.isValidChar]
        omega
      rw [written valid, if_neg (by omega), if_neg (by omega), if_pos (by omega)]
      -- Each byte is a digit of the number. The bounds that make it a character are used up.
      clear valid long noSurrogate
      simp only [List.cons.injEq, ← UInt8.toNat_inj, UInt8.toNat_ofNat', and_true]
      omega
  | @four second third fourth _ leads follows continues ends isNumber =>
      rw [sequenceLength?_eq_four_iff] at leads
      obtain ⟨bounds, -, -, long, within⟩ := (isSecondByte_iff first second).mp follows
      rw [isContinuation_iff] at continues ends
      rw [continuationBits, continuationBits, continuationBits] at isNumber
      rw [written (.inr (by omega)), if_neg (by omega), if_neg (by omega), if_neg (by omega)]
      clear long within
      simp only [List.cons.injEq, ← UInt8.toNat_inj, UInt8.toNat_ofNat', and_true]
      omega

end

theorem exists_byte {value : Nat} (small : value < 256) :
    ∃ byte, UInt8.ofNat value = byte ∧ byte.toNat = value :=
  ⟨_, rfl, UInt8.toNat_ofNat_of_lt' small⟩

/-- **Every character is written as a sequence.** -/
theorem exists_isSequence (character : Char) :
    ∃ first more, String.utf8EncodeChar character = first :: more ∧
      IsSequence first more character.toNat := by
  have valid : character.val.toNat.isValidChar := character.valid
  rw [String.utf8EncodeChar, Char.toNat]
  generalize character.val.toNat = number at valid
  rw [Nat.isValidChar] at valid
  have continued (value : Nat) :
      ∃ byte, UInt8.ofNat (value % 64 + 128) = byte ∧ byte.toNat = value % 64 + 128 :=
    exists_byte (by omega)
  split_ifs with one two three
  · obtain ⟨first, isFirst, firstValue⟩ := exists_byte (show number < 256 by omega)
    refine ⟨first, [], by rw [isFirst], .one ?_ firstValue.symm⟩
    rw [sequenceLength?_eq_one_iff]
    omega
  · obtain ⟨first, isFirst, firstValue⟩ := exists_byte (show number / 64 % 32 + 192 < 256 by omega)
    obtain ⟨second, isSecond, secondValue⟩ := continued number
    refine ⟨first, [second], by rw [isFirst, isSecond], .two ?_ ?_ ?_⟩
    · rw [sequenceLength?_eq_two_iff]
      omega
    · rw [isSecondByte_iff]
      omega
    · rw [continuationBits]
      omega
  · obtain ⟨first, isFirst, firstValue⟩ :=
      exists_byte (show number / 4096 % 16 + 224 < 256 by omega)
    obtain ⟨second, isSecond, secondValue⟩ := continued (number / 64)
    obtain ⟨third, isThird, thirdValue⟩ := continued number
    refine ⟨first, [second, third], by rw [isFirst, isSecond, isThird], .three ?_ ?_ ?_ ?_⟩
    · rw [sequenceLength?_eq_three_iff]
      omega
    · rw [isSecondByte_iff]
      omega
    · rw [isContinuation_iff]
      omega
    · rw [continuationBits, continuationBits]
      omega
  · obtain ⟨first, isFirst, firstValue⟩ :=
      exists_byte (show number / 262144 % 8 + 240 < 256 by omega)
    obtain ⟨second, isSecond, secondValue⟩ := continued (number / 4096)
    obtain ⟨third, isThird, thirdValue⟩ := continued (number / 64)
    obtain ⟨fourth, isFourth, fourthValue⟩ := continued number
    refine ⟨first, [second, third, fourth], by rw [isFirst, isSecond, isThird, isFourth],
      .four ?_ ?_ ?_ ?_ ?_⟩
    · rw [sequenceLength?_eq_four_iff]
      omega
    · rw [isSecondByte_iff]
      omega
    · rw [isContinuation_iff]
      omega
    · rw [isContinuation_iff]
      omega
    · rw [continuationBits, continuationBits, continuationBits]
      omega

/-! ## Texts -/

theorem decodeLossyChars_utf8EncodeChar_append (character : Char) (rest : List UInt8) :
    decodeLossyChars (String.utf8EncodeChar character ++ rest) =
      character :: decodeLossyChars rest := by
  obtain ⟨first, more, written, sequence⟩ := exists_isSequence character
  have head := decodeHead_of_isSequence sequence rest
  rw [Char.ofNat_toNat] at head
  rw [written, List.cons_append, decodeLossyChars, head]
  simp only [Option.getD_some, List.drop_left]

/-- **What was written is read back.** -/
theorem decodeLossy_utf8Bytes (text : String) : decodeLossy (utf8Bytes text) = text := by
  have read (characters : List Char) :
      decodeLossyChars (characters.flatMap String.utf8EncodeChar) = characters := by
    induction characters with
    | nil => rw [List.flatMap_nil, decodeLossyChars]
    | cons character rest ih =>
        rw [List.flatMap_cons, decodeLossyChars_utf8EncodeChar_append, ih]
  rw [decodeLossy, utf8Bytes_eq_flatMap, read, String.ofList_toList]

/-- The bytes that are read without a replacement are those of the characters that were read. -/
theorem flatMap_decodeLossyChars (bytes : List UInt8)
    (unreplaced : Char.ofNat 0xFFFD ∉ decodeLossyChars bytes) :
    (decodeLossyChars bytes).flatMap String.utf8EncodeChar = bytes := by
  induction bytes using decodeLossyChars.induct with
  | case1 => rw [decodeLossyChars, List.flatMap_nil]
  | case2 first rest head ih =>
      rw [decodeLossyChars] at unreplaced ⊢
      rw [List.mem_cons, not_or] at unreplaced
      obtain ⟨here, further⟩ := unreplaced
      rw [List.flatMap_cons, ih further]
      rcases answer : decodeHead first rest with ⟨_ | character, length⟩
      · rw [answer] at here
        exact absurd rfl here
      · obtain ⟨number, sequence, rfl⟩ := isSequence_of_decodeHead answer
        change String.utf8EncodeChar (Char.ofNat number) ++ rest.drop head.2 = first :: rest
        rw [sequence.utf8EncodeChar_eq, show head.2 = length from congrArg Prod.snd answer,
          List.cons_append, List.take_append_drop]

/-- **Bytes that are read without a replacement are those of the text that was read.** -/
theorem utf8Bytes_decodeLossy {bytes : List UInt8}
    (unreplaced : Char.ofNat 0xFFFD ∉ (decodeLossy bytes).toList) :
    utf8Bytes (decodeLossy bytes) = bytes := by
  rw [decodeLossy, String.toList_ofList] at unreplaced
  rw [utf8Bytes_eq_flatMap, decodeLossy, String.toList_ofList,
    flatMap_decodeLossyChars bytes unreplaced]

end WasmWorkshop
