import WasmWorkshop.Json.Writing
import WasmWorkshop.Proofs.EscapedBytes
import WasmWorkshop.Proofs.GrammarTokens

/-!
# Tokens that were written are read back

A string that was written is read back, whatever its characters are (`readString_written`): each of
them is one unit of the string, as it stands or as an escape. A natural number is written by digits
that give it (`givesNatural_writeNatural`), so it is read back where what follows cannot be taken
for a part of it. Inside of an array or an object that is always so, because a comma or a closing
bracket comes next (`Delimited`).
-/

set_option autoImplicit false

namespace WasmWorkshop.Json

variable {rest : List Char}

/-! ## Strings -/

/-- The letter for a control character stands for that character. -/
theorem mem_escapeLetters_of_control {character letter : Char}
    (chosen : controlLetter? character = some letter) : (letter, character) ∈ escapeLetters := by
  rw [controlLetter?] at chosen
  split_ifs at chosen with backspace formFeed newline carriageReturn tab
  all_goals
    cases chosen
    subst character
    decide

/-- The code of a control character, which is too small for a surrogate. -/
theorem isCode_control {character : Char} (control : character.toNat < 0x20) :
    IsCode ('0' :: '0' :: hexDigits (UInt8.ofNat character.toNat)) character.toNat := by
  have byte : (UInt8.ofNat character.toNat).toNat = character.toNat := by
    rw [UInt8.toNat_ofNat']
    omega
  have high := hexValue?_hexDigit (show character.toNat / 16 < 16 by omega)
  have low := hexValue?_hexDigit (show character.toNat % 16 < 16 by omega)
  have zero : hexValue? '0' = some 0 := by decide
  have value : ((0 * 16 + 0) * 16 + character.toNat / 16) * 16 + character.toNat % 16 =
      character.toNat := by omega
  have code := IsCode.digits zero zero high low
  rwa [value, ← byte, ← hexDigits, byte] at code

/-- **A character that was written is one unit.** -/
theorem spellsChar_writeChar (character : Char) :
    SpellsChar (writeChar character) character := by
  rw [writeChar]
  split_ifs with quote backslash control
  · subst quote
    exact .letter (by decide)
  · subst backslash
    exact .letter (by decide)
  · cases chosen : controlLetter? character with
    | some letter => exact .letter (mem_escapeLetters_of_control chosen)
    | none =>
        have escape := SpellsChar.code (isCode_control control) (.inl (by omega))
        rwa [Char.ofNat_toNat] at escape
  · exact .plain ⟨quote, backslash, Nat.le_of_not_lt control⟩

theorem spells_flatMap_writeChar (characters : List Char) :
    Spells (characters.flatMap writeChar) characters := by
  induction characters with
  | nil => exact .nil
  | cons character more ih => exact .cons (spellsChar_writeChar character) ih

/-- **A string that was written is read back**, from behind its opening quote. -/
theorem readString_written (characters : List Char) :
    readString (characters.flatMap writeChar ++ '"' :: rest) = .ok (characters, rest) :=
  readString_spelled (spells_flatMap_writeChar characters)

/-! ## What comes next -/

/-- What follows a value inside of an array or an object, or at the end of the text. -/
def Delimited (rest : List Char) : Prop :=
  ∀ next ∈ rest.head?, next = ',' ∨ next = ']' ∨ next = '\x7d'

theorem delimited_nil : Delimited [] := fun _ next => absurd next (Option.not_mem_none _)

theorem delimited_cons {next : Char} (closes : next = ',' ∨ next = ']' ∨ next = '\x7d') :
    Delimited (next :: rest) := fun _ same => Option.mem_some_iff.mp same ▸ closes

/-- A comma or a closing bracket cannot go on with a number. -/
theorem Delimited.endsNumber (delimited : Delimited rest) : EndsNumber rest := by
  intro next head
  rcases delimited next head with rfl | rfl | rfl <;> exact ⟨rfl, by decide⟩

/-! ## Numbers -/

theorem toList_natural (value : Nat) : writeNatural value = Nat.toDigits 10 value := by
  rw [writeNatural, Nat.toString_eq_repr, Nat.toList_repr]

theorem isDigit_of_mem_writeNatural {value : Nat} {digit : Char}
    (member : digit ∈ writeNatural value) : digit.isDigit = true := by
  rw [toList_natural] at member
  exact Nat.isDigit_of_mem_toDigits (by decide) (by decide) member

/-- A number starts with a digit, which is a zero only if the number is. -/
theorem writeNatural_eq_cons (value : Nat) :
    ∃ first more, writeNatural value = first :: more ∧ first.isDigit = true ∧
      (first = '0' → value = 0) := by
  have zeroOnly : ∀ digit < 10, digit.digitChar = '0' → digit = 0 := by decide
  rw [toList_natural]
  induction value using Nat.strongRecOn with
  | ind value ih =>
      rcases Nat.lt_or_ge value 10 with small | large
      · exact ⟨value.digitChar, [], Nat.toDigits_of_lt_base small, by simpa using small,
          zeroOnly value small⟩
      · obtain ⟨first, more, digits, isDigit, onlyZero⟩ := ih (value / 10) (by omega)
        refine ⟨first, more ++ [(value % 10).digitChar], ?_, isDigit, ?_⟩
        · rw [Nat.toDigits_of_base_le (by decide) large, digits, List.cons_append]
        · intro zero
          have := onlyZero zero
          omega

theorem decimalValue_writeNatural (value : Nat) : decimalValue (writeNatural value) = value := by
  rw [decimalValue, ← Nat.ofDigitChars_eq_foldl, toList_natural, Nat.ofDigitChars_ten_toDigits]

theorem isWhole_writeNatural (value : Nat) : IsWhole (writeNatural value) := by
  obtain ⟨first, more, starts, -, onlyZero⟩ := writeNatural_eq_cons value
  rcases Nat.eq_zero_or_pos value with rfl | positive
  · exact .inl (by rw [toList_natural, Nat.toDigits_zero])
  · refine .inr ⟨⟨starts ▸ List.cons_ne_nil first more, fun _ => isDigit_of_mem_writeNatural⟩,
      fun zero => ?_⟩
    rw [starts] at zero
    exact Nat.ne_of_gt positive (onlyZero (Option.some.inj zero))

/-- **A natural number that was written gives that number.** -/
theorem givesNatural_writeNatural (value : Nat) : GivesNatural (writeNatural value) value := by
  have gives := GivesNatural.mk (isWhole_writeNatural value)
  rwa [decimalValue_writeNatural] at gives

end WasmWorkshop.Json
