import Mathlib.Data.List.Basic
import WasmWorkshop.Proofs.JsonGrammar

/-!
# Tokens of the grammar are read

What the grammar calls a string or a number is read up to its end, whatever follows a string
(`readString_spelled`, `skipString_body`), and whatever cannot go on with the digits of a number
(`readNumber_spelled`). Space is passed over.

A string that is read could be skipped as well, with the same rest (`skipString_of_readString`). The
other way round that is not so: a surrogate without its other half can only be skipped.
-/

set_option autoImplicit false

namespace WasmWorkshop.Json

variable {rest : List Char}

/-! ## Space -/

theorem isSpace_of_mem {text : List Char} (space : IsSpace text) {character : Char}
    (member : character ∈ text) : isSpace character = true := by
  have known := space character member
  simp only [List.mem_cons, List.not_mem_nil, or_false] at known
  rcases known with rfl | rfl | rfl | rfl <;> rfl

/-- Space is passed over. -/
theorem skipSpace_append {before : List Char} (space : IsSpace before) (rest : List Char) :
    skipSpace (before ++ rest) = skipSpace rest :=
  List.dropWhile_append_of_pos fun _ => isSpace_of_mem space

theorem isSpace_nil : IsSpace [] := fun _ member => absurd member List.not_mem_nil

theorem skipSpace_cons {first : Char} (noSpace : isSpace first = false) :
    skipSpace (first :: rest) = first :: rest :=
  List.dropWhile_cons_of_neg (by simp [noSpace])

/-! ## Strings -/

theorem readHex_digits {digits : List Char} {code : Nat} (isCode : IsCode digits code) :
    readHex (digits ++ rest) = .ok (code, rest) := by
  obtain ⟨first, second, third, fourth⟩ := isCode
  simp only [List.cons_append, List.nil_append, readHex, first, second, third, fourth]

/-- The letters of escapes are the ones that are known to the reader. -/
theorem escapedChar?_of_mem {letter meant : Char} (known : (letter, meant) ∈ escapeLetters) :
    letter ≠ 'u' ∧ escapedChar? letter = some meant := by
  simp only [escapeLetters, List.mem_cons, Prod.mk.injEq, List.not_mem_nil, or_false] at known
  rcases known with ⟨rfl, rfl⟩ | ⟨rfl, rfl⟩ | ⟨rfl, rfl⟩ | ⟨rfl, rfl⟩ | ⟨rfl, rfl⟩ | ⟨rfl, rfl⟩ |
    ⟨rfl, rfl⟩ | ⟨rfl, rfl⟩ <;> exact ⟨by decide, rfl⟩

/-- An escape by letter. -/
theorem readEscape_letter {letter meant : Char} (known : (letter, meant) ∈ escapeLetters) :
    readEscape (letter :: rest) = .ok (meant, rest) := by
  obtain ⟨notCode, stands⟩ := escapedChar?_of_mem known
  unfold readEscape
  split <;> simp_all

/-- An escape by the code of a character. -/
theorem readCode_single {digits : List Char} {code : Nat} (isCode : IsCode digits code)
    (single : code < 0xD800 ∨ 0xDFFF < code) :
    readCode (digits ++ rest) = .ok (Char.ofNat code, rest) := by
  have notLow : isLowSurrogate code = false := by
    simp only [isLowSurrogate, Bool.and_eq_false_iff, decide_eq_false_iff_not]
    omega
  have notHigh : isHighSurrogate code = false := by
    simp only [isHighSurrogate, Bool.and_eq_false_iff, decide_eq_false_iff_not]
    omega
  simp only [readCode, readHex_digits isCode, notLow, notHigh, Bool.false_eq_true, if_false]

/-- An escape by the codes of a pair of surrogates. -/
theorem readCode_pair {digits others : List Char} {high low : Nat} (first : IsCode digits high)
    (isHigh : 0xD800 ≤ high ∧ high ≤ 0xDBFF) (second : IsCode others low)
    (isLow : 0xDC00 ≤ low ∧ low ≤ 0xDFFF) :
    readCode (digits ++ '\\' :: 'u' :: (others ++ rest)) =
      .ok (Char.ofNat (0x10000 + (high - 0xD800) * 0x400 + (low - 0xDC00)), rest) := by
  have notLow : isLowSurrogate high = false := by
    simp only [isLowSurrogate, Bool.and_eq_false_iff, decide_eq_false_iff_not]
    omega
  have highOne : isHighSurrogate high = true := by
    simp only [isHighSurrogate, Bool.and_eq_true, decide_eq_true_eq]
    exact isHigh
  have lowOne : isLowSurrogate low = true := by
    simp only [isLowSurrogate, Bool.and_eq_true, decide_eq_true_eq]
    exact isLow
  have value : (high - 0xD800) * 1024 + (low - 0xDC00) + 0x10000 =
      0x10000 + (high - 0xD800) * 0x400 + (low - 0xDC00) := by omega
  simp only [readCode, readHex_digits first, notLow, highOne, Bool.false_eq_true, if_false, if_true,
    readPair, readHex_digits second, lowOne, pairedChar, value]

/-- A character that stands for itself is a unit, to the reader as well as to the skipper. -/
theorem stringUnit_plain {character : Char} (itself : StandsForItself character) :
    stringUnit (character :: rest) = .ok (some character, rest) ∧
      skippedUnit (character :: rest) = .ok (false, rest) := by
  obtain ⟨notQuote, notBackslash, notControl⟩ := itself
  constructor
  · unfold stringUnit
    split <;> simp_all
  · unfold skippedUnit
    split <;> simp_all

/-- **Units that give a character are read as that character.** -/
theorem stringUnit_spelled {unit : List Char} {character : Char}
    (spells : SpellsChar unit character) :
    stringUnit (unit ++ rest) = .ok (some character, rest) := by
  cases spells with
  | plain itself => exact (stringUnit_plain itself).1
  | letter known =>
      simp only [List.cons_append, List.nil_append, stringUnit, readEscape_letter known]
  | code isCode single =>
      simp only [List.cons_append, stringUnit, readEscape, readCode_single isCode single]
  | pair first isHigh second isLow =>
      simp only [List.cons_append, List.append_assoc, stringUnit, readEscape,
        readCode_pair first isHigh second isLow]

/-- A backslash and a letter are skipped. -/
theorem skipEscape_letter {letter meant : Char} (stands : escapedChar? letter = some meant)
    (notCode : letter ≠ 'u') : skipEscape (letter :: rest) = .ok rest := by
  unfold skipEscape
  split
  · rename_i nothing
    cases nothing
  · rename_i code
    exact absurd (List.cons.inj code).1 notCode
  · rename_i same
    cases same
    rw [stands]
    rfl

/-- An escape by code is skipped. -/
theorem skippedUnit_code {text after : List Char} {code : Nat}
    (hex : readHex text = .ok (code, after)) :
    skippedUnit ('\\' :: 'u' :: text) = .ok (false, after) := by
  simp only [skippedUnit, skipEscape, hex]
  rfl

/-- **Every unit is skipped.** -/
theorem skippedUnit_unit {unit : List Char} (isUnit : IsUnit unit) :
    skippedUnit (unit ++ rest) = .ok (false, rest) := by
  cases isUnit with
  | plain itself => exact (stringUnit_plain itself).2
  | letter known =>
      obtain ⟨notCode, stands⟩ := escapedChar?_of_mem known
      simp only [List.cons_append, List.nil_append, skippedUnit, skipEscape_letter stands notCode]
  | code isCode => exact skippedUnit_code (readHex_digits isCode)

theorem readString_of_some {text after final more : List Char} {character : Char}
    (unit : stringUnit text = .ok (some character, after))
    (further : readString after = .ok (more, final)) :
    readString text = .ok (character :: more, final) := by
  rw [readString]
  split <;> simp_all

theorem readString_of_none {text after : List Char}
    (unit : stringUnit text = .ok (none, after)) : readString text = .ok ([], after) := by
  rw [readString]
  split <;> simp_all

/-- **A string that gives a text is read as that text**, from behind its opening quote. -/
theorem readString_spelled {body characters : List Char} (spells : Spells body characters) :
    readString (body ++ '"' :: rest) = .ok (characters, rest) := by
  induction spells with
  | nil => exact readString_of_none rfl
  | cons first others ih =>
      rw [List.append_assoc]
      exact readString_of_some (stringUnit_spelled first) ih

theorem skipString_of_false {text after : List Char}
    (unit : skippedUnit text = .ok (false, after)) : skipString text = skipString after := by
  rw [skipString]
  split <;> simp_all

theorem skipString_of_true {text after : List Char}
    (unit : skippedUnit text = .ok (true, after)) : skipString text = .ok after := by
  rw [skipString]
  split <;> simp_all

/-- **Every string of the grammar is skipped**, from behind its opening quote. -/
theorem skipString_body {body : List Char} (isBody : IsStringBody body) :
    skipString (body ++ '"' :: rest) = .ok rest := by
  induction isBody with
  | nil => exact skipString_of_true rfl
  | cons first others ih =>
      rw [List.append_assoc, skipString_of_false (skippedUnit_unit first), ih]

/-! ### What is read can be skipped -/

/-- The closing quote is the closing quote to both. -/
theorem skippedUnit_of_none {text after : List Char}
    (unit : stringUnit text = .ok (none, after)) : skippedUnit text = .ok (true, after) := by
  unfold stringUnit at unit
  split at unit
  · cases unit
  · cases unit
    rfl
  · split at unit <;> cases unit
  · split at unit <;> cases unit

/-- The second half of a pair is an escape by code of its own. -/
theorem readPair_eq_ok {text after : List Char} {high : Nat} {character : Char}
    (pair : readPair high text = .ok (character, after)) :
    ∃ others low, text = '\\' :: 'u' :: others ∧ readHex others = .ok (low, after) := by
  unfold readPair at pair
  split at pair
  · rename_i others
    split at pair
    · cases pair
    · rename_i low final hex
      split at pair
      · exact ⟨others, low, rfl, (Prod.mk.inj (Except.ok.inj pair)).2 ▸ hex⟩
      · cases pair
  all_goals cases pair

/-- An escape by code is skipped as one unit, and a pair of surrogates as two. -/
theorem skipString_of_readCode {text after : List Char} {character : Char}
    (code : readCode text = .ok (character, after)) :
    skipString ('\\' :: 'u' :: text) = skipString after := by
  unfold readCode at code
  split at code
  · cases code
  · rename_i hex
    rw [skipString_of_false (skippedUnit_code hex)]
    split at code
    · cases code
    · split at code
      · obtain ⟨others, low, rfl, otherHex⟩ := readPair_eq_ok code
        exact skipString_of_false (skippedUnit_code otherHex)
      · rw [(Prod.mk.inj (Except.ok.inj code)).2]

theorem skipString_of_readEscape {text after : List Char} {character : Char}
    (escape : readEscape text = .ok (character, after)) :
    skipString ('\\' :: text) = skipString after := by
  unfold readEscape at escape
  split at escape
  · cases escape
  · exact skipString_of_readCode escape
  · rename_i letter others notCode
    split at escape
    · rename_i meant stands
      cases escape
      refine skipString_of_false ?_
      simp only [skippedUnit, skipEscape_letter stands notCode]
    · cases escape

theorem skipString_of_some {text after : List Char} {character : Char}
    (unit : stringUnit text = .ok (some character, after)) :
    skipString text = skipString after := by
  unfold stringUnit at unit
  split at unit
  · cases unit
  · cases unit
  · rename_i escape
    split at unit
    · rename_i meant after escaped
      cases unit
      exact skipString_of_readEscape escaped
    · cases unit
  · rename_i first others notQuote notBackslash
    split at unit
    · cases unit
    · rename_i notControl
      cases unit
      exact skipString_of_false (stringUnit_plain ⟨notQuote, notBackslash, by omega⟩).2

/-- **What is read as a string can be skipped as one**, and what comes next is the same. -/
theorem skipString_of_readString {text after characters : List Char}
    (read : readString text = .ok (characters, after)) : skipString text = .ok after := by
  fun_induction readString text generalizing characters after with
  | case1 text fault unit => cases read
  | case2 text after unit =>
      cases read
      exact skipString_of_true (skippedUnit_of_none unit)
  | case3 text character final unit fault further ih => cases read
  | case4 text character final unit more after further ih =>
      cases read
      rw [skipString_of_some unit]
      exact ih further

/-! ## Numbers -/

/-- What follows cannot go on with a number. -/
def EndsNumber (rest : List Char) : Prop :=
  ∀ next ∈ rest.head?, next.isDigit = false ∧ next ∉ ['.', 'e', 'E']

/-- What follows cannot go on with digits. -/
def EndsDigits (rest : List Char) : Prop := ∀ next ∈ rest.head?, next.isDigit = false

theorem endsDigits_cons {next : Char} (noDigit : next.isDigit = false) :
    EndsDigits (next :: rest) := fun _ same => Option.mem_some_iff.mp same ▸ noDigit

theorem EndsNumber.endsDigits (ends : EndsNumber rest) : EndsDigits rest :=
  fun next head => (ends next head).1

theorem IsDigits.exists_cons {digits : List Char} (isDigits : IsDigits digits) :
    ∃ first more, digits = first :: more ∧ first.isDigit = true := by
  obtain ⟨first, more, rfl⟩ := List.exists_cons_of_ne_nil isDigits.1
  exact ⟨first, more, rfl, isDigits.2 first List.mem_cons_self⟩

theorem isSpace_eq_false_of_isDigit {digit : Char} (isDigit : digit.isDigit = true) :
    isSpace digit = false := by
  rw [Bool.eq_false_iff]
  intro space
  simp only [isSpace, Bool.or_eq_true, decide_eq_true_eq] at space
  rcases space with ((rfl | rfl) | rfl) | rfl <;> cases isDigit

/-- Digits are read up to their end. -/
theorem readDigits_digits (missing : Fault) {digits : List Char} (isDigits : IsDigits digits)
    (ends : EndsDigits rest) : readDigits missing (digits ++ rest) = .ok (digits, rest) := by
  have nothingMore : rest.takeWhile Char.isDigit = [] ∧ rest.dropWhile Char.isDigit = rest := by
    cases rest with
    | nil => exact ⟨rfl, rfl⟩
    | cons next others =>
        have noDigit : ¬ next.isDigit = true := by simp [ends next rfl]
        exact ⟨List.takeWhile_cons_of_neg noDigit, List.dropWhile_cons_of_neg noDigit⟩
  have taken : (digits ++ rest).takeWhile Char.isDigit = digits := by
    rw [List.takeWhile_append_of_pos isDigits.2, nothingMore.1, List.append_nil]
  have dropped : (digits ++ rest).dropWhile Char.isDigit = rest := by
    rw [List.dropWhile_append_of_pos isDigits.2, nothingMore.2]
  obtain ⟨first, more, rfl, -⟩ := isDigits.exists_cons
  rw [readDigits, taken, dropped]

theorem IsWhole.isDigits {digits : List Char} (isWhole : IsWhole digits) : IsDigits digits := by
  rcases isWhole with rfl | ⟨isDigits, -⟩
  · exact ⟨List.cons_ne_nil _ _, List.forall_mem_singleton.mpr rfl⟩
  · exact isDigits

theorem readWhole_digits (missing : Fault) {digits : List Char} (isWhole : IsWhole digits)
    (ends : EndsDigits rest) : readWhole missing (digits ++ rest) = .ok (digits, rest) := by
  rw [readWhole, readDigits_digits missing isWhole.isDigits ends]
  split
  · rename_i second others after zeros
    have zero : digits = '0' :: second :: others := congrArg Prod.fst (Except.ok.inj zeros)
    rcases isWhole with rfl | ⟨-, noZero⟩
    · cases zero
    · rw [zero] at noZero
      exact absurd rfl noZero
  · rfl

theorem IsExponent.endsDigits {exponent : List Char} {parts : Option (Bool × List Char)}
    (isExponent : IsExponent exponent parts) (ends : EndsNumber rest) :
    EndsDigits (exponent ++ rest) := by
  cases isExponent with
  | none => exact ends.endsDigits
  | some isLetter => rcases isLetter with rfl | rfl <;> exact endsDigits_cons rfl

theorem readExponent_parts (missing : Fault) {exponent : List Char}
    {parts : Option (Bool × List Char)} (isExponent : IsExponent exponent parts)
    (ends : EndsNumber rest) : readExponent missing (exponent ++ rest) = .ok (parts, rest) := by
  cases isExponent with
  | none =>
      rw [List.nil_append]
      unfold readExponent
      split
      · exact absurd (ends 'e' rfl).2 (by decide)
      · exact absurd (ends 'E' rfl).2 (by decide)
      · rfl
  | @some letter sign digits isNegative isLetter isSign isDigits =>
      have digitsRead := readDigits_digits missing isDigits ends.endsDigits
      have signRead : spanSign (sign ++ (digits ++ rest)) = (isNegative, digits ++ rest) := by
        cases isSign with
        | plus | minus => rfl
        | none =>
            obtain ⟨first, more, rfl, isDigit⟩ := isDigits.exists_cons
            rw [List.nil_append, List.cons_append]
            unfold spanSign
            split
            · rename_i minus
              cases minus
              cases isDigit
            · rename_i plus
              cases plus
              cases isDigit
            · rfl
      rw [List.cons_append, List.append_assoc]
      rcases isLetter with rfl | rfl <;> simp only [readExponent, signRead, digitsRead]

theorem IsFraction.endsDigits {fraction exponent : List Char} {digits : Option (List Char)}
    {parts : Option (Bool × List Char)} (isFraction : IsFraction fraction digits)
    (isExponent : IsExponent exponent parts) (ends : EndsNumber rest) :
    EndsDigits (fraction ++ (exponent ++ rest)) := by
  cases isFraction with
  | none => exact isExponent.endsDigits ends
  | some _ => exact endsDigits_cons rfl

theorem readFraction_digits (missing : Fault) {fraction exponent : List Char}
    {digits : Option (List Char)} {parts : Option (Bool × List Char)}
    (isFraction : IsFraction fraction digits) (isExponent : IsExponent exponent parts)
    (ends : EndsNumber rest) :
    readFraction missing (fraction ++ (exponent ++ rest)) = .ok (digits, exponent ++ rest) := by
  cases isFraction with
  | some isDigits =>
      simp only [List.cons_append, readFraction,
        readDigits_digits missing isDigits (isExponent.endsDigits ends)]
  | none =>
      rw [List.nil_append]
      unfold readFraction
      split
      · rename_i point
        cases isExponent with
        | none =>
            rw [List.nil_append] at point
            rw [point] at ends
            exact absurd (ends '.' rfl).2 (by decide)
        | some isLetter =>
            have same := (List.cons.inj point).1
            rcases isLetter with rfl | rfl <;> cases same
      · rfl

/-- **A number is read with its parts**, up to what cannot go on with it. -/
theorem readNumber_spelled (missing : Fault) {text : List Char} {number : NumberText}
    (isNumber : IsNumber text number) (ends : EndsNumber rest) :
    readNumber missing (text ++ rest) = .ok (number, rest) := by
  obtain @⟨isNegative, whole, fraction, exponent, fractionDigits, exponentParts, isWhole,
    isFraction, isExponent⟩ := isNumber
  have magnitude (isNegative : Bool) :
      readMagnitude missing isNegative (whole ++ (fraction ++ (exponent ++ rest))) =
        .ok (⟨isNegative, whole, fractionDigits, exponentParts⟩, rest) := by
    simp only [readMagnitude,
      readWhole_digits missing isWhole (isFraction.endsDigits isExponent ends),
      readFraction_digits missing isFraction isExponent ends,
      readExponent_parts missing isExponent ends]
  simp only [List.append_assoc]
  cases isNegative with
  | true => exact magnitude true
  | false =>
      obtain ⟨first, more, rfl, isDigit⟩ := isWhole.isDigits.exists_cons
      simp only [Bool.false_eq_true, if_false, List.nil_append, List.cons_append] at magnitude ⊢
      unfold readNumber
      split
      · rename_i minus
        cases minus
        cases isDigit
      · exact magnitude false

/-- Digits alone are a number without a sign, a point or an exponent. -/
theorem IsWhole.isNumber {digits : List Char} (isWhole : IsWhole digits) :
    IsNumber digits ⟨false, digits, none, none⟩ := by
  have number := @IsNumber.mk false _ _ _ _ _ isWhole .none .none
  rwa [List.append_nil, List.append_nil] at number

end WasmWorkshop.Json
