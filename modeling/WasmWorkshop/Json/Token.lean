import WasmWorkshop.Bytes

/-!
# The tokens of JSON

A JSON text is read from left to right, and the first fault that is met is the fault of the text
(`Fault`): the text ends where more is needed, or it is not JSON, or it is JSON of another kind than
what is wanted. This module reads the tokens: words, strings and numbers.

Each reader takes what follows the first character of its token and returns the rest of the text,
which is shorter. A string is read unit by unit (`stringUnit`), where a unit is a character, an
escape, or the closing quote. Escapes of surrogates have to come in pairs; only where a string is
skipped and not read does nobody put the pairs together (`skippedUnit`).
-/

set_option autoImplicit false

namespace WasmWorkshop.Json

/-- The fault of a JSON text. -/
inductive Fault where
  /-- The text ends where more is needed. -/
  | truncated
  /-- The text is not JSON, or goes on where it should end. -/
  | malformed
  /-- The text is JSON of another kind than what is wanted. -/
  | mistyped
  deriving DecidableEq

/-- The outcome of reading: a value and the rest of the text, or a fault. -/
abbrev Parsed (α : Type) := Except Fault (α × List Char)

/-- Whether a character may stand between tokens. -/
def isSpace (character : Char) : Bool :=
  character = ' ' || character = '\n' || character = '\t' || character = '\r'

/-- The text from its next token on. -/
def skipSpace (text : List Char) : List Char := text.dropWhile isSpace

/-! ## Words -/

/-- Reads the rest of a word such as `null`. -/
def readWord : List Char → List Char → Except Fault (List Char)
  | [], text => .ok text
  | _ :: _, [] => .error .truncated
  | expected :: more, character :: rest =>
    if character = expected then readWord more rest else .error .malformed

/-! ## Strings -/

/-- The value of a hexadecimal digit of either case. -/
def hexValue? (character : Char) : Option Nat :=
  if '0' ≤ character ∧ character ≤ '9' then some (character.toNat - '0'.toNat)
  else if 'a' ≤ character ∧ character ≤ 'f' then some (character.toNat - 'a'.toNat + 10)
  else if 'A' ≤ character ∧ character ≤ 'F' then some (character.toNat - 'A'.toNat + 10)
  else none

/-- The number of bytes that characters take in UTF-8. -/
def encodedSize (text : List Char) : Nat :=
  text.foldr (fun character size => character.utf8Size + size) 0

/-- Reads four hexadecimal digits. Four bytes of text are enough to tell that they are not
there. -/
def readHex : List Char → Parsed Nat
  | a :: b :: c :: d :: rest =>
    match hexValue? a, hexValue? b, hexValue? c, hexValue? d with
    | some a, some b, some c, some d => .ok (((a * 16 + b) * 16 + c) * 16 + d, rest)
    | _, _, _, _ => .error .malformed
  | text => if encodedSize text < 4 then .error .truncated else .error .malformed

/-- Whether a number is the first half of a surrogate pair. -/
def isHighSurrogate (code : Nat) : Bool := 0xD800 ≤ code && code ≤ 0xDBFF

/-- Whether a number is the second half of a surrogate pair. -/
def isLowSurrogate (code : Nat) : Bool := 0xDC00 ≤ code && code ≤ 0xDFFF

/-- The character that a surrogate pair stands for. -/
def pairedChar (high low : Nat) : Char :=
  Char.ofNat ((high - 0xD800) * 1024 + (low - 0xDC00) + 0x10000)

/-- Reads the second half of a surrogate pair, with its own escape. -/
def readPair (high : Nat) : List Char → Parsed Char
  | '\\' :: 'u' :: rest =>
    match readHex rest with
    | .error fault => .error fault
    | .ok (low, rest) =>
      if isLowSurrogate low then .ok (pairedChar high low, rest) else .error .malformed
  | [] => .error .truncated
  | ['\\'] => .error .truncated
  | _ => .error .malformed

/-- Reads an escape by code, from its digits on. -/
def readCode (text : List Char) : Parsed Char :=
  match readHex text with
  | .error fault => .error fault
  | .ok (code, rest) =>
    if isLowSurrogate code then .error .malformed
    else if isHighSurrogate code then readPair code rest
    else .ok (Char.ofNat code, rest)

/-- The character that a letter after a backslash stands for. -/
def escapedChar? (character : Char) : Option Char :=
  match character with
  | '"' => some '"'
  | '\\' => some '\\'
  | '/' => some '/'
  | 'b' => some '\x08'
  | 'f' => some '\x0c'
  | 'n' => some '\n'
  | 'r' => some '\r'
  | 't' => some '\t'
  | _ => none

/-- Reads what follows a backslash. -/
def readEscape : List Char → Parsed Char
  | [] => .error .truncated
  | 'u' :: rest => readCode rest
  | character :: rest =>
    match escapedChar? character with
    | some meant => .ok (meant, rest)
    | none => .error .malformed

/-- Reads a unit of a string. There is no character for the closing quote. -/
def stringUnit : List Char → Parsed (Option Char)
  | [] => .error .truncated
  | '"' :: rest => .ok (none, rest)
  | '\\' :: rest =>
    match readEscape rest with
    | .ok (character, rest) => .ok (some character, rest)
    | .error fault => .error fault
  | character :: rest =>
    if character.toNat < 0x20 then .error .malformed else .ok (some character, rest)

/-- A reader that takes the first character leaves less than it was given. -/
theorem tail_shorter (first : Char) (rest : List Char) : rest.length < (first :: rest).length :=
  Nat.lt_succ_self _

/-- What is shorter than the rest of a text is shorter than the text. -/
theorem shorter_cons {text rest : List Char} (first : Char) (shorter : rest.length < text.length) :
    rest.length < (first :: text).length :=
  Nat.lt_succ_of_lt shorter

theorem readHex_shorter {text rest : List Char} {code : Nat}
    (read : readHex text = .ok (code, rest)) : rest.length < text.length := by
  unfold readHex at read
  split at read
  · split at read
    · cases read
      exact shorter_cons _ (shorter_cons _ (shorter_cons _ (tail_shorter _ rest)))
    · cases read
  · split at read <;> cases read

theorem readPair_shorter {text rest : List Char} {high : Nat} {character : Char}
    (read : readPair high text = .ok (character, rest)) : rest.length < text.length := by
  unfold readPair at read
  split at read
  · split at read
    · cases read
    · rename_i hex
      split at read
      · rw [← (Prod.mk.inj (Except.ok.inj read)).2]
        exact shorter_cons _ (shorter_cons _ (readHex_shorter hex))
      · cases read
  all_goals cases read

theorem readCode_shorter {text rest : List Char} {character : Char}
    (read : readCode text = .ok (character, rest)) : rest.length < text.length := by
  unfold readCode at read
  split at read
  · cases read
  · rename_i hex
    have shorter := readHex_shorter hex
    split at read
    · cases read
    · split at read
      · exact Nat.lt_trans (readPair_shorter read) shorter
      · rwa [← (Prod.mk.inj (Except.ok.inj read)).2]

theorem readEscape_shorter {text rest : List Char} {character : Char}
    (read : readEscape text = .ok (character, rest)) : rest.length < text.length := by
  unfold readEscape at read
  split at read
  · cases read
  · exact shorter_cons _ (readCode_shorter read)
  · split at read
    · cases read
      exact tail_shorter _ rest
    · cases read

/-- What follows a unit is shorter than the text. -/
theorem stringUnit_shorter {text rest : List Char} {character : Option Char}
    (read : stringUnit text = .ok (character, rest)) : rest.length < text.length := by
  unfold stringUnit at read
  split at read
  · cases read
  · cases read
    exact tail_shorter _ rest
  · split at read
    · rename_i escape
      cases read
      exact shorter_cons _ (readEscape_shorter escape)
    · cases read
  · split at read
    · cases read
    · cases read
      exact tail_shorter _ rest

/-- Reads a string, from behind its opening quote. -/
def readString (text : List Char) : Parsed (List Char) :=
  match _unit : stringUnit text with
  | .error fault => .error fault
  | .ok (none, rest) => .ok ([], rest)
  | .ok (some character, rest) =>
    match readString rest with
    | .error fault => .error fault
    | .ok (more, rest) => .ok (character :: more, rest)
  termination_by text.length
  decreasing_by exact stringUnit_shorter _unit

/-- Skips what follows a backslash in a string that nobody reads. -/
def skipEscape : List Char → Except Fault (List Char)
  | [] => .error .truncated
  | 'u' :: rest => (readHex rest).map (·.2)
  | character :: rest =>
    if (escapedChar? character).isSome then .ok rest else .error .malformed

/-- Skips a unit of a string that nobody reads. The answer says whether it was the closing
quote. -/
def skippedUnit : List Char → Parsed Bool
  | [] => .error .truncated
  | '"' :: rest => .ok (true, rest)
  | '\\' :: rest =>
    match skipEscape rest with
    | .ok rest => .ok (false, rest)
    | .error fault => .error fault
  | character :: rest =>
    if character.toNat < 0x20 then .error .malformed else .ok (false, rest)

theorem skipEscape_shorter {text rest : List Char} (skip : skipEscape text = .ok rest) :
    rest.length < text.length := by
  unfold skipEscape at skip
  split at skip
  · cases skip
  · rename_i digits
    cases hex : readHex digits with
    | error fault =>
        rw [hex] at skip
        cases skip
    | ok pair =>
        rw [hex] at skip
        cases skip
        exact shorter_cons _ (readHex_shorter hex)
  · split at skip
    · cases skip
      exact tail_shorter _ rest
    · cases skip

theorem skippedUnit_shorter {text rest : List Char} {closes : Bool}
    (skip : skippedUnit text = .ok (closes, rest)) : rest.length < text.length := by
  unfold skippedUnit at skip
  split at skip
  · cases skip
  · cases skip
    exact tail_shorter _ rest
  · split at skip
    · rename_i escape
      cases skip
      exact shorter_cons _ (skipEscape_shorter escape)
    · cases skip
  · split at skip
    · cases skip
    · cases skip
      exact tail_shorter _ rest

/-- Skips a string, from behind its opening quote. -/
def skipString (text : List Char) : Except Fault (List Char) :=
  match _unit : skippedUnit text with
  | .error fault => .error fault
  | .ok (true, rest) => .ok rest
  | .ok (false, rest) => skipString rest
  termination_by text.length
  decreasing_by exact skippedUnit_shorter _unit

/-- What follows a skipped string is shorter than the text. -/
theorem skipString_shorter {text rest : List Char} (skip : skipString text = .ok rest) :
    rest.length < text.length := by
  fun_induction skipString text with
  | case1 text fault unit => cases skip
  | case2 text final unit =>
      cases skip
      exact skippedUnit_shorter unit
  | case3 text final unit ih => exact Nat.lt_trans (ih skip) (skippedUnit_shorter unit)

/-! ## Numbers -/

/-- A number as it is written. -/
structure NumberText where
  isNegative : Bool
  /-- The digits before the point. -/
  whole : List Char
  /-- The digits after the point, if there is one. -/
  fraction : Option (List Char) := none
  /-- The sign and the digits of the exponent, if there is one. -/
  exponent : Option (Bool × List Char) := none
  deriving DecidableEq

/-- The value of a sequence of decimal digits. -/
def decimalValue (digits : List Char) : Nat :=
  digits.foldl (fun value digit => 10 * value + (digit.toNat - '0'.toNat)) 0

/-- Reads digits, of which there must be one. `missing` is the fault if the text ends instead. -/
def readDigits (missing : Fault) (text : List Char) : Parsed (List Char) :=
  match text.takeWhile Char.isDigit with
  | [] => .error (if text.isEmpty then missing else .malformed)
  | digits => .ok (digits, text.dropWhile Char.isDigit)

/-- Reads the digits before the point. A zero stands alone. -/
def readWhole (missing : Fault) (text : List Char) : Parsed (List Char) :=
  match readDigits missing text with
  | .ok ('0' :: _ :: _, _) => .error .malformed
  | other => other

/-- Reads the point and the digits after it, if the point is there. -/
def readFraction (missing : Fault) : List Char → Parsed (Option (List Char))
  | '.' :: rest =>
    match readDigits missing rest with
    | .ok (digits, rest) => .ok (some digits, rest)
    | .error fault => .error fault
  | text => .ok (none, text)

/-- The sign that digits of an exponent may have, and the rest. -/
def spanSign : List Char → Bool × List Char
  | '-' :: rest => (true, rest)
  | '+' :: rest => (false, rest)
  | text => (false, text)

/-- Reads the exponent, if it is there. -/
def readExponent (missing : Fault) : List Char → Parsed (Option (Bool × List Char))
  | 'e' :: rest | 'E' :: rest =>
    match readDigits missing (spanSign rest).2 with
    | .ok (digits, final) => .ok (some ((spanSign rest).1, digits), final)
    | .error fault => .error fault
  | text => .ok (none, text)

/-- Reads a number without its sign. -/
def readMagnitude (missing : Fault) (isNegative : Bool) (text : List Char) :
    Parsed NumberText :=
  match readWhole missing text with
  | .error fault => .error fault
  | .ok (whole, rest) =>
    match readFraction missing rest with
    | .error fault => .error fault
    | .ok (fraction, rest) =>
      match readExponent missing rest with
      | .error fault => .error fault
      | .ok (exponent, rest) => .ok (⟨isNegative, whole, fraction, exponent⟩, rest)

/-- Reads a number. `missing` is the fault if the text ends where a digit is needed. -/
def readNumber (missing : Fault) : List Char → Parsed NumberText
  | '-' :: rest => readMagnitude missing true rest
  | text => readMagnitude missing false text

theorem readDigits_shorter {missing : Fault} {text digits rest : List Char}
    (read : readDigits missing text = .ok (digits, rest)) : rest.length < text.length := by
  have lengths : (text.takeWhile Char.isDigit ++ text.dropWhile Char.isDigit).length =
      text.length := congrArg List.length List.takeWhile_append_dropWhile
  rw [List.length_append] at lengths
  unfold readDigits at read
  split at read
  · cases read
  · rename_i nonempty
    cases read
    have := List.length_pos_iff.mpr nonempty
    omega

theorem readWhole_shorter {missing : Fault} {text digits rest : List Char}
    (read : readWhole missing text = .ok (digits, rest)) : rest.length < text.length := by
  unfold readWhole at read
  split at read
  · cases read
  · exact readDigits_shorter read

theorem readFraction_length {missing : Fault} {text rest : List Char}
    {fraction : Option (List Char)} (read : readFraction missing text = .ok (fraction, rest)) :
    rest.length ≤ text.length := by
  unfold readFraction at read
  split at read
  · split at read
    · rename_i digits
      cases read
      exact Nat.le_of_lt (shorter_cons _ (readDigits_shorter digits))
    · cases read
  · cases read
    exact Nat.le_refl _

theorem spanSign_length (text : List Char) : (spanSign text).2.length ≤ text.length := by
  unfold spanSign
  split <;> simp

theorem readExponent_length {missing : Fault} {text rest : List Char}
    {exponent : Option (Bool × List Char)}
    (read : readExponent missing text = .ok (exponent, rest)) : rest.length ≤ text.length := by
  unfold readExponent at read
  split at read
  any_goals
    rename_i after
    split at read
    · rename_i digits
      cases read
      have signed := Nat.lt_of_lt_of_le (readDigits_shorter digits) (spanSign_length after)
      exact Nat.le_of_lt (shorter_cons _ signed)
    · cases read
  cases read
  exact Nat.le_refl _

theorem readMagnitude_shorter {missing : Fault} {isNegative : Bool} {text rest : List Char}
    {number : NumberText} (read : readMagnitude missing isNegative text = .ok (number, rest)) :
    rest.length < text.length := by
  unfold readMagnitude at read
  split at read
  · cases read
  · rename_i whole
    split at read
    · cases read
    · rename_i fraction
      split at read
      · cases read
      · rename_i exponent
        cases read
        calc rest.length
          _ ≤ _ := readExponent_length exponent
          _ ≤ _ := readFraction_length fraction
          _ < text.length := readWhole_shorter whole

/-- What follows a number is shorter than the text. -/
theorem readNumber_shorter {missing : Fault} {text rest : List Char} {number : NumberText}
    (read : readNumber missing text = .ok (number, rest)) : rest.length < text.length := by
  unfold readNumber at read
  split at read
  · exact shorter_cons _ (readMagnitude_shorter read)
  · exact readMagnitude_shorter read

/-- The place of the highest digit: the number is below ten to that power. -/
def NumberText.magnitudePlaces (number : NumberText) : Int :=
  let significand := number.whole ++ number.fraction.getD []
  let shift : Int :=
    match number.exponent with
    | none => 0
    | some (true, digits) => -decimalValue digits
    | some (false, digits) => decimalValue digits
  (toString (decimalValue significand)).length + shift - (number.fraction.getD []).length

/-- The least number that is past the greatest double-precision float by half a step. -/
def doubleLimit : Nat := Nat.pow 2 1024 - Nat.pow 2 970

/-- Whether the magnitude of a number is past every double-precision float. The greatest of them has
309 places, so only the numbers with that many places need a close look. -/
def NumberText.isTooLarge (number : NumberText) : Bool :=
  let significand := decimalValue (number.whole ++ number.fraction.getD [])
  if significand = 0 then false
  else if number.magnitudePlaces < 309 then false
  else if 309 < number.magnitudePlaces then true
  else
    let digits := (toString significand).length
    doubleLimit * Nat.pow 10 (digits - 309) ≤ significand * Nat.pow 10 (309 - digits)

/-- One more than the greatest number of 64 bits. -/
def longRange : Nat := 0x10000000000000000

/-- The natural number that is written, if the number has no sign, point or exponent and fits in 64
bits. -/
def NumberText.natural? (number : NumberText) : Option Nat :=
  if number.isNegative || number.fraction.isSome || number.exponent.isSome then none
  else if decimalValue number.whole < longRange then some (decimalValue number.whole)
  else none

end WasmWorkshop.Json
