import WasmWorkshop.ModuleField
import WasmWorkshop.Proofs.EscapedBytes

/-!
# String literals of the text format

A string literal stands between quotes. Most characters in it stand for themselves, which means for
their UTF-8 encoding; quotes, backslashes and control characters do not. A backslash begins an
escape: two hexadecimal digits for one byte, a letter for a common character, or a code point. The
grammar is given as a relation between the body of a literal and the bytes that it denotes
(`Denotes`). A body denotes one sequence of bytes at most (`Denotes.unique`).

Names are put between quotes as they are. A character that stands for itself denotes as many bytes
as it is encoded in, and an escape denotes fewer bytes than it is spelled with, so the token denotes
the bytes of the name exactly if all characters of the name stand for themselves
(`quoted_denotes_iff`). This decides it for the tokens of imports and exports
(`name_tokens_tell`): a quote in a name ends the literal, and a backslash makes it the literal
of another name (`name_tokens_misread`).
-/

set_option autoImplicit false

namespace WasmWorkshop

/-! ## The grammar -/

/-- Whether a character stands for itself in a string literal. -/
def standsForItself (character : Char) : Bool :=
  0x20 ≤ character.toNat && character.toNat ≠ 0x7F && character ≠ '"' && character ≠ '\\'

/-- The byte that a letter behind a backslash stands for. -/
def escapedLetter? : Char → Option UInt8
  | 't' => some 0x09
  | 'n' => some 0x0A
  | 'r' => some 0x0D
  | '"' => some 0x22
  | '\'' => some 0x27
  | '\\' => some 0x5C
  | _ => none

/-- The number that hexadecimal digits go on to after `value`. An underscore may stand before each
of the digits. -/
def hexNumberFrom? (value : Nat) : List Char → Option Nat
  | [] => some value
  | '_' :: digit :: rest => do hexNumberFrom? (16 * value + (← Json.hexValue? digit)) rest
  | digit :: rest => do hexNumberFrom? (16 * value + (← Json.hexValue? digit)) rest

/-- The number that hexadecimal digits stand for, if there are any. -/
def hexNumber? : List Char → Option Nat
  | [] => none
  | digit :: rest => do hexNumberFrom? (← Json.hexValue? digit) rest

/-- What stands behind a backslash, and the bytes that are denoted. -/
inductive Escape : List Char → List UInt8 → Prop where
  | byte {high low : Char} {first second : Nat} (isHigh : Json.hexValue? high = some first)
      (isLow : Json.hexValue? low = some second) :
      Escape [high, low] [UInt8.ofNat (16 * first + second)]
  | letter {character : Char} {byte : UInt8} (isLetter : escapedLetter? character = some byte) :
      Escape [character] [byte]
  | codePoint {digits : List Char} {number : Nat} (isNumber : hexNumber? digits = some number)
      (valid : number.isValidChar) :
      Escape ('u' :: '\x7b' :: (digits ++ ['\x7d'])) (String.utf8EncodeChar (Char.ofNat number))

/-- What the body of a string literal denotes. -/
inductive Denotes : List Char → List UInt8 → Prop where
  | nil : Denotes [] []
  | verbatim {character : Char} {rest : List Char} {bytes : List UInt8}
      (itself : standsForItself character = true) (more : Denotes rest bytes) :
      Denotes (character :: rest) (String.utf8EncodeChar character ++ bytes)
  | escape {spelling rest : List Char} {these bytes : List UInt8} (escape : Escape spelling these)
      (more : Denotes rest bytes) : Denotes ('\\' :: (spelling ++ rest)) (these ++ bytes)

/-- A token is a string literal for the given bytes. -/
def IsStringLiteral (token : String) (bytes : List UInt8) : Prop :=
  ∃ body, token.toList = '"' :: (body ++ ['"']) ∧ Denotes body bytes

/-! ## Escapes -/

/-- A digit is neither an underscore nor what closes a code point. -/
theorem ne_of_hexValue? {digit other : Char} {value : Nat}
    (isDigit : Json.hexValue? digit = some value) (noDigit : Json.hexValue? other = none) :
    other ≠ digit := by
  rintro rfl
  cases noDigit.symm.trans isDigit

theorem brace_notMem_of_hexNumberFrom? {digits : List Char} {value number : Nat}
    (isNumber : hexNumberFrom? value digits = some number) : '\x7d' ∉ digits := by
  induction value, digits using hexNumberFrom?.induct with
  | case1 value => exact List.not_mem_nil
  | case2 value digit rest ih =>
      obtain ⟨next, isDigit, further⟩ := Option.bind_eq_some_iff.mp isNumber
      simp only [List.mem_cons, not_or]
      exact ⟨by decide, ne_of_hexValue? isDigit rfl, ih next further⟩
  | case3 value digit rest notSeparated ih =>
      rw [hexNumberFrom?] at isNumber
      · obtain ⟨next, isDigit, further⟩ := Option.bind_eq_some_iff.mp isNumber
        simp only [List.mem_cons, not_or]
        exact ⟨ne_of_hexValue? isDigit rfl, ih next further⟩
      · exact notSeparated

theorem brace_notMem_of_hexNumber? {digits : List Char} {number : Nat}
    (isNumber : hexNumber? digits = some number) : '\x7d' ∉ digits := by
  cases digits with
  | nil => exact List.not_mem_nil
  | cons digit rest =>
      obtain ⟨next, isDigit, further⟩ := Option.bind_eq_some_iff.mp isNumber
      simp only [List.mem_cons, not_or]
      exact ⟨ne_of_hexValue? isDigit rfl, brace_notMem_of_hexNumberFrom? further⟩

/-- What stands before the first occurrence of a character is determined. -/
theorem eq_of_append_cons {mark : Char} {before after other rest : List Char}
    (notBefore : mark ∉ before) (notOther : mark ∉ other)
    (same : before ++ mark :: after = other ++ mark :: rest) : before = other ∧ after = rest := by
  have upTo {text : List Char} (absent : mark ∉ text) (more : List Char) :
      (text ++ mark :: more).takeWhile (· ≠ mark) = text := by
    have others : ∀ character ∈ text, decide (character ≠ mark) = true := by
      intro character member
      refine decide_eq_true ?_
      rintro rfl
      exact absent member
    rw [List.takeWhile_append_of_pos others, List.takeWhile_cons_of_neg (by simp), List.append_nil]
  have equal : before = other := by
    rw [← upTo notBefore after, same, upTo notOther]
  rw [equal] at same
  exact ⟨equal, (List.cons.inj (List.append_cancel_left same)).2⟩

theorem hexValue?_of_escapedLetter? {character : Char} {byte : UInt8}
    (isLetter : escapedLetter? character = some byte) : Json.hexValue? character = none := by
  unfold escapedLetter? at isLetter
  split at isLetter
  case h_7 => cases isLetter
  all_goals rfl

namespace Escape

variable {spelling other rest more : List Char} {these those : List UInt8}

/-- **An escape ends where it ends**, whatever follows it. -/
theorem unique (first : Escape spelling these) (second : Escape other those)
    (same : spelling ++ rest = other ++ more) : these = those ∧ rest = more := by
  cases first with
  | byte isHigh isLow =>
      cases second with
      | byte isHigh' isLow' =>
          cases same
          cases isHigh.symm.trans isHigh'
          cases isLow.symm.trans isLow'
          exact ⟨rfl, rfl⟩
      | letter isLetter =>
          cases same
          cases isHigh.symm.trans (hexValue?_of_escapedLetter? isLetter)
      | codePoint =>
          cases same
          cases isHigh
  | letter isLetter =>
      cases second with
      | byte isHigh =>
          cases same
          cases isHigh.symm.trans (hexValue?_of_escapedLetter? isLetter)
      | letter isLetter' =>
          cases same
          cases isLetter.symm.trans isLetter'
          exact ⟨rfl, rfl⟩
      | codePoint =>
          cases same
          cases isLetter
  | codePoint isNumber =>
      cases second with
      | byte isHigh =>
          cases same
          cases isHigh
      | letter isLetter =>
          cases same
          cases isLetter
      | codePoint isNumber' =>
          simp only [List.cons_append, List.cons.injEq, true_and, List.append_assoc,
            List.nil_append] at same
          obtain ⟨rfl, further⟩ := eq_of_append_cons (brace_notMem_of_hexNumber? isNumber)
            (brace_notMem_of_hexNumber? isNumber') same
          cases isNumber.symm.trans isNumber'
          exact ⟨rfl, further⟩

/-- An escape denotes at most as many bytes as there are characters behind its backslash. -/
theorem length_le (escape : Escape spelling these) : these.length ≤ spelling.length := by
  cases escape with
  | byte => exact Nat.le_succ 1
  | letter => exact Nat.le_refl 1
  | @codePoint digits number isNumber valid =>
      have some : digits ≠ [] := by
        rintro rfl
        cases isNumber
      have positive := List.length_pos_iff.mpr some
      have short := Char.utf8Size_le_four (Char.ofNat number)
      rw [String.length_utf8EncodeChar]
      simp only [List.length_cons, List.length_append, List.length_nil]
      omega

end Escape

/-! ## Bodies -/

/-- A character is encoded in one byte at least. -/
theorem length_le_encoded (text : List Char) :
    text.length ≤ (text.flatMap String.utf8EncodeChar).length := by
  induction text with
  | nil => exact Nat.le_refl 0
  | cons character rest ih =>
      have positive := Char.utf8Size_pos character
      rw [List.flatMap_cons, List.length_append, String.length_utf8EncodeChar, List.length_cons]
      omega

namespace Denotes

variable {body : List Char} {bytes other : List UInt8}

/-- **A body denotes one sequence of bytes at most.** -/
theorem unique (first : Denotes body bytes) (second : Denotes body other) : bytes = other := by
  induction first generalizing other with
  | nil =>
      cases second
      rfl
  | @verbatim character rest bytes itself more ih =>
      cases second with
      | verbatim itself' more' => rw [ih more']
      | escape escape more' => cases itself
  | @escape spelling rest these bytes escape more ih =>
      generalize whole : '\\' :: (spelling ++ rest) = text at second
      cases second with
      | nil => cases whole
      | verbatim itself more' =>
          cases whole
          cases itself
      | escape escape' more' =>
          obtain ⟨rfl, rfl⟩ := escape.unique escape' (List.cons.inj whole).2
          rw [ih more']

/-- Characters that stand for themselves denote their encoding. -/
theorem of_verbatim (itself : ∀ character ∈ body, standsForItself character = true) :
    Denotes body (body.flatMap String.utf8EncodeChar) := by
  induction body with
  | nil => exact .nil
  | cons character rest ih =>
      obtain ⟨here, further⟩ := List.forall_mem_cons.mp itself
      rw [List.flatMap_cons]
      exact .verbatim here (ih further)

/-- **A body denotes at most as many bytes as it is encoded in**, and as many only if every
character stands for itself: an escape is spelled with more bytes than it denotes. -/
theorem length_le (denotes : Denotes body bytes) :
    bytes.length ≤ (body.flatMap String.utf8EncodeChar).length ∧
      (bytes.length = (body.flatMap String.utf8EncodeChar).length →
        ∀ character ∈ body, standsForItself character = true) := by
  induction denotes with
  | nil => exact ⟨Nat.le_refl 0, fun _ => List.forall_mem_nil _⟩
  | @verbatim character rest bytes itself more ih =>
      obtain ⟨shorter, onlyIf⟩ := ih
      rw [List.flatMap_cons, List.length_append, List.length_append]
      refine ⟨Nat.add_le_add_left shorter _, fun same => ?_⟩
      exact List.forall_mem_cons.mpr ⟨itself, onlyIf (Nat.add_left_cancel same)⟩
  | @escape spelling rest these bytes escape more ih =>
      obtain ⟨shorter, -⟩ := ih
      have fewer := escape.length_le
      have spelled := length_le_encoded spelling
      have backslash : (String.utf8EncodeChar '\\').length = 1 := rfl
      rw [List.flatMap_cons, List.flatMap_append]
      simp only [List.length_append]
      omega

/-- Without a backslash there are no escapes. -/
theorem verbatim_of_noBackslash (denotes : Denotes body bytes) (noBackslash : '\\' ∉ body) :
    ∀ character ∈ body, standsForItself character = true := by
  induction denotes with
  | nil => exact List.forall_mem_nil _
  | verbatim itself more ih =>
      rw [List.mem_cons, not_or] at noBackslash
      exact List.forall_mem_cons.mpr ⟨itself, ih noBackslash.2⟩
  | escape => exact absurd List.mem_cons_self noBackslash

end Denotes

/-- What was escaped denotes the bytes that were escaped. -/
theorem denotes_escapeBytes (bytes : List UInt8) : Denotes (escapeBytes bytes).toList bytes := by
  rw [escapeBytes, String.toList_ofList]
  induction bytes with
  | nil => exact .nil
  | cons byte rest ih =>
      have below := byte.toNat_lt
      have escape := Escape.byte (hexValue?_hexDigit (show byte.toNat / 16 < 16 by omega))
        (hexValue?_hexDigit (show byte.toNat % 16 < 16 by omega))
      rw [Nat.div_add_mod, UInt8.ofNat_toNat] at escape
      exact .escape escape ih

/-! ## Texts between quotes -/

/-- All characters of a text stand for themselves. -/
def IsVerbatim (text : String) : Prop :=
  ∀ character ∈ text.toList, standsForItself character = true

instance (text : String) : Decidable (IsVerbatim text) := List.decidableBAll _ text.toList

theorem isStringLiteral_quoted_iff (text : String) (bytes : List UInt8) :
    IsStringLiteral (quoted text) bytes ↔ Denotes text.toList bytes := by
  have characters : (quoted text).toList = '"' :: (text.toList ++ ['"']) := by
    rw [quoted, String.toList_append, String.toList_append]
    rfl
  rw [IsStringLiteral, characters]
  constructor
  · rintro ⟨body, same, denotes⟩
    rwa [List.append_cancel_right (List.cons.inj same).2]
  · intro denotes
    exact ⟨text.toList, rfl, denotes⟩

/-- **A text between quotes is the literal of its bytes exactly if all of its characters stand for
themselves.** -/
theorem quoted_denotes_iff (text : String) :
    IsStringLiteral (quoted text) (utf8Bytes text) ↔ IsVerbatim text := by
  rw [isStringLiteral_quoted_iff, utf8Bytes_eq_flatMap]
  exact ⟨fun denotes => denotes.length_le.2 rfl, .of_verbatim⟩

/-- How a token stands to the text that it is made of. -/
structure TokenTells (token text : String) : Prop where
  /-- It is the literal of the bytes of the text, and of no others. -/
  verbatim : IsVerbatim text → ∀ bytes, IsStringLiteral token bytes ↔ bytes = utf8Bytes text
  /-- It is not the literal of the bytes of the text. -/
  otherwise : ¬ IsVerbatim text → ¬ IsStringLiteral token (utf8Bytes text)
  /-- It is no literal at all. -/
  malformed : ¬ IsVerbatim text → '\\' ∉ text.toList → ∀ bytes, ¬ IsStringLiteral token bytes

theorem tokenTells_quoted (text : String) : TokenTells (quoted text) text where
  verbatim := by
    intro isVerbatim bytes
    have denotes := (quoted_denotes_iff text).mpr isVerbatim
    constructor
    · intro other
      rw [isStringLiteral_quoted_iff] at denotes other
      exact other.unique denotes
    · rintro rfl
      exact denotes
  otherwise := by
    intro notVerbatim denotes
    exact notVerbatim ((quoted_denotes_iff text).mp denotes)
  malformed := by
    intro notVerbatim noBackslash bytes denotes
    rw [isStringLiteral_quoted_iff] at denotes
    exact notVerbatim (denotes.verbatim_of_noBackslash noBackslash)

/-! ## Names in imports and exports -/

/-- **What the tokens of names denote.** Both names of an import, and the name of an exported
function, stand in a token of the header. The token is the string literal of the name exactly if
all characters of the name stand for themselves. -/
theorem name_tokens_tell (library field name : String) (params : List ValueType)
    (prototype : Prototype) (body : List Node) :
    (∃ first second type,
      (Node.importFunction library field name params).header? =
        some ["import", first, second, type] ∧
      TokenTells first library ∧ TokenTells second field) ∧
    ∃ definition exported token entity,
      (Node.function prototype body).children =
        definition :: (if prototype.exported then [exported] else []) ∧
      exported.header? = some ["export", token, entity] ∧ TokenTells token prototype.name :=
  ⟨⟨_, _, _, rfl, tokenTells_quoted library, tokenTells_quoted field⟩,
    _, Node.functionExport prototype.name, _, _, rfl, rfl, tokenTells_quoted prototype.name⟩

/-- **Names are misread.** With a quote in it, the name of the library makes no literal at all. With
a backslash in it, the name of the field makes the literal of another name. -/
theorem name_tokens_misread :
    ∃ first second type,
      (Node.importFunction "a\"b" "\\41" "x" []).header? = some ["import", first, second, type] ∧
      (∀ bytes, ¬ IsStringLiteral first bytes) ∧
      IsStringLiteral second (utf8Bytes "A") ∧ ¬ IsStringLiteral second (utf8Bytes "\\41") := by
  have quote : ¬ IsVerbatim "a\"b" := by decide
  have backslash : ¬ IsVerbatim "\\41" := by decide
  refine ⟨_, _, _, rfl, ?_, ?_, ?_⟩
  · exact (tokenTells_quoted "a\"b").malformed quote (by decide)
  · rw [isStringLiteral_quoted_iff]
    exact denotes_escapeBytes [0x41]
  · exact (tokenTells_quoted "\\41").otherwise backslash

end WasmWorkshop
