import WasmWorkshop.Json.Token

/-!
# Skipping a JSON value

A value that nobody reads must still be JSON, however deep it is nested. Skipping keeps a stack of
the brackets that are open and what may come next (`Expectation`), and takes one token after
another, so nesting costs no more than a longer stack.
-/

set_option autoImplicit false

namespace WasmWorkshop.Json

/-- An open bracket. -/
inductive Bracket where
  | array
  | object
  deriving DecidableEq

/-- The character that closes a bracket. -/
def Bracket.closing : Bracket → Char
  | .array => ']'
  | .object => '\x7d'

/-- What may come next. -/
inductive Expectation where
  /-- A value. -/
  | value
  /-- A value, or the end of an array that has just begun. -/
  | element
  /-- A key. -/
  | key
  /-- A key, or the end of an object that has just begun. -/
  | member
  /-- The colon after a key. -/
  | colon
  /-- A comma or a closing bracket. -/
  | separator
  deriving DecidableEq

/-- What comes after a bracket is opened. -/
def Bracket.opened : Bracket → Expectation
  | .array => .element
  | .object => .member

/-- What comes after a comma inside a bracket. -/
def Bracket.next : Bracket → Expectation
  | .array => .value
  | .object => .key

/-- What a token leaves to do: the brackets that are open, what may come next, and the rest of the
text. -/
structure Pending where
  brackets : List Bracket
  expectation : Expectation
  text : List Char

/-- A scalar is skipped: what remains is to separate it from the next one. -/
def afterScalar (brackets : List Bracket) (rest : Except Fault (List Char)) :
    Except Fault Pending :=
  match rest with
  | .ok text => .ok ⟨brackets, .separator, text⟩
  | .error fault => .error fault

/-- Takes the first token of a value. -/
def skipValueToken (brackets : List Bracket) : List Char → Except Fault Pending
  | [] => .error .truncated
  | 'n' :: rest => afterScalar brackets (readWord ['u', 'l', 'l'] rest)
  | 't' :: rest => afterScalar brackets (readWord ['r', 'u', 'e'] rest)
  | 'f' :: rest => afterScalar brackets (readWord ['a', 'l', 's', 'e'] rest)
  | '"' :: rest => afterScalar brackets (skipString rest)
  | '[' :: rest => .ok ⟨.array :: brackets, .element, rest⟩
  | '\x7b' :: rest => .ok ⟨.object :: brackets, .member, rest⟩
  | character :: rest =>
    if character = '-' || character.isDigit then
      match readNumber .malformed (character :: rest) with
      | .ok (_, text) => .ok ⟨brackets, .separator, text⟩
      | .error fault => .error fault
    else .error .malformed

/-- Takes a comma or a closing bracket. -/
def skipSeparator (brackets : List Bracket) (character : Char) (rest : List Char) :
    Except Fault Pending :=
  match brackets with
  | [] => .error .malformed
  | bracket :: outer =>
    if character = ',' then .ok ⟨bracket :: outer, bracket.next, rest⟩
    else if character = bracket.closing then .ok ⟨outer, .separator, rest⟩
    else .error .malformed

/-- Takes the next token, where `text` has no space in front. -/
def skipToken (brackets : List Bracket) (expectation : Expectation) (text : List Char) :
    Except Fault Pending :=
  match expectation, text with
  | _, [] => .error .truncated
  | .value, text => skipValueToken brackets text
  | .element, ']' :: rest => .ok ⟨brackets.tail, .separator, rest⟩
  | .element, text => skipValueToken brackets text
  | .member, '\x7d' :: rest => .ok ⟨brackets.tail, .separator, rest⟩
  | .member, '"' :: rest | .key, '"' :: rest =>
    match skipString rest with
    | .ok text => .ok ⟨brackets, .colon, text⟩
    | .error fault => .error fault
  | .member, _ | .key, _ => .error .malformed
  | .colon, ':' :: rest => .ok ⟨brackets, .value, rest⟩
  | .colon, _ => .error .malformed
  | .separator, character :: rest => skipSeparator brackets character rest

theorem readWord_length {word text rest : List Char} (read : readWord word text = .ok rest) :
    rest.length ≤ text.length := by
  induction word generalizing text with
  | nil =>
      cases read
      exact Nat.le_refl _
  | cons expected more ih =>
      cases text with
      | nil => cases read
      | cons character text =>
          simp only [readWord] at read
          split at read
          · exact Nat.le_succ_of_le (ih read)
          · cases read

theorem afterScalar_text {brackets : List Bracket} {rest : Except Fault (List Char)}
    {pending : Pending} (skip : afterScalar brackets rest = .ok pending) :
    rest = .ok pending.text := by
  unfold afterScalar at skip
  split at skip
  · cases skip
    rfl
  · cases skip

theorem skipValueToken_shorter {brackets : List Bracket} {text : List Char} {pending : Pending}
    (skip : skipValueToken brackets text = .ok pending) :
    pending.text.length < text.length := by
  unfold skipValueToken at skip
  split at skip
  · cases skip
  any_goals exact Nat.lt_succ_of_le (readWord_length (afterScalar_text skip))
  · exact shorter_cons _ (skipString_shorter (afterScalar_text skip))
  · cases skip
    exact tail_shorter _ _
  · cases skip
    exact tail_shorter _ _
  · split at skip
    · split at skip
      · rename_i number
        cases skip
        exact readNumber_shorter number
      · cases skip
    · cases skip

theorem skipSeparator_text {brackets : List Bracket} {character : Char} {rest : List Char}
    {pending : Pending} (skip : skipSeparator brackets character rest = .ok pending) :
    pending.text = rest := by
  unfold skipSeparator at skip
  cases brackets with
  | nil => cases skip
  | cons bracket outer =>
      simp only at skip
      split at skip
      · cases skip
        rfl
      · split at skip
        · cases skip
          rfl
        · cases skip

/-- What follows a token is shorter than the text. -/
theorem skipToken_shorter {brackets : List Bracket} {expectation : Expectation}
    {text : List Char} {pending : Pending}
    (skip : skipToken brackets expectation text = .ok pending) :
    pending.text.length < text.length := by
  unfold skipToken at skip
  split at skip
  · cases skip
  · exact skipValueToken_shorter skip
  · cases skip
    exact tail_shorter _ _
  · exact skipValueToken_shorter skip
  · cases skip
    exact tail_shorter _ _
  any_goals
    split at skip
    · rename_i string
      cases skip
      exact shorter_cons _ (skipString_shorter string)
    · cases skip
  · cases skip
  · cases skip
  · cases skip
    exact tail_shorter _ _
  · cases skip
  · rw [skipSeparator_text skip]
    exact tail_shorter _ _

theorem skipSpace_length (text : List Char) : (skipSpace text).length ≤ text.length :=
  (List.dropWhile_suffix isSpace).length_le

/-- Skips tokens until no bracket is open. -/
def skipTokens (brackets : List Bracket) (expectation : Expectation) (text : List Char) :
    Except Fault (List Char) :=
  match _token : skipToken brackets expectation (skipSpace text) with
  | .error fault => .error fault
  | .ok ⟨[], .separator, rest⟩ => .ok rest
  | .ok ⟨brackets, expectation, rest⟩ => skipTokens brackets expectation rest
  termination_by text.length
  decreasing_by
    have shorter := skipToken_shorter _token
    have := skipSpace_length text
    exact Nat.lt_of_lt_of_le shorter this

/-- Skips one value. -/
def skipValue (text : List Char) : Except Fault (List Char) := skipTokens [] .value text

end WasmWorkshop.Json
