import WasmWorkshop.Json.Skipping
import WasmWorkshop.Proofs.GrammarTokens

/-!
# Every value of the grammar is skipped

A value is skipped token by token, with a stack of the brackets that are open, and however deep it
is nested, what is left to do after it is what was left to do before it (`skipTokens_value`). So
`skipValue` passes over any value of the grammar, with the space in front of it, and stops right
behind it (`skipValue_value`). The induction is over the grammar, for an arbitrary stack of brackets
and an arbitrary rest, since a nested value is skipped with those of the outer ones.
-/

set_option autoImplicit false

namespace WasmWorkshop.Json

variable {before after value text rest : List Char} {brackets outer : List Bracket}
  {bracket : Bracket} {expectation : Expectation}

/-! ## What comes after a value -/

/-- A comma or a closing bracket, with space in front, cannot go on with a number. -/
theorem endsNumber_closing (space : IsSpace after) {next : Char}
    (closes : next = ',' ∨ next = ']' ∨ next = '\x7d') : EndsNumber (after ++ next :: rest) := by
  have known : ∀ first ∈ (after ++ next :: rest).head?,
      first ∈ [' ', '\n', '\t', '\r'] ∨ first = ',' ∨ first = ']' ∨ first = '\x7d' := by
    cases after with
    | nil => exact fun first same => .inr (Option.mem_some_iff.mp same ▸ closes)
    | cons first more =>
        exact fun _ same => .inl (Option.mem_some_iff.mp same ▸ space first List.mem_cons_self)
  intro first head
  have others := known first head
  simp only [List.mem_cons, List.not_mem_nil, or_false] at others
  rcases others with (rfl | rfl | rfl | rfl) | rfl | rfl | rfl <;> exact ⟨rfl, by decide⟩

/-! ## How a value starts -/

/-- How a number starts. -/
theorem IsNumber.exists_cons {number : NumberText} (isNumber : IsNumber text number) :
    ∃ first more, text = first :: more ∧ (first = '-' ∨ first.isDigit = true) := by
  obtain ⟨isWhole, -, -⟩ := isNumber
  rename_i isNegative whole fraction exponent _ _
  cases isNegative with
  | true => exact ⟨'-', whole ++ (fraction ++ exponent), rfl, .inl rfl⟩
  | false =>
      obtain ⟨first, more, rfl, isDigit⟩ := isWhole.isDigits.exists_cons
      exact ⟨first, more ++ (fraction ++ exponent), rfl, .inr isDigit⟩

theorem not_space_of_number {first : Char} (starts : first = '-' ∨ first.isDigit = true) :
    isSpace first = false ∧ first ≠ ']' := by
  rcases starts with rfl | isDigit
  · exact ⟨rfl, by decide⟩
  · refine ⟨isSpace_eq_false_of_isDigit isDigit, ?_⟩
    rintro rfl
    cases isDigit

/-- A value starts neither with space nor with the end of an array. -/
theorem IsValue.exists_cons (isValue : IsValue value) :
    ∃ first more, value = first :: more ∧ isSpace first = false ∧ first ≠ ']' := by
  cases isValue with
  | number isNumber =>
      obtain ⟨first, more, rfl, starts⟩ := isNumber.exists_cons
      exact ⟨first, more, rfl, not_space_of_number starts⟩
  | nullWord | trueWord | falseWord => exact ⟨_, _, rfl, rfl, by decide⟩
  | string | emptyArray | array | emptyObject | object => exact ⟨_, _, rfl, rfl, by decide⟩

/-- The space in front of a value is passed over, and no more. -/
theorem skipSpace_value (space : IsSpace before) (isValue : IsValue value) (rest : List Char) :
    skipSpace (before ++ (value ++ rest)) = value ++ rest := by
  obtain ⟨first, more, rfl, noSpace, -⟩ := isValue.exists_cons
  rw [skipSpace_append space, List.cons_append, skipSpace_cons noSpace]

/-! ## One token -/

/-- What a token leaves to skip. Nothing is left behind a value outside of all brackets. -/
def skipPending : Pending → Except Fault (List Char)
  | ⟨[], .separator, rest⟩ => .ok rest
  | ⟨brackets, expectation, rest⟩ => skipTokens brackets expectation rest

/-- Skipping takes a token and goes on with what that leaves. -/
theorem skipTokens_eq (brackets : List Bracket) (expectation : Expectation) (text : List Char) :
    skipTokens brackets expectation text =
      (skipToken brackets expectation (skipSpace text)).bind skipPending := by
  rw [skipTokens]
  split
  · rename_i token
    rw [token]
    rfl
  · rename_i token
    rw [token]
    rfl
  · rename_i notDone token
    rw [token]
    change _ = skipPending _
    unfold skipPending
    split
    · rename_i same
      cases same
      exact absurd rfl (notDone rfl)
    · rename_i same
      cases same
      rfl

/-- The next token is taken from behind the space. -/
theorem skipTokens_next (pending : Pending) {first : Char} (space : IsSpace before)
    (noSpace : isSpace first = false)
    (token : skipToken brackets expectation (first :: rest) = .ok pending) :
    skipTokens brackets expectation (before ++ first :: rest) = skipPending pending := by
  rw [skipTokens_eq, skipSpace_append space, skipSpace_cons noSpace, token]
  rfl

/-- Behind a comma the brackets go on. -/
theorem skipPending_comma (space : IsSpace after) :
    skipPending ⟨bracket :: outer, .separator, after ++ ',' :: rest⟩ =
      skipTokens (bracket :: outer) bracket.next rest := by
  cases bracket with
  | array => exact skipTokens_next ⟨.array :: outer, .value, rest⟩ space rfl rfl
  | object => exact skipTokens_next ⟨.object :: outer, .key, rest⟩ space rfl rfl

/-- The closing bracket closes the innermost bracket. -/
theorem skipPending_closing (space : IsSpace after) :
    skipPending ⟨bracket :: outer, .separator, after ++ bracket.closing :: rest⟩ =
      skipPending ⟨outer, .separator, rest⟩ := by
  cases bracket <;> exact skipTokens_next ⟨outer, .separator, rest⟩ space rfl rfl

/-- The closing bracket may come right after the opening one. -/
theorem skipTokens_empty (space : IsSpace before) :
    skipTokens (bracket :: outer) bracket.opened (before ++ bracket.closing :: rest) =
      skipPending ⟨outer, .separator, rest⟩ := by
  cases bracket <;> exact skipTokens_next ⟨outer, .separator, rest⟩ space rfl rfl

/-! ## The first token of a value -/

theorem skipValueToken_number {number : NumberText} (isNumber : IsNumber text number)
    (ends : EndsNumber rest) :
    skipValueToken brackets (text ++ rest) = .ok ⟨brackets, .separator, rest⟩ := by
  have read := readNumber_spelled .malformed isNumber ends
  obtain ⟨first, more, rfl, starts⟩ := isNumber.exists_cons
  have isStart : (first = '-' || first.isDigit) = true := by simpa using starts
  have unnamed : first ∉ ['n', 't', 'f', '"', '[', '\x7b'] := by
    intro named
    simp only [List.mem_cons, List.not_mem_nil, or_false] at named
    rcases named with rfl | rfl | rfl | rfl | rfl | rfl <;> cases isStart
  rw [List.cons_append] at read ⊢
  unfold skipValueToken
  split
  case h_8 =>
    rename_i same
    cases same
    rw [if_pos isStart, read]
  all_goals simp_all

theorem skipValueToken_string {body : List Char} (isBody : IsStringBody body) :
    skipValueToken brackets (inQuotes body ++ rest) = .ok ⟨brackets, .separator, rest⟩ := by
  simp only [inQuotes, List.cons_append, List.append_assoc, List.nil_append, skipValueToken,
    skipString_body isBody, afterScalar]

/-! ## Values -/

/-- The value is skipped, with the space in front of it, and the stack of brackets is as before. -/
def SkipsValue (value : List Char) : Prop :=
  ∀ brackets before rest, IsSpace before → EndsNumber rest →
    skipTokens brackets .value (before ++ (value ++ rest)) =
      skipPending ⟨brackets, .separator, rest⟩

/-- A value is skipped as soon as its first token leaves what is left behind it. -/
theorem skipsValue_of_token (isValue : IsValue value)
    (token : ∀ brackets rest, EndsNumber rest →
      ∃ pending, skipValueToken brackets (value ++ rest) = .ok pending ∧
        skipPending pending = skipPending ⟨brackets, .separator, rest⟩) : SkipsValue value := by
  intro brackets before rest space ends
  obtain ⟨pending, first, others⟩ := token brackets rest ends
  rw [skipTokens_eq, skipSpace_value space isValue, ← others]
  obtain ⟨character, more, rfl, -⟩ := isValue.exists_cons
  rw [List.cons_append] at first ⊢
  rw [skipToken, first]
  rfl

/-- The character that opens a bracket. -/
def Bracket.opening : Bracket → Char
  | .array => '['
  | .object => '\x7b'

/-- An array or an object is skipped as soon as what stands inside is, up to the end. -/
theorem skipsValue_bracketed (bracket : Bracket) {inner : List Char}
    (isValue : IsValue (bracket.opening :: (inner ++ [bracket.closing])))
    (inside : ∀ outer rest,
      skipTokens (bracket :: outer) bracket.opened (inner ++ bracket.closing :: rest) =
        skipPending ⟨outer, .separator, rest⟩) :
    SkipsValue (bracket.opening :: (inner ++ [bracket.closing])) := by
  refine skipsValue_of_token isValue fun brackets rest _ => ?_
  refine ⟨⟨bracket :: brackets, bracket.opened, inner ++ bracket.closing :: rest⟩, ?_, ?_⟩
  · rw [List.cons_append, List.append_assoc, List.singleton_append]
    cases bracket <;> rfl
  · rw [← inside brackets rest]
    cases bracket <;> rfl

/-- An array that has just begun and does not end yet goes on with a value. -/
theorem skipTokens_element (isValue : IsValue value) (padded : Padded value text) :
    skipTokens brackets .element (text ++ rest) = skipTokens brackets .value (text ++ rest) := by
  obtain @⟨before, after, front, -⟩ := padded
  obtain ⟨first, more, rfl, noSpace, notEnd⟩ := isValue.exists_cons
  rw [skipTokens_eq, skipTokens_eq, List.append_assoc, List.append_assoc, skipSpace_append front,
    List.cons_append, skipSpace_cons noSpace]
  congr 1
  unfold skipToken
  split <;> simp_all

/-- A value with space around it is skipped up to the comma or the bracket behind it. -/
theorem SkipsValue.padded (skips : SkipsValue value) (padded : Padded value text) :
    ∃ after, IsSpace after ∧ ∀ brackets next rest, next = ',' ∨ next = ']' ∨ next = '\x7d' →
      skipTokens brackets .value (text ++ next :: rest) =
        skipPending ⟨brackets, .separator, after ++ next :: rest⟩ := by
  obtain @⟨before, after, front, back⟩ := padded
  refine ⟨after, back, fun brackets next rest closes => ?_⟩
  rw [List.append_assoc, List.append_assoc]
  exact skips brackets before _ front (endsNumber_closing back closes)

/-- An element of an array is skipped up to the comma or the bracket behind it. -/
theorem SkipsValue.element (skips : SkipsValue value) (isValue : IsValue value)
    (padded : Padded value text) :
    ∃ after, IsSpace after ∧ ∀ outer expectation next rest,
      expectation = .value ∨ expectation = .element → next = ',' ∨ next = ']' ∨ next = '\x7d' →
      skipTokens (.array :: outer) expectation (text ++ next :: rest) =
        skipPending ⟨.array :: outer, .separator, after ++ next :: rest⟩ := by
  obtain ⟨after, back, skipped⟩ := skips.padded padded
  refine ⟨after, back, fun outer expectation next rest isElement closes => ?_⟩
  rw [← skipped _ next rest closes]
  rcases isElement with rfl | rfl
  · rfl
  · exact skipTokens_element isValue padded

/-- A member of an object is skipped up to the comma or the bracket behind it. -/
theorem SkipsValue.member (skips : SkipsValue value) {body : List Char}
    (isBody : IsStringBody body) (member : KeyAndValue body value text) :
    ∃ after, IsSpace after ∧ ∀ outer expectation next rest,
      expectation = .key ∨ expectation = .member → next = ',' ∨ next = ']' ∨ next = '\x7d' →
      skipTokens (.object :: outer) expectation (text ++ next :: rest) =
        skipPending ⟨.object :: outer, .separator, after ++ next :: rest⟩ := by
  obtain @⟨_, valueText, @⟨beforeKey, afterKey, frontKey, backKey⟩, padded⟩ := member
  obtain ⟨after, back, skipped⟩ := skips.padded padded
  refine ⟨after, back, fun outer expectation next rest isKey closes => ?_⟩
  have key : skipToken (.object :: outer) expectation
      ('"' :: (body ++ '"' :: (afterKey ++ ':' :: (valueText ++ next :: rest)))) =
        .ok ⟨.object :: outer, .colon, afterKey ++ ':' :: (valueText ++ next :: rest)⟩ := by
    rcases isKey with rfl | rfl <;> simp only [skipToken, skipString_body isBody]
  calc skipTokens (.object :: outer) expectation _
      = skipTokens (.object :: outer) expectation (beforeKey ++
          '"' :: (body ++ '"' :: (afterKey ++ ':' :: (valueText ++ next :: rest)))) := by
        simp only [inQuotes, List.append_assoc, List.cons_append, List.nil_append]
    _ = skipTokens (.object :: outer) .colon (afterKey ++ ':' :: (valueText ++ next :: rest)) :=
        skipTokens_next _ frontKey rfl key
    _ = skipTokens (.object :: outer) .value (valueText ++ next :: rest) :=
        skipTokens_next ⟨.object :: outer, .value, valueText ++ next :: rest⟩ backKey rfl rfl
    _ = _ := skipped _ next rest closes

mutual

/-- **Every value is skipped**, however deep it is nested. -/
theorem skipTokens_value {value : List Char} : IsValue value → SkipsValue value
  | .nullWord => skipsValue_of_token .nullWord fun _ _ _ => ⟨_, rfl, rfl⟩
  | .trueWord => skipsValue_of_token .trueWord fun _ _ _ => ⟨_, rfl, rfl⟩
  | .falseWord => skipsValue_of_token .falseWord fun _ _ _ => ⟨_, rfl, rfl⟩
  | .number isNumber =>
      skipsValue_of_token (.number isNumber) fun _ _ ends =>
        ⟨_, skipValueToken_number isNumber ends, rfl⟩
  | .string isBody =>
      skipsValue_of_token (.string isBody) fun _ _ _ => ⟨_, skipValueToken_string isBody, rfl⟩
  | .emptyArray space =>
      skipsValue_bracketed .array (.emptyArray space) fun _ _ => skipTokens_empty space
  | .array elements =>
      skipsValue_bracketed .array (.array elements) fun outer rest =>
        skipTokens_elements elements outer .element rest (.inr rfl)
  | .emptyObject space =>
      skipsValue_bracketed .object (.emptyObject space) fun _ _ => skipTokens_empty space
  | .object members =>
      skipsValue_bracketed .object (.object members) fun outer rest =>
        skipTokens_members members outer .member rest (.inr rfl)

/-- The elements of an array are skipped up to its end, whether or not it has just begun. -/
theorem skipTokens_elements {inner : List Char} : IsElements inner →
    ∀ outer expectation rest, expectation = .value ∨ expectation = .element →
      skipTokens (.array :: outer) expectation (inner ++ ']' :: rest) =
        skipPending ⟨outer, .separator, rest⟩
  | .last isValue padded => by
      obtain ⟨after, back, skipped⟩ := (skipTokens_value isValue).element isValue padded
      intro outer expectation rest isElement
      rw [skipped outer expectation _ rest isElement (.inr (.inl rfl))]
      exact skipPending_closing back
  | .next isValue padded more => by
      obtain ⟨after, back, skipped⟩ := (skipTokens_value isValue).element isValue padded
      intro outer expectation rest isElement
      rw [List.append_assoc, List.cons_append, skipped outer expectation _ _ isElement (.inl rfl),
        skipPending_comma back]
      exact skipTokens_elements more outer .value rest (.inl rfl)

/-- The members of an object are skipped up to its end, whether or not it has just begun. -/
theorem skipTokens_members {inner : List Char} : IsMembers inner →
    ∀ outer expectation rest, expectation = .key ∨ expectation = .member →
      skipTokens (.object :: outer) expectation (inner ++ '\x7d' :: rest) =
        skipPending ⟨outer, .separator, rest⟩
  | .last isBody isValue member => by
      obtain ⟨after, back, skipped⟩ := (skipTokens_value isValue).member isBody member
      intro outer expectation rest isKey
      rw [skipped outer expectation _ rest isKey (.inr (.inr rfl))]
      exact skipPending_closing back
  | .next isBody isValue member more => by
      obtain ⟨after, back, skipped⟩ := (skipTokens_value isValue).member isBody member
      intro outer expectation rest isKey
      rw [List.append_assoc, List.cons_append, skipped outer expectation _ _ isKey (.inl rfl),
        skipPending_comma back]
      exact skipTokens_members more outer .key rest (.inl rfl)

end

/-- **A value is skipped up to its end**, with the space in front of it. -/
theorem skipValue_value (isValue : IsValue value) (space : IsSpace before)
    (ends : EndsNumber rest) : skipValue (before ++ (value ++ rest)) = .ok rest :=
  skipTokens_value isValue [] before rest space ends

end WasmWorkshop.Json
