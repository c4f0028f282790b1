import WasmWorkshop.Json.Codec
import WasmWorkshop.Proofs.WrittenTokens

/-!
# Arrays and objects that were written are read back

A reader restores a value from what was written for it if it finds the value there, whatever comes
next inside of an array or an object, and leaves just that (`Restores`). There is one lemma for each
way to read: texts, numbers, names, values that may be missing, lists and records. The members of an
object fill an incomplete record one after another (`Fills`), so a record is restored as soon as
each of its members is, and the last incomplete form makes the record (`restores_record`).

The other direction holds for any text: what every field keeps while an incomplete record is filled
is true of the last incomplete form, in whichever way the record is written (`readRecord_keeps`).
-/

set_option autoImplicit false

namespace WasmWorkshop.Json

variable {α σ : Type}

/-- The reader finds the value in what was written, and leaves what comes next. -/
def Restores (reader : Reader α) (written : List Char) (value : α) : Prop :=
  ∀ rest, Delimited rest → reader (written ++ rest) = .ok (value, rest)

/-- What was written starts like a value: not with space, and not with the end of an array. -/
def OpensValue (written : List Char) : Prop :=
  ∃ first more, written = first :: more ∧ isSpace first = false ∧ first ≠ ']'

/-! ## Scalars -/

/-- A string is read as the text that it gives, with the space in front of it. -/
theorem readText_given {before value : List Char} {text : String} (space : IsSpace before)
    (gives : GivesText value text) (rest : List Char) :
    readText (before ++ (value ++ rest)) = .ok (text, rest) := by
  obtain ⟨spells⟩ := gives
  rw [readText, skipSpace_append space, inQuotes, List.cons_append, List.append_assoc,
    skipSpace_cons rfl]
  simp only [List.singleton_append, readString_spelled spells, String.ofList_toList]

theorem restores_text (text : String) : Restores readText (writeText text) text := by
  intro rest _
  exact readText_given isSpace_nil ⟨spells_flatMap_writeChar text.toList⟩ rest

/-- A number of digits alone is read where what follows cannot go on with it. -/
theorem readNatural_given {bound number : Nat} {before value rest : List Char}
    (space : IsSpace before) (gives : GivesNatural value number) (below : number < bound)
    (inRange : bound ≤ longRange) (ends : EndsNumber rest) :
    readNatural bound (before ++ (value ++ rest)) = .ok (number, rest) := by
  obtain ⟨isWhole⟩ := gives
  have read := readNumber_spelled .truncated isWhole.isNumber ends
  have natural : NumberText.natural? ⟨false, value, none, none⟩ = some (decimalValue value) :=
    if_pos (Nat.lt_of_lt_of_le below inRange)
  obtain ⟨first, more, rfl, isDigit⟩ := isWhole.isDigits.exists_cons
  have noSpace := isSpace_eq_false_of_isDigit isDigit
  rw [List.cons_append] at read ⊢
  simp only [readNatural, skipSpace_append space, skipSpace_cons noSpace, isDigit, Bool.or_true,
    if_true, read, natural, below]

theorem restores_natural {bound value : Nat} (below : value < bound)
    (inRange : bound ≤ longRange) : Restores (readNatural bound) (writeNatural value) value :=
  fun _ delimited => readNatural_given isSpace_nil (givesNatural_writeNatural value) below inRange
    delimited.endsNumber

/-- What is read is below the bound. -/
theorem readNatural_lt {bound value : Nat} {text rest : List Char}
    (read : readNatural bound text = .ok (value, rest)) : value < bound := by
  unfold readNatural at read
  split at read
  · cases read
  · split at read
    · split at read
      · cases read
      · split at read
        · split at read
          · rename_i below
            cases read
            exact below
          · cases read
        · cases read
    · cases read

theorem restores_code (code : UInt16) : Restores readCodeNumber (writeCodeNumber code) code := by
  intro rest delimited
  have inRange : codeRange ≤ longRange := by decide
  have natural := restores_natural (show code.toNat < codeRange from code.toNat_lt) inRange rest
    delimited
  rw [readCodeNumber, writeCodeNumber, natural]
  simp

/-- A value with a name of its own is restored from its name. -/
theorem restores_named [DecidableEq α] {naming : Naming α} {value : α}
    (named : naming.lookup (naming.name value) = some value) :
    Restores (readNamed naming) (writeNamed naming value) value := by
  intro rest delimited
  have text := restores_text (naming.name value) rest delimited
  change readNamed naming ('"' :: (_ ++ rest)) = _
  rw [readNamed, skipSpace_cons rfl]
  change readName naming (writeNamed naming value ++ rest) = _
  rw [readName, writeNamed, text]
  simp only [named]

theorem restores_optional {reader : Reader α} {written : List Char} {value : α}
    (restores : Restores reader written value) (opens : OpensValue written)
    (notNull : written.head? ≠ some 'n') :
    Restores (readOptional reader) written (some value) := by
  intro rest delimited
  have inside := restores rest delimited
  obtain ⟨first, more, rfl, noSpace, -⟩ := opens
  rw [List.cons_append] at inside ⊢
  rw [readOptional, skipSpace_cons noSpace]
  split
  · rename_i null
    exact absurd (congrArg some (List.cons.inj null).1) notNull
  · rw [inside]

/-! ## Arrays -/

/-- What stands between the brackets of an array or an object, with a comma before every part. -/
theorem separated_cons (part : List Char) (parts : List (List Char)) :
    separated (part :: parts) = part ++ parts.flatMap (',' :: ·) := by
  induction parts generalizing part with
  | nil => exact (List.append_nil part).symm
  | cons next parts ih =>
      rw [separated, ih, List.flatMap_cons, List.cons_append]
      exact List.cons_ne_nil next parts

/-- There are no more parts than characters. -/
theorem length_le_separated (parts : List (List Char)) (closing : Char) (rest : List Char) :
    parts.length ≤ (separated parts ++ closing :: rest).length := by
  cases parts with
  | nil => exact Nat.zero_le _
  | cons part parts =>
      have commas : parts.length ≤ (parts.flatMap (',' :: ·)).length := by
        induction parts with
        | nil => exact Nat.le_refl 0
        | cons next parts ih =>
            simp only [List.flatMap_cons, List.length_append, List.length_cons]
            omega
      simp only [separated_cons, List.length_append, List.length_cons]
      omega

/-- After a part comes a comma or the closing bracket. -/
theorem delimited_parts {closing : Char} (closes : closing = ',' ∨ closing = ']' ∨ closing = '\x7d')
    (parts : List (List Char)) (rest : List Char) :
    Delimited (parts.flatMap (',' :: ·) ++ closing :: rest) := by
  cases parts with
  | nil => exact delimited_cons closes
  | cons part parts => exact delimited_cons (.inl rfl)

theorem nextElement_first {written : List Char} (opens : OpensValue written) (rest : List Char) :
    nextElement true (written ++ rest) = .ok (some (written ++ rest), []) := by
  obtain ⟨first, more, rfl, noSpace, notEnd⟩ := opens
  rw [List.cons_append, nextElement, skipSpace_cons noSpace]
  split <;> simp_all

theorem nextElement_next {written : List Char} (opens : OpensValue written) (rest : List Char) :
    nextElement false (',' :: (written ++ rest)) = .ok (some (written ++ rest), []) := by
  obtain ⟨first, more, rfl, noSpace, notEnd⟩ := opens
  rw [nextElement, skipSpace_cons rfl]
  split
  · rename_i nothing
    cases nothing
  · rename_i closing
    exact absurd (List.cons.inj closing).1 (by decide)
  · rename_i comma
    cases comma
    rw [List.cons_append, skipSpace_cons noSpace]
    split <;> simp_all

section Elements

variable {reader : Reader α} {write : α → List Char} {values : List α}

/-- The elements after the first one. -/
theorem readElements_next (restores : ∀ value ∈ values, Restores reader (write value) value)
    (opens : ∀ value ∈ values, OpensValue (write value)) {fuel : Nat}
    (enough : values.length < fuel) (rest : List Char) :
    readElements reader fuel false ((values.map write).flatMap (',' :: ·) ++ ']' :: rest) =
      .ok (values, rest) := by
  obtain ⟨fuel, rfl⟩ := Nat.exists_eq_add_one_of_ne_zero (Nat.ne_zero_of_lt enough)
  induction values generalizing fuel with
  | nil => rfl
  | cons value values ih =>
      obtain ⟨fuel, rfl⟩ := Nat.exists_eq_add_one_of_ne_zero
        (Nat.ne_zero_of_lt (Nat.lt_of_succ_lt_succ enough))
      obtain ⟨restoresFirst, restoresRest⟩ := List.forall_mem_cons.mp restores
      obtain ⟨opensFirst, opensRest⟩ := List.forall_mem_cons.mp opens
      have first := restoresFirst _ (delimited_parts (.inr (.inl rfl)) (values.map write) rest)
      have others := ih restoresRest opensRest fuel (Nat.lt_of_succ_lt_succ enough)
      rw [List.map_cons, List.flatMap_cons, List.append_assoc, List.cons_append, readElements,
        nextElement_next opensFirst]
      simp only [first, others]

/-- **A list is restored if each of its elements is.** -/
theorem restores_list (restores : ∀ value ∈ values, Restores reader (write value) value)
    (opens : ∀ value ∈ values, OpensValue (write value)) :
    Restores (readList reader) (writeArray (values.map write)) values := by
  intro rest _
  have split : writeArray (values.map write) ++ rest =
      '[' :: (separated (values.map write) ++ ']' :: rest) := by simp [writeArray]
  have enough := length_le_separated (values.map write) ']' rest
  rw [split, readList, skipSpace_cons rfl]
  cases values with
  | nil => rfl
  | cons value values =>
      obtain ⟨restoresFirst, restoresRest⟩ := List.forall_mem_cons.mp restores
      obtain ⟨opensFirst, opensRest⟩ := List.forall_mem_cons.mp opens
      have first := restoresFirst _ (delimited_parts (.inr (.inl rfl)) (values.map write) rest)
      have others := readElements_next restoresRest opensRest
        (Nat.lt_of_lt_of_le (Nat.lt_succ_self values.length) (List.length_map write ▸ enough)) rest
      rw [List.map_cons, separated_cons, List.append_assoc] at others ⊢
      simp only [readElements, nextElement_first opensFirst, first, others]

end Elements

/-! ## Objects -/

variable {fields : List (Field σ)}

/-- A member as it is written. -/
def writeMember (member : String × List Char) : List Char :=
  writeText member.1 ++ ':' :: member.2

theorem writeMember_append (member : String × List Char) (rest : List Char) :
    writeMember member ++ rest =
      '"' :: (member.1.toList.flatMap writeChar ++ '"' :: ':' :: (member.2 ++ rest)) := by
  simp [writeMember, writeText]

theorem nextKey_first (key : List Char) : nextKey true ('"' :: key) = .ok (some key, []) := rfl

theorem nextKey_next (key : List Char) : nextKey false (',' :: '"' :: key) = .ok (some key, []) :=
  rfl

/-- The members fill an incomplete form one after another, up to the final one. -/
inductive Fills (fields : List (Field σ)) : σ → List (String × List Char) → σ → Prop where
  | nil (partly : σ) : Fills fields partly [] partly
  | cons {partly next final : σ} {key : String} {written : List Char}
      {members : List (String × List Char)}
      (member : Restores (readMember fields key partly) (':' :: written) next)
      (others : Fills fields next members final) :
      Fills fields partly ((key, written) :: members) final

theorem restores_member {field : Field σ} {key : String} {partly next : σ} {written : List Char}
    (found : fields.find? (·.key = key) = some field) (unset : field.isSet partly = false)
    (restores : Restores (field.fill partly) written next) :
    Restores (readMember fields key partly) (':' :: written) next := by
  intro rest delimited
  have colon : readColon (':' :: (written ++ rest)) = .ok (written ++ rest) := rfl
  rw [List.cons_append, readMember, found]
  simp only [unset, Bool.false_eq_true, if_false, colon, restores rest delimited]

theorem restores_fieldOf {β : Type} {key : String} {get : σ → Option β} {set : σ → β → σ}
    {reader : Reader β} {partly : σ} {written : List Char} {value : β}
    (restores : Restores reader written value) :
    Restores ((fieldOf key get set reader).fill partly) written (set partly value) := by
  intro rest delimited
  simp only [fieldOf, restores rest delimited]

/-- A member fills the field with its key if that is still open. -/
theorem Fills.field {β : Type} {key : String} {get : σ → Option β} {set : σ → β → σ}
    {reader : Reader β} {partly final : σ} {written : List Char} {value : β}
    {members : List (String × List Char)}
    (found : fields.find? (·.key = key) = some (fieldOf key get set reader))
    (unset : (get partly).isSome = false) (restores : Restores reader written value)
    (others : Fills fields (set partly value) members final) :
    Fills fields partly ((key, written) :: members) final :=
  .cons (restores_member found unset (restores_fieldOf restores)) others

/-- The members after the first one. -/
theorem readMembers_next {partly final : σ} {members : List (String × List Char)}
    (fills : Fills fields partly members final) {fuel : Nat} (enough : members.length < fuel)
    (rest : List Char) :
    readMembers fields fuel false partly
      ((members.map writeMember).flatMap (',' :: ·) ++ '\x7d' :: rest) = .ok (final, rest) := by
  obtain ⟨fuel, rfl⟩ := Nat.exists_eq_add_one_of_ne_zero (Nat.ne_zero_of_lt enough)
  induction fills generalizing fuel with
  | nil => rfl
  | @cons partly next final key written members member others ih =>
      obtain ⟨fuel, rfl⟩ := Nat.exists_eq_add_one_of_ne_zero
        (Nat.ne_zero_of_lt (Nat.lt_of_succ_lt_succ enough))
      have first := member _ (delimited_parts (.inr (.inr rfl)) (members.map writeMember) rest)
      have others := ih fuel (Nat.lt_of_succ_lt_succ enough)
      rw [List.map_cons, List.flatMap_cons, List.append_assoc, List.cons_append,
        writeMember_append, readMembers, nextKey_next]
      simp only [readString_written, String.ofList_toList]
      rw [List.cons_append] at first
      simp only [first, others]

/-- **A record is restored if its members fill the incomplete form that makes it.** -/
theorem restores_record {record : Record σ α} {members : List (String × List Char)} {final : σ}
    {value : α} (fills : Fills record.fields record.blank members final)
    (complete : record.complete final = some value) :
    Restores (readRecord record) (writeObject members) value := by
  intro rest _
  have split : writeObject members ++ rest =
      '\x7b' :: (separated (members.map writeMember) ++ '\x7d' :: rest) := by
    change '\x7b' :: ((separated (members.map writeMember) ++ ['\x7d']) ++ rest) = _
    rw [List.append_assoc, List.singleton_append]
  have enough := length_le_separated (members.map writeMember) '\x7d' rest
  have read : readMembers record.fields
      ((separated (members.map writeMember) ++ '\x7d' :: rest).length + 1) true record.blank
      (separated (members.map writeMember) ++ '\x7d' :: rest) = .ok (final, rest) := by
    cases fills with
    | nil => rfl
    | @cons _ next _ key written members member others =>
        have first := member _ (delimited_parts (.inr (.inr rfl)) (members.map writeMember) rest)
        have more := readMembers_next others
          (Nat.lt_of_lt_of_le (Nat.lt_succ_self members.length)
            (List.length_map writeMember ▸ enough)) rest
        rw [List.map_cons, separated_cons, List.append_assoc, writeMember_append] at more ⊢
        rw [List.cons_append] at first
        simp only [readMembers, nextKey_first, readString_written, String.ofList_toList, first,
          more]
  rw [split, readRecord, skipSpace_cons rfl]
  simp only [read, finishRecord, complete]

/-! ## What filling keeps -/

/-- Filling the field keeps what is so far true of an incomplete form. -/
def Field.Keeps (good : σ → Prop) (field : Field σ) : Prop :=
  ∀ partly next text rest, good partly → field.fill partly text = .ok (next, rest) → good next

section Keeps

variable {good : σ → Prop} {partly final : σ} {text rest : List Char}

theorem keeps_fieldOf {β : Type} {key : String} {get : σ → Option β} {set : σ → β → σ}
    {reader : Reader β}
    (keeps : ∀ partly value text rest, good partly → reader text = .ok (value, rest) →
      good (set partly value)) : (fieldOf key get set reader).Keeps good := by
  intro partly next text rest before filled
  simp only [fieldOf] at filled
  split at filled
  · rename_i value after read
    cases filled
    exact keeps partly value text _ before read
  · cases filled

theorem readMember_keeps {key : String} (keeps : ∀ field ∈ fields, field.Keeps good)
    (before : good partly) (read : readMember fields key partly text = .ok (final, rest)) :
    good final := by
  unfold readMember at read
  split at read
  · rename_i field found
    split at read
    · cases read
    · split at read
      · exact keeps field (List.mem_of_find?_eq_some found) _ _ _ _ before read
      · cases read
  · split at read
    · cases read
    · split at read
      · cases read
        exact before
      · cases read

theorem readMembers_keeps (keeps : ∀ field ∈ fields, field.Keeps good) {fuel : Nat}
    {isFirst : Bool} (before : good partly)
    (read : readMembers fields fuel isFirst partly text = .ok (final, rest)) : good final := by
  induction fuel generalizing isFirst partly text with
  | zero => cases read
  | succ fuel ih =>
      rw [readMembers] at read
      split at read
      · cases read
      · cases read
        exact before
      · split at read
        · cases read
        · split at read
          · cases read
          · rename_i member
            exact ih (readMember_keeps keeps before member) read

theorem readPlaces_keeps (keeps : ∀ field ∈ fields, field.Keeps good) {isFirst : Bool}
    (before : good partly) (read : readPlaces fields isFirst partly text = .ok (final, rest)) :
    good final := by
  induction fields generalizing isFirst partly text with
  | nil =>
      rw [readPlaces] at read
      split at read <;> cases read
      exact before
  | cons field fields ih =>
      obtain ⟨keepsFirst, keepsRest⟩ := List.forall_mem_cons.mp keeps
      rw [readPlaces] at read
      split at read
      · cases read
      · cases read
        exact before
      · split at read
        · cases read
        · rename_i filled
          exact ih keepsRest (keepsFirst _ _ _ _ before filled) read

/-- **What every field keeps is true of the incomplete form that makes the record**, whether the
record was written as an object or as an array. -/
theorem readRecord_keeps {record : Record σ α} {value : α}
    (keeps : ∀ field ∈ record.fields, field.Keeps good) (blank : good record.blank)
    (read : readRecord record text = .ok (value, rest)) :
    ∃ final, good final ∧ record.complete final = some value := by
  have finish : ∀ {parsed : Parsed σ}, (∀ final after, parsed = .ok (final, after) → good final) →
      finishRecord record parsed = .ok (value, rest) →
      ∃ final, good final ∧ record.complete final = some value := by
    intro parsed kept finished
    unfold finishRecord at finished
    split at finished
    · cases finished
    · rename_i final after
      split at finished
      · rename_i made
        cases finished
        exact ⟨final, kept final _ rfl, made⟩
      · cases finished
  unfold readRecord at read
  split at read
  · exact finish (fun _ _ => readPlaces_keeps keeps blank) read
  · exact finish (fun _ _ => readMembers_keeps keeps blank) read
  · cases read

end Keeps

end WasmWorkshop.Json
