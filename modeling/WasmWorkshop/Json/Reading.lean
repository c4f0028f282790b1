import WasmWorkshop.Json.Skipping

/-!
# Reading typed values from JSON

A reader knows what it wants: a text, a number, a name out of a list, a list, a record. If the text
has something else there, that something is still read as far as it takes to tell whether it is
JSON at all, and only then the text is called mistyped (`wrongKind`).

A record is written as an object, whose members may come in any order and among others that are
skipped, or as an array of its fields in their order. Reading goes through the members and fills
the parts of a record that is still incomplete (`Record`); a member that comes twice is a fault
right after its key. What is missing at the end is for the record to decide.
-/

set_option autoImplicit false

namespace WasmWorkshop.Json

/-- Reads a value of a type. -/
abbrev Reader (α : Type) := List Char → Parsed α

/-- The fault of a number that is not wanted, or of another kind than wanted. -/
def numberFault (number : NumberText) : Fault :=
  if number.isTooLarge then .malformed else .mistyped

/-- The fault of a text that has something else than what is wanted. There is no space in
front. -/
def wrongKind (text : List Char) : Fault :=
  let after (word rest : List Char) : Fault :=
    match readWord word rest with
    | .ok _ => .mistyped
    | .error fault => fault
  match text with
  | [] => .truncated
  | 'n' :: rest => after ['u', 'l', 'l'] rest
  | 't' :: rest => after ['r', 'u', 'e'] rest
  | 'f' :: rest => after ['a', 'l', 's', 'e'] rest
  | '[' :: _ => .mistyped
  | '\x7b' :: _ => .mistyped
  | '"' :: rest =>
    match readString rest with
    | .ok _ => .mistyped
    | .error fault => fault
  | character :: rest =>
    if character = '-' || character.isDigit then
      match readNumber .truncated (character :: rest) with
      | .ok (number, _) => numberFault number
      | .error fault => fault
    else .malformed

/-! ## Scalars -/

/-- Reads a text. -/
def readText : Reader String := fun text =>
  match skipSpace text with
  | '"' :: rest =>
    match readString rest with
    | .ok (characters, rest) => .ok (String.ofList characters, rest)
    | .error fault => .error fault
  | other => .error (wrongKind other)

/-- Reads a natural number below a bound, which is at most `longRange`. -/
def readNatural (bound : Nat) : Reader Nat := fun text =>
  match skipSpace text with
  | [] => .error .truncated
  | character :: rest =>
    if character = '-' || character.isDigit then
      match readNumber .truncated (character :: rest) with
      | .error fault => .error fault
      | .ok (number, rest) =>
        match number.natural? with
        | some value => if value < bound then .ok (value, rest) else .error .mistyped
        | none => .error (numberFault number)
    else .error (wrongKind (character :: rest))

/-- Reads `null`. -/
def readNull : Reader Unit := fun text =>
  match skipSpace text with
  | 'n' :: rest =>
    match readWord ['u', 'l', 'l'] rest with
    | .ok rest => .ok ((), rest)
    | .error fault => .error fault
  | other => .error (wrongKind other)

/-- Reads a value, or `null` for none. -/
def readOptional {α : Type} (reader : Reader α) : Reader (Option α) := fun text =>
  match skipSpace text with
  | 'n' :: rest =>
    match readWord ['u', 'l', 'l'] rest with
    | .ok rest => .ok (none, rest)
    | .error fault => .error fault
  | other =>
    match reader other with
    | .ok (value, rest) => .ok (some value, rest)
    | .error fault => .error fault

/-- Reads a colon. -/
def readColon (text : List Char) : Except Fault (List Char) :=
  match skipSpace text with
  | [] => .error .truncated
  | ':' :: rest => .ok rest
  | _ => .error .malformed

/-! ## Names -/

/-- The values of a type with their names. -/
abbrev Naming (α : Type) := List (String × α)

/-- Reads a name and returns its value. -/
def readName {α : Type} (naming : Naming α) : Reader α := fun text =>
  match readText text with
  | .error fault => .error fault
  | .ok (name, rest) =>
    match naming.lookup name with
    | some value => .ok (value, rest)
    | none => .error .mistyped

/-- Reads the end of an object that names a value, from behind the name. -/
def readNamedEnd (text : List Char) : Except Fault (List Char) :=
  match readColon text with
  | .error fault => .error fault
  | .ok rest =>
    match readNull rest with
    | .error fault => .error fault
    | .ok (_, rest) =>
      match skipSpace rest with
      | [] => .error .truncated
      | '\x7d' :: rest => .ok rest
      | _ => .error .malformed

/-- Reads a named value: its name, or an object with the name as its only key and `null` as the
value of that. -/
def readNamed {α : Type} (naming : Naming α) : Reader α := fun text =>
  match skipSpace text with
  | [] => .error .truncated
  | '"' :: rest => readName naming ('"' :: rest)
  | '\x7b' :: rest =>
    match readName naming rest with
    | .error fault => .error fault
    | .ok (value, rest) =>
      match readNamedEnd rest with
      | .ok rest => .ok (value, rest)
      | .error fault => .error fault
  | _ => .error .malformed

/-! ## Lists and records -/

/-- Where the next element of an array starts. There is none if the array ends instead. -/
def nextElement (isFirst : Bool) (text : List Char) :
    Except Fault (Option (List Char) × List Char) :=
  match skipSpace text with
  | [] => .error .truncated
  | ']' :: rest => .ok (none, rest)
  | character :: rest =>
    if isFirst then .ok (some (character :: rest), [])
    else if character = ',' then
      match skipSpace rest with
      | [] => .error .truncated
      | ']' :: _ => .error .malformed
      | element => .ok (some element, [])
    else .error .malformed

/-- Reads the elements of an array. -/
def readElements {α : Type} (reader : Reader α) : Nat → Bool → Reader (List α)
  | 0, _, _ => .error .malformed
  | fuel + 1, isFirst, text =>
    match nextElement isFirst text with
    | .error fault => .error fault
    | .ok (none, rest) => .ok ([], rest)
    | .ok (some element, _) =>
      match reader element with
      | .error fault => .error fault
      | .ok (value, rest) =>
        match readElements reader fuel false rest with
        | .error fault => .error fault
        | .ok (values, rest) => .ok (value :: values, rest)

/-- Reads a list. Every element takes a character, so there are at most as many as characters. -/
def readList {α : Type} (reader : Reader α) : Reader (List α) := fun text =>
  match skipSpace text with
  | '[' :: rest => readElements reader (rest.length + 1) true rest
  | other => .error (wrongKind other)

/-- A field of a record whose incomplete form is `σ`. -/
structure Field (σ : Type) where
  key : String
  /-- Whether the field is there. -/
  isSet : σ → Bool
  /-- Reads the value and fills it in. -/
  fill : σ → Reader σ

/-- How a record is read: its fields in order, its incomplete form before any is read, and the
record that an incomplete form makes, if it makes one. -/
structure Record (σ α : Type) where
  fields : List (Field σ)
  blank : σ
  complete : σ → Option α

/-- Where the next key of an object starts, behind its quote. There is none if the object ends
instead. -/
def nextKey (isFirst : Bool) (text : List Char) :
    Except Fault (Option (List Char) × List Char) :=
  match skipSpace text with
  | [] => .error .truncated
  | '\x7d' :: rest => .ok (none, rest)
  | character :: rest =>
    if isFirst then
      if character = '"' then .ok (some rest, []) else .error .malformed
    else if character = ',' then
      match skipSpace rest with
      | [] => .error .truncated
      | '"' :: key => .ok (some key, [])
      | _ => .error .malformed
    else .error .malformed

/-- Reads the value of a member, from behind its key. -/
def readMember {σ : Type} (fields : List (Field σ)) (key : String) (partly : σ) : Reader σ :=
  fun text =>
    match fields.find? (·.key = key) with
    | some field =>
      if field.isSet partly then .error .mistyped
      else
        match readColon text with
        | .ok rest => field.fill partly rest
        | .error fault => .error fault
    | none =>
      match readColon text with
      | .error fault => .error fault
      | .ok rest =>
        match skipValue rest with
        | .ok rest => .ok (partly, rest)
        | .error fault => .error fault

/-- Reads the members of an object. -/
def readMembers {σ : Type} (fields : List (Field σ)) : Nat → Bool → σ → Reader σ
  | 0, _, _, _ => .error .malformed
  | fuel + 1, isFirst, partly, text =>
    match nextKey isFirst text with
    | .error fault => .error fault
    | .ok (none, rest) => .ok (partly, rest)
    | .ok (some key, _) =>
      match readString key with
      | .error fault => .error fault
      | .ok (key, rest) =>
        match readMember fields (String.ofList key) partly rest with
        | .error fault => .error fault
        | .ok (partly, rest) => readMembers fields fuel false partly rest

/-- Reads the fields of a record from an array, as many as there are. -/
def readPlaces {σ : Type} : List (Field σ) → Bool → σ → Reader σ
  | [], _, partly, text =>
    match skipSpace text with
    | [] => .error .truncated
    | ']' :: rest => .ok (partly, rest)
    | _ => .error .malformed
  | field :: fields, isFirst, partly, text =>
    match nextElement isFirst text with
    | .error fault => .error fault
    | .ok (none, rest) => .ok (partly, rest)
    | .ok (some element, _) =>
      match field.fill partly element with
      | .error fault => .error fault
      | .ok (partly, rest) => readPlaces fields false partly rest

/-- The record that an incomplete form makes. -/
def finishRecord {σ α : Type} (record : Record σ α) (read : Parsed σ) : Parsed α :=
  match read with
  | .error fault => .error fault
  | .ok (partly, rest) =>
    match record.complete partly with
    | some value => .ok (value, rest)
    | none => .error .mistyped

/-- Reads a record. -/
def readRecord {σ α : Type} (record : Record σ α) : Reader α := fun text =>
  match skipSpace text with
  | '[' :: rest => finishRecord record (readPlaces record.fields true record.blank rest)
  | '\x7b' :: rest =>
    finishRecord record (readMembers record.fields (rest.length + 1) true record.blank rest)
  | other => .error (wrongKind other)

/-! ## Whole texts -/

/-- Reads the whole of a text, after which only space may come. -/
def decode {α : Type} (reader : Reader α) (text : String) : Except Fault α :=
  match reader text.toList with
  | .error fault => .error fault
  | .ok (value, rest) => if (skipSpace rest).isEmpty then .ok value else .error .malformed

end WasmWorkshop.Json
