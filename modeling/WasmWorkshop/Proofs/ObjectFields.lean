import Mathlib.Data.List.Forall2
import Mathlib.Data.List.Nodup
import WasmWorkshop.Proofs.SkippedValues
import WasmWorkshop.Proofs.WrittenRecords

/-!
# Records are read from objects of any layout

A record is read from an object whose members come in any order, with members that the record does
not know between them, and with space wherever it may stand. What is read depends on the values that
the object gives for the keys of the record and on nothing else (`readMembers_given`). An object
that is read gives at most one value for a key (`readMembers_demand`), and a second value is refused
as soon as its key is there (`readMembers_mistyped`).

All fields of such a record hold values of one type here. A field is known by its key and by how its
value is taken out of the incomplete record and put in (`Slot`). The inductions go along the members
with an arbitrary incomplete record, since each member is read with those before it filled in.
-/

set_option autoImplicit false

namespace WasmWorkshop.Json

variable {σ β : Type}

/-! ## Fields of one type -/

/-- A field of an incomplete record. -/
structure Slot (σ β : Type) where
  key : String
  get : σ → Option β
  set : σ → β → σ

/-- The field with a reader for its value. -/
def Slot.field (reader : Reader β) (slot : Slot σ β) : Field σ :=
  fieldOf slot.key slot.get slot.set reader

/-- Fields that hold their values apart from each other, under keys of their own. -/
structure AreApart (slots : List (Slot σ β)) : Prop where
  keys : (slots.map Slot.key).Nodup
  get_set : ∀ slot ∈ slots, ∀ partly value, slot.get (slot.set partly value) = some value
  get_set_other : ∀ slot ∈ slots, ∀ other ∈ slots, other.key ≠ slot.key →
    ∀ partly value, other.get (slot.set partly value) = other.get partly

/-! ## Readers on values of the grammar -/

/-- The reader finds the content in the value, and leaves what comes behind. -/
def Finds (reader : Reader β) (value : List Char) (content : β) : Prop :=
  ∀ before rest, IsSpace before → EndsNumber rest →
    reader (before ++ (value ++ rest)) = .ok (content, rest)

/-- Whatever the reader finds in a value of the grammar, it leaves what comes behind. -/
def StopsBehind (reader : Reader β) : Prop :=
  ∀ value before rest content after, IsValue value → IsSpace before → EndsNumber rest →
    reader (before ++ (value ++ rest)) = .ok (content, after) → after = rest

theorem finds_text {value : List Char} {text : String} (gives : GivesText value text) :
    Finds readText value text := fun _ rest space _ => readText_given space gives rest

theorem finds_natural {bound number : Nat} {value : List Char} (gives : GivesNatural value number)
    (below : number < bound) (inRange : bound ≤ longRange) :
    Finds (readNatural bound) value number :=
  fun _ _ space ends => readNatural_given space gives below inRange ends

/-- What is read as a text can be skipped, and skipping stops behind the value. -/
theorem stopsBehind_text : StopsBehind readText := by
  intro value before rest content after isValue space ends read
  have skipped := skipValue_value isValue space ends
  rw [skipValue, skipTokens_eq, skipSpace_value space isValue] at skipped
  rw [readText, skipSpace_value space isValue] at read
  split at read
  · rename_i inner starts
    split at read
    · rename_i characters final string
      cases read
      rw [starts, skipToken, skipValueToken, skipString_of_readString string] at skipped
      exact Except.ok.inj skipped
    · cases read
  · cases read

/-- Of the values of the grammar, only numbers start like one. -/
theorem stopsBehind_natural (bound : Nat) : StopsBehind (readNatural bound) := by
  intro value before rest content after isValue space ends read
  rw [readNatural, skipSpace_value space isValue] at read
  cases isValue with
  | number isNumber =>
      have number := readNumber_spelled .truncated isNumber ends
      split at read
      · cases read
      · rename_i starts
        split at read
        · rw [← starts, number] at read
          simp only at read
          split at read
          · split at read
            · cases read
              rfl
            · cases read
          · cases read
        · cases read
  | nullWord | trueWord | falseWord => cases read
  | string | emptyArray | array | emptyObject | object => cases read

/-! ## One member -/

theorem valuesFor_cons_same (name : String) (value : List Char) (members : List Member) :
    valuesFor name ((name, value) :: members) = value :: valuesFor name members := by
  simp [valuesFor]

theorem valuesFor_cons_other {name key : String} (other : key ≠ name) (value : List Char)
    (members : List Member) :
    valuesFor key ((name, value) :: members) = valuesFor key members := by
  simp [valuesFor, Ne.symm other]

/-! ### What stands behind a key, and behind a member -/

/-- What stands behind a key, up to the rest: a colon and the value, with space in front of them. -/
inductive BehindKey (value rest : List Char) : List Char → Prop where
  | mk {colonSpace before : List Char} (colonSpaces : IsSpace colonSpace) (space : IsSpace before)
      (ends : EndsNumber rest) :
      BehindKey value rest (colonSpace ++ ':' :: (before ++ (value ++ rest)))

/-- What stands behind a member, up to the rest behind the object: the closing bracket, or a comma
and further members. -/
inductive BehindMember (rest : List Char) : List Member → List Char → Prop where
  | closing {after : List Char} (space : IsSpace after) :
      BehindMember rest [] (after ++ '\x7d' :: rest)
  | comma {after inner : List Char} {members : List Member} (space : IsSpace after)
      (more : HasMembers inner members) :
      BehindMember rest members (after ++ ',' :: (inner ++ '\x7d' :: rest))

section Member

variable {fields : List (Field σ)} {name : String} {partly : σ}
  {body value text colonSpace rest : List Char} {members : List Member}

theorem readColon_colon (space : IsSpace colonSpace) (rest : List Char) :
    readColon (colonSpace ++ ':' :: rest) = .ok rest := by
  rw [readColon, skipSpace_append space, skipSpace_cons rfl]
  rfl

/-- The value of a member that the record does not know is skipped. -/
theorem readMember_unknown (unknown : fields.find? (·.key = name) = none) (isValue : IsValue value)
    (behind : BehindKey value rest text) :
    readMember fields name partly text = .ok (partly, rest) := by
  obtain ⟨colonSpaces, space, ends⟩ := behind
  rw [readMember, unknown]
  simp only [readColon_colon colonSpaces, skipValue_value isValue space ends]

/-- A field that is there already is a fault right after its key. -/
theorem readMember_repeated {field : Field σ} (found : fields.find? (·.key = name) = some field)
    (isSet : field.isSet partly = true) :
    readMember fields name partly text = .error .mistyped := by
  rw [readMember, found]
  simp only [isSet, if_true]

/-- A field that is not there yet is filled from the value. -/
theorem readMember_open {field : Field σ} (found : fields.find? (·.key = name) = some field)
    (isOpen : field.isSet partly = false) (behind : BehindKey value rest text) :
    ∃ before, IsSpace before ∧ EndsNumber rest ∧
      readMember fields name partly text = field.fill partly (before ++ (value ++ rest)) := by
  obtain @⟨_, before, colonSpaces, space, ends⟩ := behind
  refine ⟨before, space, ends, ?_⟩
  rw [readMember, found]
  simp only [isOpen, Bool.false_eq_true, if_false, readColon_colon colonSpaces]

/-- The closing bracket ends the object. -/
theorem readMembers_closing {after : List Char} (space : IsSpace after) (isFirst : Bool)
    (fuel : Nat) (partly : σ) (rest : List Char) :
    readMembers fields (fuel + 1) isFirst partly (after ++ '\x7d' :: rest) =
      .ok (partly, rest) := by
  rw [readMembers, nextKey, skipSpace_append space, skipSpace_cons rfl]
  rfl

/-- Members start with the quote of a key. -/
theorem HasMembers.skipSpace_eq {inner : List Char} (has : HasMembers inner members)
    (rest : List Char) : ∃ more, skipSpace (inner ++ rest) = '"' :: more := by
  have starts {body value text : List Char} (member : KeyAndValue body value text)
      (rest : List Char) : ∃ more, skipSpace (text ++ rest) = '"' :: more := by
    obtain @⟨_, _, @⟨beforeKey, _, frontKey, _⟩, _⟩ := member
    simp only [inQuotes, List.append_assoc, List.cons_append, skipSpace_append frontKey]
    exact ⟨_, skipSpace_cons rfl⟩
  cases has with
  | last _ _ member => exact starts member rest
  | next _ _ member _ =>
      rw [List.append_assoc]
      exact starts member _

/-- Behind a comma the next member is read like the first one. -/
theorem readMembers_comma {after inner : List Char} (space : IsSpace after)
    (has : HasMembers inner members) (fuel : Nat) (partly : σ) (rest : List Char) :
    readMembers fields fuel false partly (after ++ ',' :: (inner ++ rest)) =
      readMembers fields fuel true partly (inner ++ rest) := by
  cases fuel with
  | zero => rfl
  | succ fuel =>
      obtain ⟨more, starts⟩ := has.skipSpace_eq rest
      have first : nextKey true (inner ++ rest) = .ok (some more, []) := by
        rw [nextKey, starts]
        rfl
      have next : nextKey false (after ++ ',' :: (inner ++ rest)) = .ok (some more, []) := by
        rw [nextKey, skipSpace_append space, skipSpace_cons rfl]
        simp [starts]
      rw [readMembers, readMembers, first, next]

/-- What the first member of an object comes to, before the others are read. -/
theorem readMembers_keyAndValue (fields : List (Field σ)) (spells : Spells body name.toList)
    (member : KeyAndValue body value text) :
    ∃ colonSpace before after, IsSpace colonSpace ∧ IsSpace before ∧ IsSpace after ∧
      ∀ fuel partly rest, readMembers fields (fuel + 1) true partly (text ++ rest) =
        (readMember fields name partly
            (colonSpace ++ ':' :: (before ++ (value ++ (after ++ rest))))).bind
          fun found => readMembers fields fuel false found.1 found.2 := by
  obtain @⟨_, _, @⟨beforeKey, colonSpace, frontKey, backKey⟩, @⟨before, after, front, back⟩⟩ :=
    member
  refine ⟨colonSpace, before, after, backKey, front, back, fun fuel partly rest => ?_⟩
  have key : nextKey true (beforeKey ++ inQuotes body ++ colonSpace ++
      ':' :: (before ++ value ++ after) ++ rest) =
      .ok (some (body ++ '"' ::
        (colonSpace ++ ':' :: (before ++ (value ++ (after ++ rest))))), []) := by
    simp only [inQuotes, List.append_assoc, List.cons_append, List.nil_append, nextKey,
      skipSpace_append frontKey]
    rw [skipSpace_cons rfl]
    rfl
  rw [readMembers, key]
  simp only [readString_spelled spells, String.ofList_toList]
  cases readMember fields name partly
    (colonSpace ++ ':' :: (before ++ (value ++ (after ++ rest)))) with
  | error fault => rfl
  | ok found => rfl

/-- **Members are read one after another**: the next one from behind its key, the others from what
stands behind it. -/
theorem BehindMember.readMembers_cons (fields : List (Field σ))
    (behind : BehindMember rest ((name, value) :: members) text) :
    IsValue value ∧ ∃ later more, BehindKey value more later ∧ BehindMember rest members more ∧
      ∀ fuel partly, readMembers fields (fuel + 1) false partly text =
        (readMember fields name partly later).bind
          fun found => readMembers fields fuel false found.1 found.2 := by
  cases behind with
  | comma space has =>
      cases has with
      | last spells isValue member =>
          obtain ⟨colonSpace, before, after, colonSpaces, front, back, first⟩ :=
            readMembers_keyAndValue fields spells member
          refine ⟨isValue, _, _, .mk colonSpaces front (endsNumber_closing back (.inr (.inr rfl))),
            .closing back, fun fuel partly => ?_⟩
          rw [readMembers_comma space (.last spells isValue member), first]
      | next spells isValue member more =>
          obtain ⟨colonSpace, before, after, colonSpaces, front, back, first⟩ :=
            readMembers_keyAndValue fields spells member
          refine ⟨isValue, _, _, .mk colonSpaces front (endsNumber_closing back (.inl rfl)),
            .comma back more, fun fuel partly => ?_⟩
          rw [readMembers_comma space (.next spells isValue member more), List.append_assoc,
            List.cons_append, first]

theorem BehindMember.readMembers_nil (behind : BehindMember rest [] text) (fuel : Nat)
    (partly : σ) : readMembers fields (fuel + 1) false partly text = .ok (partly, rest) := by
  cases behind with
  | closing space => exact readMembers_closing space false fuel partly rest
  | comma _ more => cases more

end Member

/-! ## Filling the fields -/

section Slots

variable {slots : List (Slot σ β)} {reader : Reader β} {name : String}
  {value text rest : List Char} {members : List Member}

/-- The field for a key is the one with that key. -/
theorem find?_field (reader : Reader β) (slots : List (Slot σ β)) (name : String) :
    (slots.map (Slot.field reader)).find? (·.key = name) =
      (slots.find? (·.key = name)).map (Slot.field reader) := by
  rw [List.find?_map]
  rfl

theorem AreApart.eq_of_key (apart : AreApart slots) {slot other : Slot σ β} (first : slot ∈ slots)
    (second : other ∈ slots) (same : slot.key = other.key) : slot = other :=
  List.inj_on_of_nodup_map apart.keys first second same

theorem fill_field {slot : Slot σ β} {partly : σ} {text rest : List Char} {content : β}
    (read : reader text = .ok (content, rest)) :
    (slot.field reader).fill partly text = .ok (slot.set partly content, rest) := by
  simp only [Slot.field, fieldOf, read]

theorem fill_field_eq_ok {slot : Slot σ β} {partly next : σ} {text rest : List Char}
    (filled : (slot.field reader).fill partly text = .ok (next, rest)) :
    ∃ content, reader text = .ok (content, rest) ∧ next = slot.set partly content := by
  simp only [Slot.field, fieldOf] at filled
  split at filled
  · rename_i content final read
    cases filled
    exact ⟨content, read, rfl⟩
  · cases filled

/-- What reading a member can come to, by the field with its key. -/
inductive MemberCase (slots : List (Slot σ β)) (reader : Reader β) (name : String) (partly : σ) :
    Prop where
  /-- There is no such field, and the value is skipped. -/
  | unknown (others : ∀ slot ∈ slots, slot.key ≠ name)
      (skipped : ∀ {value rest text}, IsValue value → BehindKey value rest text →
        readMember (slots.map (Slot.field reader)) name partly text = .ok (partly, rest))
  /-- The field is filled already, and the member is refused. -/
  | repeated (slot : Slot σ β) (member : slot ∈ slots) (isKey : slot.key = name) (held : β)
      (isHeld : slot.get partly = some held)
      (refused : ∀ text,
        readMember (slots.map (Slot.field reader)) name partly text = .error .mistyped)
  /-- The field is filled from the value. -/
  | fills (slot : Slot σ β) (member : slot ∈ slots) (isKey : slot.key = name)
      (isOpen : slot.get partly = none)
      (filled : ∀ {value rest text}, BehindKey value rest text →
        ∃ before, IsSpace before ∧ EndsNumber rest ∧
          readMember (slots.map (Slot.field reader)) name partly text =
            (slot.field reader).fill partly (before ++ (value ++ rest)))

theorem memberCase (slots : List (Slot σ β)) (reader : Reader β) (name : String) (partly : σ) :
    MemberCase slots reader name partly := by
  have field := find?_field reader slots name
  cases found : slots.find? (·.key = name) with
  | none =>
      rw [found] at field
      refine .unknown (fun slot member => ?_) (readMember_unknown field)
      simpa using List.find?_eq_none.mp found slot member
  | some slot =>
      rw [found] at field
      have member := List.mem_of_find?_eq_some found
      have isKey : slot.key = name := by simpa using List.find?_some found
      cases held : slot.get partly with
      | none =>
          have isOpen : (slot.field reader).isSet partly = false := congrArg Option.isSome held
          exact .fills slot member isKey held (readMember_open field isOpen)
      | some content =>
          have isSet : (slot.field reader).isSet partly = true := congrArg Option.isSome held
          exact .repeated slot member isKey content held fun _ => readMember_repeated field isSet

/-- What is still to come for a field: nothing if it is filled, else at most one value. -/
inductive Remaining (means : List Char → β → Prop) :
    Option β → List (List Char) → Option β → Prop where
  | filled (content : β) : Remaining means (some content) [] (some content)
  | open {values : List (List Char)} {content : Option β}
      (gives : List.Forall₂ means values content.toList) : Remaining means none values content

theorem Remaining.nil {means : List Char → β → Prop} {held content : Option β}
    (remaining : Remaining means held [] content) : held = content := by
  cases remaining with
  | filled => rfl
  | «open» gives =>
      cases content with
      | none => rfl
      | some _ => cases gives

theorem Remaining.cons {means : List Char → β → Prop} {held content : Option β}
    {values : List (List Char)} (remaining : Remaining means held (value :: values) content) :
    held = none ∧ ∃ found, means value found ∧ Remaining means (some found) values content := by
  cases remaining with
  | «open» gives =>
      cases content with
      | none => cases gives
      | some found =>
          obtain ⟨meant, others⟩ := List.forall₂_cons.mp gives
          obtain rfl := List.forall₂_nil_right_iff.mp others
          exact ⟨rfl, found, meant, .filled found⟩

variable {means : List Char → β → Prop} {content : String → Option β}

/-- **A member fills the field with its key**, or is skipped if there is none. -/
theorem readMember_remaining (apart : AreApart slots)
    (finds : ∀ value found, means value found → Finds reader value found) {partly : σ}
    (isValue : IsValue value) (behind : BehindKey value rest text)
    (remaining : ∀ slot ∈ slots, Remaining means (slot.get partly)
      (valuesFor slot.key ((name, value) :: members)) (content slot.key)) :
    ∃ next,
      (∀ slot ∈ slots,
        Remaining means (slot.get next) (valuesFor slot.key members) (content slot.key)) ∧
      readMember (slots.map (Slot.field reader)) name partly text = .ok (next, rest) := by
  cases memberCase slots reader name partly with
  | unknown others skipped =>
      refine ⟨partly, fun slot member => ?_, skipped isValue behind⟩
      have later := remaining slot member
      rwa [valuesFor_cons_other (others slot member)] at later
  | repeated slot member isKey held isHeld refused =>
      have here := remaining slot member
      rw [isKey, valuesFor_cons_same] at here
      rw [here.cons.1] at isHeld
      cases isHeld
  | fills slot member isKey isOpen filled =>
      subst isKey
      have here := remaining slot member
      rw [valuesFor_cons_same] at here
      obtain ⟨-, given, meant, others⟩ := here.cons
      refine ⟨slot.set partly given, fun other otherMember => ?_, ?_⟩
      · by_cases same : other.key = slot.key
        · obtain rfl := apart.eq_of_key otherMember member same
          rwa [apart.get_set other member]
        · have later := remaining other otherMember
          rw [valuesFor_cons_other same] at later
          rwa [apart.get_set_other slot member other otherMember same]
      · obtain ⟨before, space, ends, read⟩ := filled behind
        rw [read]
        exact fill_field (finds value given meant before rest space ends)

/-- **Whatever the order of the members, the fields are filled with what they give.** -/
theorem readMembers_given (apart : AreApart slots)
    (finds : ∀ value found, means value found → Finds reader value found)
    (behind : BehindMember rest members text) {fuel : Nat} (enough : members.length < fuel)
    {partly : σ} (remaining : ∀ slot ∈ slots,
      Remaining means (slot.get partly) (valuesFor slot.key members) (content slot.key)) :
    ∃ final, (∀ slot ∈ slots, slot.get final = content slot.key) ∧
      readMembers (slots.map (Slot.field reader)) fuel false partly text = .ok (final, rest) := by
  obtain ⟨fuel, rfl⟩ := Nat.exists_eq_add_one_of_ne_zero (Nat.ne_zero_of_lt enough)
  induction members generalizing text fuel partly with
  | nil =>
      exact ⟨partly, fun slot member => (remaining slot member).nil,
        behind.readMembers_nil fuel partly⟩
  | cons member members ih =>
      obtain ⟨isValue, later, more, here, others, first⟩ :=
        behind.readMembers_cons (slots.map (Slot.field reader))
      obtain ⟨next, stillRemaining, read⟩ := readMember_remaining apart finds isValue here remaining
      have enough := Nat.lt_of_succ_lt_succ enough
      obtain ⟨fuel, rfl⟩ := Nat.exists_eq_add_one_of_ne_zero (Nat.ne_zero_of_lt enough)
      obtain ⟨final, filled, othersRead⟩ := ih others stillRemaining fuel enough
      refine ⟨final, filled, ?_⟩
      rw [first, read]
      exact othersRead

/-! ## Fields that are given twice -/

/-- The number of values that a field has had by now, and of those that are to come. -/
def Slot.demand (slot : Slot σ β) (partly : σ) (members : List Member) : Nat :=
  (slot.get partly).toList.length + (valuesFor slot.key members).length

/-- Filling a field from the first member leaves every demand as it is. -/
theorem AreApart.demand_set (apart : AreApart slots) {slot other : Slot σ β} (member : slot ∈ slots)
    (otherMember : other ∈ slots) {partly : σ} (isOpen : slot.get partly = none) (found : β) :
    other.demand (slot.set partly found) members =
      other.demand partly ((slot.key, value) :: members) := by
  rw [Slot.demand, Slot.demand]
  by_cases same : other.key = slot.key
  · obtain rfl := apart.eq_of_key otherMember member same
    rw [apart.get_set other member, isOpen, valuesFor_cons_same]
    simp [Nat.add_comm]
  · rw [apart.get_set_other slot member other otherMember same, valuesFor_cons_other same]

theorem demand_of_other {slot : Slot σ β} (other : slot.key ≠ name) (partly : σ) :
    slot.demand partly ((name, value) :: members) = slot.demand partly members := by
  rw [Slot.demand, Slot.demand, valuesFor_cons_other other]

theorem demand_nil_le (slot : Slot σ β) (partly : σ) : slot.demand partly [] ≤ 1 := by
  rw [Slot.demand]
  cases slot.get partly <;> simp [valuesFor]

/-- A member that is read changes no demand, and is read up to its end. -/
theorem readMember_demand (members : List Member) (apart : AreApart slots)
    (stops : StopsBehind reader) {partly next : σ} {after : List Char} (isValue : IsValue value)
    (behind : BehindKey value rest text)
    (read : readMember (slots.map (Slot.field reader)) name partly text = .ok (next, after)) :
    after = rest ∧ ∀ slot ∈ slots,
      slot.demand next members = slot.demand partly ((name, value) :: members) := by
  cases memberCase slots reader name partly with
  | unknown others skipped =>
      rw [skipped isValue behind] at read
      cases read
      exact ⟨rfl, fun slot member => (demand_of_other (others slot member) partly).symm⟩
  | repeated slot member isKey held isHeld refused =>
      rw [refused] at read
      cases read
  | fills slot member isKey isOpen filled =>
      subst isKey
      obtain ⟨before, space, ends, fills⟩ := filled behind
      rw [fills] at read
      obtain ⟨found, reads, rfl⟩ := fill_field_eq_ok read
      exact ⟨stops value before rest found after isValue space ends reads,
        fun other otherMember => apart.demand_set member otherMember isOpen found⟩

theorem exists_of_bind_eq_ok {ε α γ : Type} {first : Except ε α} {further : α → Except ε γ}
    {result : γ} (bound : first.bind further = .ok result) :
    ∃ found, first = .ok found ∧ further found = .ok result := by
  cases first with
  | error fault => cases bound
  | ok found => exact ⟨found, rfl, bound⟩

/-- **An object that is read gives no more than one value for a field**, whatever the kinds of its
values are. -/
theorem readMembers_demand (apart : AreApart slots) (stops : StopsBehind reader)
    (behind : BehindMember rest members text) {fuel : Nat} {partly final : σ} {after : List Char}
    (read : readMembers (slots.map (Slot.field reader)) fuel false partly text =
      .ok (final, after)) :
    ∀ slot ∈ slots, slot.demand partly members ≤ 1 := by
  induction members generalizing text fuel partly with
  | nil => exact fun slot _ => demand_nil_le slot partly
  | cons member members ih =>
      obtain ⟨isValue, later, more, here, others, first⟩ :=
        behind.readMembers_cons (slots.map (Slot.field reader))
      cases fuel with
      | zero => cases read
      | succ fuel =>
          rw [first] at read
          obtain ⟨⟨next, left⟩, one, othersRead⟩ := exists_of_bind_eq_ok read
          obtain ⟨rfl, same⟩ := readMember_demand members apart stops isValue here one
          intro slot slotMember
          rw [← same slot slotMember]
          exact ih others othersRead slot slotMember

/-- A member of the wanted kind is refused if its field is filled. Else it changes no demand. -/
theorem readMember_typed (members : List Member) (apart : AreApart slots)
    (finds : ∀ value found, means value found → Finds reader value found) (partly : σ)
    (isValue : IsValue value) (behind : BehindKey value rest text)
    (typed : ∀ slot ∈ slots, slot.key = name → ∃ found, means value found) :
    readMember (slots.map (Slot.field reader)) name partly text = .error .mistyped ∨
      ∃ next, readMember (slots.map (Slot.field reader)) name partly text = .ok (next, rest) ∧
        ∀ slot ∈ slots,
          slot.demand next members = slot.demand partly ((name, value) :: members) := by
  cases memberCase slots reader name partly with
  | repeated slot member isKey held isHeld refused => exact .inl (refused text)
  | unknown others skipped =>
      exact .inr ⟨partly, skipped isValue behind,
        fun slot member => (demand_of_other (others slot member) partly).symm⟩
  | fills slot member isKey isOpen filled =>
      obtain ⟨found, meant⟩ := typed slot member isKey
      subst isKey
      obtain ⟨before, space, ends, read⟩ := filled behind
      refine .inr ⟨slot.set partly found, ?_,
        fun other otherMember => apart.demand_set member otherMember isOpen found⟩
      rw [read]
      exact fill_field (finds value found meant before rest space ends)

/-- **A second value for a field is refused right after its key**, if the values for fields are of
the wanted kind. -/
theorem readMembers_mistyped (apart : AreApart slots)
    (finds : ∀ value found, means value found → Finds reader value found)
    (behind : BehindMember rest members text) {fuel : Nat} (enough : members.length < fuel)
    {partly : σ}
    (typed : ∀ member ∈ members, ∀ slot ∈ slots, slot.key = member.1 →
      ∃ found, means member.2 found)
    (twice : ∃ slot ∈ slots, 1 < slot.demand partly members) :
    readMembers (slots.map (Slot.field reader)) fuel false partly text = .error .mistyped := by
  obtain ⟨slot, slotMember, more⟩ := twice
  -- The demand stays too great from member to member, and at the end none could be, so some member
  -- is refused before.
  induction members generalizing text fuel partly with
  | nil => exact absurd (demand_nil_le slot partly) (Nat.not_le_of_gt more)
  | cons member members ih =>
      obtain ⟨isValue, later, _, here, others, first⟩ :=
        behind.readMembers_cons (slots.map (Slot.field reader))
      obtain ⟨typedFirst, typedOthers⟩ := List.forall_mem_cons.mp typed
      obtain ⟨fuel, rfl⟩ := Nat.exists_eq_add_one_of_ne_zero (Nat.ne_zero_of_lt enough)
      rw [first]
      rcases readMember_typed members apart finds partly isValue here typedFirst with
        refused | ⟨next, read, same⟩
      · rw [refused]
        rfl
      · rw [← same slot slotMember] at more
        rw [read]
        exact ih others (Nat.lt_of_succ_lt_succ enough) typedOthers more

/-! ## Whole texts -/

/-- A record that consists of the fields, none of which is there at first. -/
structure Record.Consists {α : Type} (record : Record σ α) (slots : List (Slot σ β))
    (reader : Reader β) : Prop where
  fields : record.fields = slots.map (Slot.field reader)
  apart : AreApart slots
  blank : ∀ slot ∈ slots, slot.get record.blank = none

/-- A member takes at least one character, so there is fuel for all members. -/
theorem HasMembers.length_le {inner : List Char} (has : HasMembers inner members) :
    members.length ≤ inner.length := by
  have positive {body value text : List Char} (member : KeyAndValue body value text) :
      1 ≤ text.length := by
    obtain ⟨-, -⟩ := member
    rw [List.length_append, List.length_cons]
    omega
  induction has with
  | last _ _ member => exact positive member
  | next _ _ member _ ih =>
      have := positive member
      rw [List.length_cons, List.length_append, List.length_cons]
      omega

section Texts

variable {α : Type} {record : Record σ α} {text : String}

/-- What stands behind the opening bracket of an object is read as if a comma had come before. -/
theorem IsObjectText.readMembers_eq (fields : List (Field σ)) (isText : IsObjectText text members) :
    ∃ front inner rest behind, IsSpace front ∧ IsSpace rest ∧
      text.toList = front ++ '\x7b' :: inner ∧ members.length < inner.length + 1 ∧
      BehindMember rest members behind ∧
      ∀ partly, readMembers fields (inner.length + 1) true partly inner =
        readMembers fields (inner.length + 1) false partly behind := by
  obtain @⟨object, isObject, padded⟩ := isText
  generalize text.toList = characters at padded ⊢
  obtain @⟨front, rest, space, back⟩ := padded
  cases isObject with
  | @empty inner inside =>
      refine ⟨front, inner ++ '\x7d' :: rest, rest, _, space, back, by simp, Nat.succ_pos _,
        .closing inside, fun partly => ?_⟩
      rw [readMembers_closing inside, readMembers_closing inside]
  | @full inner _ has =>
      have enough := has.length_le
      refine ⟨front, inner ++ '\x7d' :: rest, rest, _, space, back, by simp, ?_,
        .comma isSpace_nil has, fun partly => (readMembers_comma isSpace_nil has _ _ _).symm⟩
      rw [List.length_append]
      omega

/-- Reading an object comes to reading its members. -/
theorem decode_object (record : Record σ α) (isText : IsObjectText text members) :
    ∃ rest behind fuel, IsSpace rest ∧ BehindMember rest members behind ∧ members.length < fuel ∧
      ∀ read, readMembers record.fields fuel false record.blank behind = read →
        decode (readRecord record) text =
          match finishRecord record read with
          | .error fault => .error fault
          | .ok (value, rest) =>
              if (skipSpace rest).isEmpty then .ok value else .error .malformed := by
  obtain ⟨front, inner, rest, behind, space, back, isWhole, enough, isBehind, same⟩ :=
    isText.readMembers_eq record.fields
  refine ⟨rest, behind, inner.length + 1, back, isBehind, enough, ?_⟩
  rintro read rfl
  rw [decode, readRecord, isWhole, skipSpace_append space, skipSpace_cons rfl, ← same]
  rfl

theorem isEmpty_skipSpace {rest : List Char} (space : IsSpace rest) :
    (skipSpace rest).isEmpty = true := by
  have none := skipSpace_append space []
  rw [List.append_nil] at none
  rw [none]
  rfl

/-- **The fields of a record hold what an object gives for their keys**, and the record is made
from that. -/
theorem decode_given (consists : record.Consists slots reader)
    (finds : ∀ value found, means value found → Finds reader value found)
    (isText : IsObjectText text members)
    (gives : ∀ slot ∈ slots,
      List.Forall₂ means (valuesFor slot.key members) (content slot.key).toList) :
    ∃ final, (∀ slot ∈ slots, slot.get final = content slot.key) ∧
      ∀ made, record.complete final = some made → decode (readRecord record) text = .ok made := by
  obtain ⟨rest, behind, fuel, back, isBehind, enough, decoded⟩ := decode_object record isText
  have remaining : ∀ slot ∈ slots, Remaining means (slot.get record.blank)
      (valuesFor slot.key members) (content slot.key) := fun slot member => by
    rw [consists.blank slot member]
    exact .open (gives slot member)
  obtain ⟨final, holds, read⟩ :=
    readMembers_given consists.apart finds isBehind enough remaining
  refine ⟨final, holds, fun made complete => ?_⟩
  rw [← consists.fields] at read
  rw [decoded _ read]
  simp only [finishRecord, complete, isEmpty_skipSpace back, if_true]

/-- At first no field has had a value. -/
theorem Record.Consists.demand_blank (consists : record.Consists slots reader) {slot : Slot σ β}
    (member : slot ∈ slots) (members : List Member) :
    slot.demand record.blank members = (valuesFor slot.key members).length := by
  rw [Slot.demand, consists.blank slot member, Option.toList_none, List.length_nil, Nat.zero_add]

/-- **An object that gives two values for a field is not read**, whatever their kinds are. -/
theorem decode_repeated (consists : record.Consists slots reader) (stops : StopsBehind reader)
    (isText : IsObjectText text members) {slot : Slot σ β} (member : slot ∈ slots)
    (twice : 1 < (valuesFor slot.key members).length) :
    ∃ fault, decode (readRecord record) text = .error fault := by
  obtain ⟨rest, behind, fuel, -, isBehind, -, decoded⟩ := decode_object record isText
  cases read : readMembers record.fields fuel false record.blank behind with
  | error fault => exact ⟨fault, decoded _ read⟩
  | ok found =>
      rw [consists.fields] at read
      have once := readMembers_demand consists.apart stops isBehind read slot member
      rw [consists.demand_blank member] at once
      exact absurd twice (Nat.not_lt_of_le once)

/-- **It is called mistyped**, if all values for fields are of the wanted kind. -/
theorem decode_mistyped (consists : record.Consists slots reader)
    (finds : ∀ value found, means value found → Finds reader value found)
    (isText : IsObjectText text members)
    (typed : ∀ member ∈ members, ∀ slot ∈ slots, slot.key = member.1 →
      ∃ found, means member.2 found)
    {slot : Slot σ β} (member : slot ∈ slots)
    (twice : 1 < (valuesFor slot.key members).length) :
    decode (readRecord record) text = .error .mistyped := by
  obtain ⟨rest, behind, fuel, -, isBehind, enough, decoded⟩ := decode_object record isText
  rw [← consists.demand_blank member] at twice
  refine decoded (.error .mistyped) ?_
  rw [consists.fields]
  exact readMembers_mistyped consists.apart finds isBehind enough typed ⟨slot, member, twice⟩

end Texts

end Slots

end WasmWorkshop.Json
