import WasmWorkshop.Proofs.ObjectFields

/-!
# Objects give the fields of tool chains and layout options

A tool chain or layout options are read from any object whose known fields are there at most once
each, with values of their kind: the result is the standard one with just the given fields replaced,
whatever the order of the members is and whatever other members there are (`ReadsObjects.given`). A
field that is there twice is a fault (`ReadsObjects.repeated`), also if the second key is spelled in
another way. Other members have to be JSON and nothing more, so their values may be nested, may be
numbers that are too large for any type, and may hold surrogates without a partner.
-/

set_option autoImplicit false

namespace WasmWorkshop.Json

open Handoff (Toolchain)

variable {α β σ : Type}

/-! ## Reading objects -/

/-- The members give the contents of the fields: at most one value for each key, of the wanted
kind. -/
def GivesFields (keys : List String) (means : List Char → β → Prop) (members : List Member)
    (content : String → Option β) : Prop :=
  ∀ key ∈ keys, List.Forall₂ means (valuesFor key members) (content key).toList

/-- How a decoder reads objects with fields under the given keys. -/
structure ReadsObjects (decoder : String → Except Fault α) (keys : List String)
    (means : List Char → β → Prop) (assemble : (String → Option β) → α) : Prop where
  /-- The fields that are given make the value. -/
  given : ∀ text members content, IsObjectText text members →
    GivesFields keys means members content → decoder text = .ok (assemble content)
  /-- Objects that give the same fields are read as the same value. -/
  same : ∀ text other members others content, IsObjectText text members →
    IsObjectText other others → GivesFields keys means members content →
    GivesFields keys means others content →
    ∃ value, decoder text = .ok value ∧ decoder other = .ok value
  /-- A field that is given twice is a fault, whatever its values are. -/
  repeated : ∀ text members, IsObjectText text members →
    (∃ key ∈ keys, 1 < (valuesFor key members).length) → ∃ fault, decoder text = .error fault
  /-- If all fields have values of the wanted kind, the text is mistyped then. -/
  refused : ∀ text members, IsObjectText text members →
    (∀ member ∈ members, member.1 ∈ keys → ∃ found, means member.2 found) →
    (∃ key ∈ keys, 1 < (valuesFor key members).length) → decoder text = .error .mistyped

/-- A record reads objects if it makes its value from the contents of its fields alone. -/
theorem readsObjects_record {record : Record σ α} {slots : List (Slot σ β)} {reader : Reader β}
    {means : List Char → β → Prop} {assemble : (String → Option β) → α}
    (consists : record.Consists slots reader)
    (finds : ∀ value found, means value found → Finds reader value found)
    (stops : StopsBehind reader)
    (complete : ∀ final content, (∀ slot ∈ slots, slot.get final = content slot.key) →
      record.complete final = some (assemble content)) :
    ReadsObjects (decode (readRecord record)) (slots.map Slot.key) means assemble := by
  have given : ∀ text members content, IsObjectText text members →
      GivesFields (slots.map Slot.key) means members content →
      decode (readRecord record) text = .ok (assemble content) := by
    intro text members content isText gives
    obtain ⟨final, holds, made⟩ := decode_given consists finds isText fun slot member =>
      gives slot.key (List.mem_map_of_mem member)
    exact made _ (complete final content holds)
  refine ⟨given, ?_, ?_, ?_⟩
  · intro text other members others content isText isOther gives givesOther
    exact ⟨assemble content, given text members content isText gives,
      given other others content isOther givesOther⟩
  · rintro text members isText ⟨key, isKey, twice⟩
    obtain ⟨slot, member, rfl⟩ := List.mem_map.mp isKey
    exact decode_repeated consists stops isText member twice
  · rintro text members isText typed ⟨key, isKey, twice⟩
    obtain ⟨slot, member, rfl⟩ := List.mem_map.mp isKey
    refine decode_mistyped consists finds isText (fun one isMember other otherMember same => ?_)
      member twice
    exact typed one isMember (same ▸ List.mem_map_of_mem otherMember)

/-! ## Tool chains -/

/-- The fields of a tool chain. -/
def toolchainSlots : List (Slot PartialToolchain String) :=
  [⟨"compiler", (·.compiler), fun partly value => { partly with compiler := some value }⟩,
   ⟨"output_flag", (·.outputFlag), fun partly value => { partly with outputFlag := some value }⟩,
   ⟨"text_extension", (·.textExtension),
    fun partly value => { partly with textExtension := some value }⟩,
   ⟨"binary_extension", (·.binaryExtension),
    fun partly value => { partly with binaryExtension := some value }⟩]

/-- The standard tool chain with the given fields in place of its own. -/
def toolchainWith (given : String → Option String) : Toolchain where
  compiler := (given "compiler").getD ({} : Toolchain).compiler
  outputFlag := (given "output_flag").getD ({} : Toolchain).outputFlag
  textExtension := (given "text_extension").getD ({} : Toolchain).textExtension
  binaryExtension := (given "binary_extension").getD ({} : Toolchain).binaryExtension

theorem areApart_toolchainSlots : AreApart toolchainSlots where
  keys := by decide
  get_set := by simp [toolchainSlots]
  get_set_other := by simp [toolchainSlots]

theorem consists_toolchain : toolchainRecord.Consists toolchainSlots readText where
  fields := rfl
  apart := areApart_toolchainSlots
  blank := by simp [toolchainSlots, toolchainRecord]

theorem readsObjects_toolchain :
    ReadsObjects decodeToolchain
      ["compiler", "output_flag", "text_extension", "binary_extension"] GivesText toolchainWith :=
  readsObjects_record consists_toolchain (fun _ _ => finds_text) stopsBehind_text
    fun final content holds => by
      simp only [toolchainSlots, List.forall_mem_cons] at holds
      obtain ⟨compiler, outputFlag, textExtension, binaryExtension, -⟩ := holds
      simp only [toolchainRecord, PartialToolchain.complete, toolchainWith, compiler, outputFlag,
        textExtension, binaryExtension]

/-! ## Layout options -/

/-- The field of layout options. -/
def layoutOptionsSlots : List (Slot PartialLayoutOptions Nat) :=
  [⟨"indent_width", (·.indentWidth), fun partly value => { partly with indentWidth := some value }⟩]

/-- The standard layout options with the given field in place of their own. -/
def layoutOptionsWith (given : String → Option Nat) : LayoutOptions where
  indentWidth := (given "indent_width").getD ({} : LayoutOptions).indentWidth

/-- The value is a natural number of 64 bits. -/
def GivesLong (value : List Char) (number : Nat) : Prop :=
  GivesNatural value number ∧ number < longRange

theorem areApart_layoutOptionsSlots : AreApart layoutOptionsSlots where
  keys := by decide
  get_set := by simp [layoutOptionsSlots]
  get_set_other := by simp [layoutOptionsSlots]

theorem consists_layoutOptions :
    layoutOptionsRecord.Consists layoutOptionsSlots (readNatural longRange) where
  fields := rfl
  apart := areApart_layoutOptionsSlots
  blank := by simp [layoutOptionsSlots, layoutOptionsRecord]

theorem readsObjects_layoutOptions :
    ReadsObjects (decode readLayoutOptions) ["indent_width"] GivesLong layoutOptionsWith :=
  readsObjects_record consists_layoutOptions
    (fun _ _ gives => finds_natural gives.1 gives.2 (Nat.le_refl longRange))
    (stopsBehind_natural longRange)
    fun final content holds => by
      simp only [layoutOptionsSlots, List.forall_mem_cons] at holds
      simp only [layoutOptionsRecord, layoutOptionsWith, holds.1]

/-! ## Both -/

/-- **Tool chains and layout options are read from any object that gives each of their fields at
most once**: what it gives replaces the standard value, the order of the members and all others are
of no account, and a field that is given twice is a fault. -/
theorem records_given_by_objects :
    ReadsObjects decodeToolchain
        ["compiler", "output_flag", "text_extension", "binary_extension"] GivesText toolchainWith ∧
      ReadsObjects (decode readLayoutOptions) ["indent_width"] GivesLong layoutOptionsWith :=
  ⟨readsObjects_toolchain, readsObjects_layoutOptions⟩

/-- A part without space around it. -/
theorem padded_bare (part : List Char) : Padded part part := by
  have padded := @Padded.mk part [] [] isSpace_nil isSpace_nil
  rwa [List.nil_append, List.append_nil] at padded

/-- Two fields in another order than their own, with a member between them that no type could hold;
and a field that is given twice, under two spellings of its key. -/
theorem records_given_by_objects_spelled :
    decodeToolchain
      "\x7b\"output_flag\":\"\",\"x\":[\x7b\"\":\"\\ud800\"\x7d],\"compiler\":\"\\u0063\"\x7d" =
        .ok ⟨"c", "", "wat", "wasm"⟩ ∧
      decode readLayoutOptions "\x7b\"indent_width\":2,\"\\u0069ndent_width\":3\x7d" =
        .error .mistyped := by
  have keyed (body value : List Char) :
      KeyAndValue body value (inQuotes body ++ ':' :: value) :=
    .mk (padded_bare _) (padded_bare value)
  have named (name : String) : Spells (name.toList.flatMap writeChar) name.toList :=
    spells_flatMap_writeChar name.toList
  constructor
  · have code : IsCode ['0', '0', '6', '3'] _ := .digits rfl rfl rfl rfl
    have lone : IsCode ['d', '8', '0', '0'] _ := .digits rfl rfl rfl rfl
    have compiler : GivesText (inQuotes ['\\', 'u', '0', '0', '6', '3']) "c" :=
      ⟨.cons (.code code (.inl (by decide))) .nil⟩
    have inner := IsValue.object (.last .nil (.string (.cons (.code lone) .nil)) (keyed _ _))
    have unknown := IsValue.array (.last inner (padded_bare _))
    have members := HasMembers.next (named "output_flag") (.string .nil) (keyed _ _)
      (.next (named "x") unknown (keyed _ _)
        (.last (named "compiler") (.string (.cons (.code code) .nil)) (keyed _ _)))
    refine records_given_by_objects.1.given _ _ (fun key => if key = "compiler" then some "c" else
      if key = "output_flag" then some "" else none) (.mk (.full members) (padded_bare _)) ?_
    simp only [GivesFields, List.forall_mem_cons]
    exact ⟨.cons compiler .nil, .cons ⟨.nil⟩ .nil, .nil, .nil, fun _ none => nomatch none⟩
  · have code : IsCode ['0', '0', '6', '9'] _ := .digits rfl rfl rfl rfl
    have again : Spells _ "indent_width".toList :=
      .cons (.code code (.inl (by decide))) (named "ndent_width")
    have two : IsWhole ['2'] :=
      .inr ⟨⟨List.cons_ne_nil _ _, List.forall_mem_singleton.mpr rfl⟩, by decide⟩
    have three : IsWhole ['3'] :=
      .inr ⟨⟨List.cons_ne_nil _ _, List.forall_mem_singleton.mpr rfl⟩, by decide⟩
    have members := HasMembers.next (named "indent_width") (.number two.isNumber) (keyed _ _)
      (.last again (.number three.isNumber) (keyed _ _))
    refine records_given_by_objects.2.refused _ _ (.mk (.full members) (padded_bare _)) ?_
      ⟨"indent_width", .head _, by decide⟩
    simp only [List.forall_mem_cons]
    exact ⟨fun _ => ⟨2, .mk two, by decide⟩, fun _ => ⟨3, .mk three, by decide⟩,
      fun _ none => nomatch none⟩

end WasmWorkshop.Json
