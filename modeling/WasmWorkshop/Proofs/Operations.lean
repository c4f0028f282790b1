import WasmWorkshop.Blank
import WasmWorkshop.ModuleField
import WasmWorkshop.Proofs.Scoping

/-!
# Operations make faithful nodes

Whatever an instruction or a field of a module is made of, its text is read the way it was meant:
the words of a token are the ones it was put together from (`words_eq`), and a name is read off its
symbol (`symbolName?_sigil`). So each operation attaches the marks that its text calls for, and
makes a plain tree from plain operands (`Node.isPlain_call` and so on). Functions, and what may
hold them, make fields (`Node.isField_function`).

Names are free of blanks, parentheses and quotes (`IsName`). This is needed where a name shares a
token with other words, as in the header of a function.
-/

set_option autoImplicit false

namespace WasmWorkshop

/-! ## Names and words -/

/-- A name as operations take it. -/
def IsName (name : String) : Prop :=
  name ≠ "" ∧ ∀ character ∈ name.toList,
    isBlankChar character = false ∧ character ≠ '(' ∧ character ≠ ')' ∧ character ≠ '"'

instance (name : String) : Decidable (IsName name) :=
  @instDecidableAnd _ _ inferInstance (List.decidableBAll _ name.toList)

/-- A text that shows as one word. -/
def IsWord (text : String) : Prop :=
  ∀ character ∈ text.toList, character ≠ ' ' ∧ character ≠ '(' ∧ character ≠ ')'

instance (text : String) : Decidable (IsWord text) := List.decidableBAll _ text.toList

/-- The characters of a text that are no parentheses. -/
def unparenthesized (text : String) : List Char :=
  text.toList.filter fun character => character ≠ '(' && character ≠ ')'

theorem unparenthesized_append (first second : String) :
    unparenthesized (first ++ second) = unparenthesized first ++ unparenthesized second := by
  simp [unparenthesized]

theorem IsWord.unparenthesized_eq {text : String} (word : IsWord text) :
    unparenthesized text = text.toList := by
  rw [unparenthesized, List.filter_eq_self]
  intro character member
  simp [word character member]

theorem unparenthesized_intercalate {parts : List String}
    (eachWord : ∀ part ∈ parts, IsWord part) :
    unparenthesized (" ".intercalate parts) = [' '].intercalate (parts.map String.toList) := by
  induction parts with
  | nil => rfl
  | cons part rest ih =>
      obtain ⟨head, tail⟩ := List.forall_mem_cons.mp eachWord
      cases rest with
      | nil => simpa using head.unparenthesized_eq
      | cons next others =>
          rw [String.intercalate_cons_cons, unparenthesized_append, unparenthesized_append,
            head.unparenthesized_eq, ih tail]
          simp [unparenthesized]

/-- **The words of a token are those it was put together from**, wherever parentheses stand. -/
theorem words_eq {token : String} {parts : List String} (some : parts ≠ [])
    (eachWord : ∀ part ∈ parts, IsWord part)
    (visible : unparenthesized token = [' '].intercalate (parts.map String.toList)) :
    words token = parts := by
  have split : (unparenthesized token).splitOn ' ' = parts.map String.toList := by
    rw [visible]
    refine List.splitOn_intercalate ' ' ?_ (by simpa using some)
    intro characters member
    obtain ⟨part, inside, rfl⟩ := List.mem_map.mp member
    exact fun blank => (eachWord part inside ' ' blank).1 rfl
  change ((unparenthesized token).splitOn ' ').map String.ofList = parts
  rw [split, List.map_map]
  simp [Function.comp_def]

theorem words_of_isWord {text : String} (word : IsWord text) : words text = [text] := by
  refine words_eq (List.cons_ne_nil _ _) (List.forall_mem_singleton.mpr word) ?_
  rw [word.unparenthesized_eq]
  simp

@[simp] theorem symbolName?_sigil (name : String) : symbolName? (sigil name) = some name := by
  simp [symbolName?, sigil]

theorem IsName.isWord_sigil {name : String} (isName : IsName name) : IsWord (sigil name) := by
  intro character member
  simp only [sigil, String.toList_append, List.mem_append] at member
  rcases member with dollar | member
  · have same : character = '$' := by simpa using dollar
    subst same
    decide
  · obtain ⟨notBlank, notOpen, notClose, -⟩ := isName.2 character member
    refine ⟨?_, notOpen, notClose⟩
    rintro rfl
    exact absurd notBlank (by decide)

theorem ValueType.isWord_mnemonic (type : ValueType) : IsWord type.mnemonic := by
  cases type <;> decide

/-! ## Reading lines and headers -/

theorem lineMeaning_sigil {name : String} (isName : IsName name) :
    lineMeaning (sigil name) = .functionUse name := by
  simp [lineMeaning, words_of_isWord isName.isWord_sigil]

theorem lineMeaning_break {label : String} (isName : IsName label) :
    lineMeaning ("br " ++ sigil label) = .labelUse label := by
  have split : words ("br " ++ sigil label) = ["br", sigil label] := by
    refine words_eq (by simp) ?_ ?_
    · simp only [List.forall_mem_cons, List.not_mem_nil, false_implies, implies_true, and_true]
      exact ⟨by decide, isName.isWord_sigil⟩
    · rw [unparenthesized_append, isName.isWord_sigil.unparenthesized_eq]
      simp [unparenthesized]
  simp [lineMeaning, split]

/-- The constant part of an address is no symbol. -/
theorem lineMeaning_offset (offset : Nat) :
    lineMeaning ("offset=" ++ toString offset) = .other := by
  have keyword : IsWord "offset=" := by decide
  have word : IsWord ("offset=" ++ toString offset) := by
    intro character member
    rw [String.toList_append, List.mem_append] at member
    rcases member with fixed | digit
    · exact keyword character fixed
    · rw [Nat.toString_eq_repr, Nat.toList_repr] at digit
      have isDigit := Nat.isDigit_of_mem_toDigits (by decide) (by decide) digit
      refine ⟨?_, ?_, ?_⟩ <;> rintro rfl <;> exact absurd isDigit (by decide)
  have noName : symbolName? ("offset=" ++ toString offset) = none := by
    simp [symbolName?]
  simp only [lineMeaning, words_of_isWord word, noName, Option.map_none, Option.getD_none]

/-- What starts with a keyword and a symbol means what the keyword makes of the name. -/
theorem formMeaning_named {keyword : String} (noImport : keyword ≠ "import") (name : String)
    (rest : List String) :
    formMeaning (keyword :: sigil name :: rest) = namedFormMeaning keyword name := by
  unfold formMeaning
  split
  · rename_i same
    exact absurd (List.cons.inj same).1 noImport
  · rename_i same
    obtain ⟨rfl, rest⟩ := List.cons.inj same
    obtain ⟨rfl, -⟩ := List.cons.inj rest
    simp
  · rename_i noPair
    exact absurd rfl (noPair _ _ _)

theorem groupMeaning_named (keyword name : String) (tokens : List String) (operands : Nat) :
    groupMeaning (keyword :: sigil name :: tokens) operands =
      namedGroupMeaning keyword name tokens operands := by
  simp [groupMeaning]

/-! ## Instructions -/

namespace Node

/-- A group with one token in its header has no name. -/
theorem isPlain_ofGroup (keyword : String) {children : List Node}
    (plain : ∀ child ∈ children, child.IsPlain) : (ofGroup [keyword] children).IsPlain := by
  have noName : groupMeaning [keyword] children.length = .other := rfl
  have group := IsPlain.group (by rw [noName]; rfl) plain
  rwa [noName] at group

/-- A form with one token has no name. -/
theorem isPlain_ofHeader (token : String) : (ofHeader [token]).IsPlain := by
  have meaning : formMeaning [token] = .other := by simp [formMeaning]
  have plain := IsPlain.form [token]
  rwa [meaning] at plain

/-- A group that starts with a keyword and a symbol, and does not open a function. -/
theorem isPlain_namedGroup (keyword : String) {name : String} (tokens : List String)
    {children : List Node}
    (noFunction :
      (namedGroupMeaning keyword name tokens children.length).isFunction = false)
    (plain : ∀ child ∈ children, child.IsPlain) :
    (Node.group (keyword :: sigil name :: tokens) children
      (namedGroupMeaning keyword name tokens children.length).marks).IsPlain := by
  rw [← groupMeaning_named] at noFunction ⊢
  exact .group noFunction plain

/-- A form that starts with a keyword and a symbol. -/
theorem isPlain_namedForm (keyword : String) (noImport : keyword ≠ "import") (name : String)
    (rest : List String) :
    (Node.form (keyword :: sigil name :: rest) (namedFormMeaning keyword name).marks).IsPlain := by
  rw [← formMeaning_named noImport name rest]
  exact .form _

section Operands

variable {operand first second third : Node}

theorem isPlain_one (plain : operand.IsPlain) : ∀ child ∈ [operand], child.IsPlain :=
  List.forall_mem_singleton.mpr plain

theorem isPlain_two (plainFirst : first.IsPlain) (plainSecond : second.IsPlain) :
    ∀ child ∈ [first, second], child.IsPlain :=
  List.forall_mem_cons.mpr ⟨plainFirst, isPlain_one plainSecond⟩

theorem isPlain_three (plainFirst : first.IsPlain) (plainSecond : second.IsPlain)
    (plainThird : third.IsPlain) : ∀ child ∈ [first, second, third], child.IsPlain :=
  List.forall_mem_cons.mpr ⟨plainFirst, isPlain_two plainSecond plainThird⟩

theorem isPlain_convert (source target : ValueType) (plain : operand.IsPlain) :
    (convert source target operand).IsPlain := by
  unfold convert
  cases source.conversion? target with
  | none => exact plain
  | some instruction => exact isPlain_ofGroup instruction (isPlain_one plain)

theorem isPlain_constant (type : ValueType) (value : Literal) : (constant type value).IsPlain :=
  isPlain_ofHeader _

theorem isPlain_declareLocal (name : String) (type : ValueType) :
    (declareLocal name type).IsPlain :=
  isPlain_namedForm "local" (by decide) name [type.mnemonic]

theorem isPlain_setVariable (kind : VariableKind) (name : String) (plain : operand.IsPlain) :
    (setVariable kind name operand).IsPlain := by
  cases kind with
  | localVariable =>
      exact isPlain_namedGroup "local.set" [] rfl (isPlain_one plain)
  | global => exact isPlain_namedGroup "global.set" [] rfl (isPlain_one plain)

theorem isPlain_getVariable (kind : VariableKind) (name : String) :
    (getVariable kind name).IsPlain := by
  cases kind with
  | localVariable => exact isPlain_namedForm "local.get" (by decide) name []
  | global => exact isPlain_namedForm "global.get" (by decide) name []

theorem isPlain_offsetLine (offset : Nat) : (offsetLine offset).IsPlain := by
  have plain := IsPlain.leaf ("offset=" ++ toString offset)
  rwa [lineMeaning_offset] at plain

theorem isPlain_store (type : ValueType) (offset : Nat) (plainAddress : first.IsPlain)
    (plainValue : second.IsPlain) : (store type offset first second).IsPlain :=
  isPlain_ofGroup _ (isPlain_three (isPlain_offsetLine offset) plainAddress plainValue)

theorem isPlain_load (type : ValueType) (offset : Nat) (plain : operand.IsPlain) :
    (load type offset operand).IsPlain :=
  isPlain_ofGroup _ (isPlain_two (isPlain_offsetLine offset) plain)

theorem isPlain_memorySize : memorySize.IsPlain := by
  have meaning : lineMeaning "memory.size" = .other := by decide
  have plain := IsPlain.leaf "memory.size"
  rwa [meaning] at plain

/-! ## Control -/

theorem isPlain_ifThen (result : Option ValueType) {condition : Node} {consequent : List Node}
    {alternative : Option (List Node)} (plainCondition : condition.IsPlain)
    (plainConsequent : ∀ node ∈ consequent, node.IsPlain)
    (plainAlternative : ∀ nodes ∈ alternative, ∀ node ∈ nodes, node.IsPlain) :
    (ifThen result condition consequent alternative).IsPlain := by
  have meaning (operands : Nat) : groupMeaning ("if" :: resultTokens result) operands = .other := by
    cases result with
    | none => rfl
    | some type => simp [groupMeaning, resultTokens, symbolName?]
  have whole (others : List Node) (plainOthers : ∀ node ∈ others, node.IsPlain) :
      (ofGroup ("if" :: resultTokens result)
        (condition :: ofGroup ["then"] consequent :: others)).IsPlain := by
    have children := List.forall_mem_cons.mpr ⟨plainCondition,
      List.forall_mem_cons.mpr ⟨isPlain_ofGroup "then" plainConsequent, plainOthers⟩⟩
    have plain := IsPlain.group (by rw [meaning]; rfl) children
    rwa [meaning] at plain
  cases alternative with
  | none => exact whole [] (List.forall_mem_nil _)
  | some nodes =>
      exact whole [ofGroup ["else"] nodes]
        (isPlain_one (isPlain_ofGroup "else" (plainAlternative nodes rfl)))

theorem isPlain_labelled {keyword : String} (label : String) {children : List Node}
    (opens : keyword = "block" ∨ keyword = "loop") (plain : ∀ child ∈ children, child.IsPlain) :
    (labelled keyword label children).IsPlain := by
  rcases opens with rfl | rfl <;> exact isPlain_namedGroup _ [] rfl plain

theorem isPlain_breakTo {label : String} (isName : IsName label) : (breakTo label).IsPlain := by
  have plain := IsPlain.leaf ("br " ++ sigil label)
  rwa [lineMeaning_break isName] at plain

theorem isPlain_breakIf (label : String) (plain : operand.IsPlain) :
    (breakIf label operand).IsPlain :=
  isPlain_namedGroup "br_if" [] rfl (isPlain_one plain)

theorem isPlain_loopWhile (label : String) {body : List Node} (plainCondition : operand.IsPlain)
    (plainBody : ∀ node ∈ body, node.IsPlain) : (loopWhile label operand body).IsPlain :=
  isPlain_labelled label (.inr rfl)
    (List.forall_mem_append.mpr ⟨plainBody, isPlain_one (isPlain_breakIf label plainCondition)⟩)

theorem isPlain_returnVoid : returnVoid.IsPlain := isPlain_ofHeader "return"

/-- A call refers to what it names with the number of its operands. -/
theorem isPlain_call (name : String) {arguments : List Node}
    (plain : ∀ node ∈ arguments, node.IsPlain) : (call name arguments).IsPlain :=
  isPlain_namedGroup "call" [] rfl plain

end Operands

/-! ## Fields of a module -/

theorem importMeaning_token {name : String} (isName : IsName name) (params : List ValueType) :
    importMeaning (importToken name params) = .importedFunction name params.length := by
  cases params with
  | nil =>
      have split : words (importToken name []) = ["func", sigil name] := by
        refine words_eq (by simp) ?_ ?_
        · simp only [List.forall_mem_cons, List.not_mem_nil, false_implies, implies_true, and_true]
          exact ⟨by decide, isName.isWord_sigil⟩
        · simp only [importToken, unparenthesized_append, isName.isWord_sigil.unparenthesized_eq]
          simp [unparenthesized]
      simp [importMeaning, split]
  | cons type rest =>
      have mnemonics : ∀ word ∈ (type :: rest).map ValueType.mnemonic, IsWord word := by
        intro word member
        obtain ⟨other, -, rfl⟩ := List.mem_map.mp member
        exact other.isWord_mnemonic
      have split : words (importToken name (type :: rest)) =
          "func" :: sigil name :: "param" :: (type :: rest).map ValueType.mnemonic := by
        refine words_eq (by simp) ?_ ?_
        · exact List.forall_mem_cons.mpr ⟨by decide, List.forall_mem_cons.mpr
            ⟨isName.isWord_sigil, List.forall_mem_cons.mpr ⟨by decide, mnemonics⟩⟩⟩
        · simp only [importToken, unparenthesized_append, isName.isWord_sigil.unparenthesized_eq,
            unparenthesized_intercalate mnemonics]
          simp [unparenthesized]
      simp [importMeaning, split]

theorem isPlain_importFunction (library field : String) {name : String} (isName : IsName name)
    (params : List ValueType) : (importFunction library field name params).IsPlain := by
  have plain := IsPlain.form ["import", quoted library, quoted field, importToken name params]
  rwa [formMeaning, importMeaning_token isName] at plain

theorem isPlain_declareGlobal (isMutable : Bool) (name : String) (type : ValueType)
    {initial : Option Node} (plain : ∀ value ∈ initial, value.IsPlain) :
    (declareGlobal isMutable name type initial).IsPlain := by
  cases initial with
  | none => exact isPlain_namedForm "global" (by decide) name _
  | some value =>
      exact isPlain_namedGroup "global" [globalToken isMutable type] rfl
        (isPlain_one (plain value rfl))

theorem isPlain_table (name : String) (size : Nat) (elements : RefType) :
    (table name size elements).IsPlain :=
  isPlain_namedForm "table" (by decide) name [toString size, elements.mnemonic]

theorem isPlain_elementLine {name : String} (isName : IsName name) :
    (elementLine name).IsPlain := by
  have plain := IsPlain.leaf (sigil name)
  rwa [lineMeaning_sigil isName] at plain

theorem isPlain_elements {offset : Node} {names : List String} (plain : offset.IsPlain)
    (areNames : ∀ name ∈ names, IsName name) : (elements offset names).IsPlain := by
  refine isPlain_ofGroup "elem" (List.forall_mem_cons.mpr ⟨plain, ?_⟩)
  intro child member
  obtain ⟨name, inside, rfl⟩ := List.mem_map.mp member
  exact isPlain_elementLine (areNames name inside)

theorem isPlain_start (name : String) : (start name).IsPlain :=
  isPlain_namedForm "start" (by decide) name []

/-- A form whose second token is quoted or in parentheses has no name. -/
theorem isPlain_dataLiteral (offset : Nat) (bytes : List UInt8) :
    (dataLiteral offset bytes).IsPlain := by
  have plain := IsPlain.form ["data", "(i32.const " ++ toString offset ++ ")",
    quoted (escapeBytes bytes)]
  have meaning : formMeaning ["data", "(i32.const " ++ toString offset ++ ")",
      quoted (escapeBytes bytes)] = .other := by
    simp [formMeaning, symbolName?]
  rwa [meaning] at plain

theorem isPlain_export (name token : String) :
    (ofHeader ["export", quoted name, token]).IsPlain := by
  have plain := IsPlain.form ["export", quoted name, token]
  have meaning : formMeaning ["export", quoted name, token] = .other := by
    simp [formMeaning, symbolName?, quoted]
  rwa [meaning] at plain

/-- The memory after literals that are fields. -/
theorem isField_memory {literals : List Node} (fields : ∀ node ∈ literals, node.IsField)
    (size : Nat) : (memory literals size).IsField := by
  refine .fragment (List.forall_mem_append.mpr ⟨fields, List.forall_mem_cons.mpr ⟨.plain ?_,
    List.forall_mem_singleton.mpr (.plain (isPlain_export "memory" _))⟩⟩)
  exact isPlain_namedForm "memory" (by decide) "memory" [toString size]

/-- The memory after literals that are plain. -/
theorem isPlain_memory {literals : List Node} (plain : ∀ node ∈ literals, node.IsPlain)
    (size : Nat) : (memory literals size).IsPlain := by
  refine .fragment (List.forall_mem_append.mpr ⟨plain, List.forall_mem_cons.mpr ⟨?_,
    isPlain_one (isPlain_export "memory" _)⟩⟩)
  exact isPlain_namedForm "memory" (by decide) "memory" [toString size]

end Node

/-! ## Functions -/

/-- The names that a step gives. -/
def PrototypeStep.names : PrototypeStep → List String
  | .param name _ => [name]
  | .params entries => entries.map Prod.fst
  | .localVariable name _ => [name]
  | .localVariables entries => entries.map Prod.fst
  | .result _ => []
  | .hidden => []

namespace TypedNames

theorem names_insert_subset (names : TypedNames) (name : String) (type : ValueType) :
    (names.insert name type).names ⊆ name :: names.names := by
  have assigned (entries : List (String × ValueType)) :
      (assign name type entries).map Prod.fst ⊆ name :: entries.map Prod.fst := by
    induction entries with
    | nil => exact List.Subset.refl _
    | cons entry rest ih =>
        unfold assign
        split
        · exact List.subset_cons_self _ _
        · intro known member
          rcases List.mem_cons.mp member with rfl | later
          · exact List.mem_cons_of_mem _ List.mem_cons_self
          · rcases List.mem_cons.mp (ih later) with rfl | inside
            · exact List.mem_cons_self
            · exact List.mem_cons_of_mem _ (List.mem_cons_of_mem _ inside)
  exact assigned names.entries

theorem names_insertAll_subset (names : TypedNames) (entries : List (String × ValueType)) :
    (names.insertAll entries).names ⊆ entries.map Prod.fst ++ names.names := by
  induction entries generalizing names with
  | nil => exact List.Subset.refl _
  | cons entry rest ih =>
      intro known member
      rcases List.mem_append.mp (ih (names.insert entry.1 entry.2) member) with later | before
      · exact List.mem_append_left _ (List.mem_cons_of_mem _ later)
      · rcases List.mem_cons.mp (names_insert_subset names entry.1 entry.2 before) with
          rfl | inside
        · exact List.mem_append_left _ List.mem_cons_self
        · exact List.mem_append_right _ inside

end TypedNames

namespace Prototype

/-- Whatever holds of the names that a step gives, and of those that were there, holds of the names
after the step. -/
theorem names_apply {good : String → Prop} {prototype : Prototype} {step : PrototypeStep}
    (stepGood : ∀ name ∈ step.names, good name)
    (paramsGood : ∀ name ∈ prototype.params.names, good name)
    (localsGood : ∀ name ∈ prototype.locals.names, good name) :
    (∀ name ∈ (prototype.apply step).params.names, good name) ∧
      ∀ name ∈ (prototype.apply step).locals.names, good name := by
  have extended {names : TypedNames} (namesGood : ∀ name ∈ names.names, good name)
      {after : List String} (subset : after ⊆ step.names ++ names.names) :
      ∀ name ∈ after, good name :=
    fun name member => List.forall_mem_append.mpr ⟨stepGood, namesGood⟩ name (subset member)
  cases step with
  | param name type =>
      exact ⟨extended paramsGood (TypedNames.names_insert_subset _ _ _), localsGood⟩
  | params entries =>
      exact ⟨extended paramsGood (TypedNames.names_insertAll_subset _ _), localsGood⟩
  | localVariable name type =>
      exact ⟨paramsGood, extended localsGood (TypedNames.names_insert_subset _ _ _)⟩
  | localVariables entries =>
      exact ⟨paramsGood, extended localsGood (TypedNames.names_insertAll_subset _ _)⟩
  | result type => exact ⟨paramsGood, localsGood⟩
  | hidden => exact ⟨paramsGood, localsGood⟩

/-- **Whatever holds of all names that steps give** holds of the names in the prototype that they
make. -/
theorem names_ofSteps {good : String → Prop} (name : String) {steps : List PrototypeStep}
    (each : ∀ step ∈ steps, ∀ name ∈ step.names, good name) :
    (∀ known ∈ (ofSteps name steps).params.names, good known) ∧
      ∀ known ∈ (ofSteps name steps).locals.names, good known := by
  have applied (prototype : Prototype)
      (namesGood : (∀ known ∈ prototype.params.names, good known) ∧
        ∀ known ∈ prototype.locals.names, good known) :
      (∀ known ∈ (steps.foldl apply prototype).params.names, good known) ∧
        ∀ known ∈ (steps.foldl apply prototype).locals.names, good known := by
    induction steps generalizing prototype with
    | nil => exact namesGood
    | cons step rest ih =>
        obtain ⟨head, tail⟩ := List.forall_mem_cons.mp each
        exact ih tail _ (names_apply head namesGood.1 namesGood.2)
  exact applied _ ⟨List.forall_mem_nil _, List.forall_mem_nil _⟩

theorem name_ofSteps (name : String) (steps : List PrototypeStep) :
    (ofSteps name steps).name = name := by
  have applied (prototype : Prototype) :
      (steps.foldl apply prototype).name = prototype.name := by
    induction steps generalizing prototype with
    | nil => rfl
    | cons step rest ih =>
        rw [List.foldl_cons, ih]
        cases step <;> rfl
  exact applied (ofName name)

end Prototype

/-- All names in a list of typed names are names. -/
def TypedNames.AreNames (names : TypedNames) : Prop := ∀ name ∈ names.names, IsName name

/-- All names that a step gives are names. -/
def PrototypeStep.IsNamed : PrototypeStep → Prop
  | .param name _ => IsName name
  | .params entries => ∀ entry ∈ entries, IsName entry.1
  | .localVariable name _ => IsName name
  | .localVariables entries => ∀ entry ∈ entries, IsName entry.1
  | .result _ => True
  | .hidden => True

theorem PrototypeStep.IsNamed.names {step : PrototypeStep} (named : step.IsNamed) :
    ∀ name ∈ step.names, IsName name := by
  cases step with
  | param name type => exact List.forall_mem_singleton.mpr named
  | params entries => exact List.forall_mem_map.mpr named
  | localVariable name type => exact List.forall_mem_singleton.mpr named
  | localVariables entries => exact List.forall_mem_map.mpr named
  | result type => exact List.forall_mem_nil _
  | hidden => exact List.forall_mem_nil _

/-- The names in the header of a prototype are names. -/
structure Prototype.IsNamed (prototype : Prototype) : Prop where
  params : prototype.params.AreNames
  locals : prototype.locals.AreNames

theorem Prototype.isNamed_ofSteps (name : String) {steps : List PrototypeStep}
    (each : ∀ step ∈ steps, step.IsNamed) : (Prototype.ofSteps name steps).IsNamed := by
  obtain ⟨params, locals⟩ :=
    Prototype.names_ofSteps name fun step member => (each step member).names
  exact ⟨params, locals⟩

theorem words_typedName {keyword name : String} (word : IsWord keyword) (isName : IsName name)
    (type : ValueType) :
    words ("(" ++ keyword ++ " " ++ sigil name ++ " " ++ type.mnemonic ++ ")") =
      [keyword, sigil name, type.mnemonic] := by
  refine words_eq (by simp) ?_ ?_
  · simp only [List.forall_mem_cons, List.not_mem_nil, false_implies, implies_true, and_true]
    exact ⟨word, isName.isWord_sigil, type.isWord_mnemonic⟩
  · simp only [unparenthesized_append, word.unparenthesized_eq,
      isName.isWord_sigil.unparenthesized_eq, type.isWord_mnemonic.unparenthesized_eq]
    simp [unparenthesized]

/-- The names of a list are read off its tokens, by its own keyword only. -/
theorem namesAfter_tokens {names : TypedNames} (areNames : names.AreNames) {keyword : String}
    (word : IsWord keyword) (wanted : String) :
    namesAfter wanted (names.tokens keyword) = if keyword = wanted then names.names else [] := by
  obtain ⟨entries⟩ := names
  induction entries with
  | nil => simp [namesAfter, TypedNames.tokens, TypedNames.names]
  | cons entry rest ih =>
      obtain ⟨head, tail⟩ := List.forall_mem_cons.mp areNames
      have below := ih tail
      simp only [namesAfter, TypedNames.tokens, TypedNames.names] at below ⊢
      rw [List.map_cons, List.filterMap_cons, words_typedName word head, below]
      by_cases same : keyword = wanted <;> simp [same]

theorem namesAfter_result (keyword : String) (result : Option ValueType) :
    namesAfter keyword (Node.resultTokens result) = [] := by
  cases result with
  | none => rfl
  | some type =>
      have split : words ("(result " ++ type.mnemonic ++ ")") = ["result", type.mnemonic] := by
        cases type <;> decide
      simp [namesAfter, Node.resultTokens, split]

namespace Node

theorem groupMeaning_function {prototype : Prototype} (named : prototype.IsNamed)
    (operands : Nat) :
    groupMeaning (functionHeader prototype) operands =
      .function prototype.name prototype.params.names prototype.locals.names := by
  have header : functionHeader prototype = "func" :: sigil prototype.name ::
      (prototype.params.tokens "param" ++ prototype.locals.tokens "local" ++
        resultTokens prototype.result) := rfl
  have read (keyword : String) : namesAfter keyword (prototype.params.tokens "param" ++
      prototype.locals.tokens "local" ++ resultTokens prototype.result) =
        namesAfter keyword (prototype.params.tokens "param") ++
          namesAfter keyword (prototype.locals.tokens "local") := by
    have rest := namesAfter_result keyword prototype.result
    unfold namesAfter at rest ⊢
    rw [List.filterMap_append, List.filterMap_append, rest, List.append_nil]
  rw [header, groupMeaning_named, namedGroupMeaning, if_pos rfl, read, read,
    namesAfter_tokens named.params (by decide), namesAfter_tokens named.locals (by decide),
    namesAfter_tokens named.params (by decide), namesAfter_tokens named.locals (by decide)]
  simp

/-- **A function declares what its header says**, in the scope of its body. -/
theorem isField_function {prototype : Prototype} (named : prototype.IsNamed) {body : List Node}
    (plain : ∀ node ∈ body, node.IsPlain) : (function prototype body).IsField := by
  have definition := IsField.function (groupMeaning_function named body.length) plain
  have size : prototype.params.size = prototype.params.names.length := by
    simp [TypedNames.size, TypedNames.names]
  rw [Meaning.marks, ← size] at definition
  refine .fragment (List.forall_mem_cons.mpr ⟨definition, ?_⟩)
  split
  · exact List.forall_mem_singleton.mpr (.plain (isPlain_export prototype.name _))
  · exact List.forall_mem_nil _

end Node

end WasmWorkshop
