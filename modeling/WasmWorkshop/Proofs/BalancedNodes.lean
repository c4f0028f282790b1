import WasmWorkshop.ModuleField
import WasmWorkshop.Proofs.Parentheses

/-!
# Nodes of operations have balanced texts

Parentheses come into a module in two ways. The writer puts them around forms and groups, and some
operations put them into the tokens of a header, as in `(param $a i32)` or `(i32.const 16)`. Tokens
of the second kind are balanced by themselves (`isBalanced_importToken` and so on). All others have
no parentheses at all: mnemonics, symbols, numbers in any spelling, and the bytes of a data literal,
whose written form has none even if the bytes are parentheses (`lacksParentheses_escapeBytes`).

Nodes that are put together by operations, in any nesting, are those of `Node.IsBuilt`. Names, and
the free texts of constants, go into a header as they are, so they must not have parentheses. There
is one closure lemma for each operation, and from these all that is built has balanced texts
(`Node.IsBuilt.hasBalancedTexts`) and is balanced when it is rendered (`render_balanced`).
-/

set_option autoImplicit false

namespace WasmWorkshop

/-! ## Numbers -/

theorem lacksParentheses_natural (value : Nat) : LacksParentheses (toString value) := by
  intro character member
  rw [Nat.toString_eq_repr, Nat.toList_repr] at member
  have isDigit := Nat.isDigit_of_mem_toDigits (by decide) (by decide) member
  refine ⟨?_, ?_⟩ <;> rintro rfl <;> exact absurd isDigit (by decide)

theorem lacksParentheses_integer (value : Int) : LacksParentheses (toString value) := by
  cases value with
  | ofNat value => exact lacksParentheses_natural value
  | negSucc value =>
      exact lacksParentheses_append.mpr ⟨by decide, lacksParentheses_natural (value + 1)⟩

theorem lacksParentheses_zeros (count : Nat) : LacksParentheses ("".pushn '0' count) := by
  rw [LineWriter.pushn_eq_append]
  refine lacksParentheses_append.mpr ⟨by decide, ?_⟩
  intro character member
  rw [String.toList_ofList] at member
  rw [List.eq_of_mem_replicate member]
  decide

theorem Decimal.lacksParentheses_positional (decimal : Decimal) :
    LacksParentheses decimal.positional := by
  have digits := lacksParentheses_natural decimal.digits
  rw [Decimal.positional]
  cases decimal.place with
  | ofNat zeros => exact lacksParentheses_append.mpr ⟨digits, lacksParentheses_zeros zeros⟩
  | negSucc n =>
      have padded := lacksParentheses_append.mpr
        ⟨lacksParentheses_zeros (n + 1 + 1 - (toString decimal.digits).length), digits⟩
      refine lacksParentheses_append.mpr ⟨lacksParentheses_append.mpr ⟨?_, by decide⟩, ?_⟩
      · exact padded.of_subset (List.take_subset _ _)
      · exact padded.of_subset (List.drop_subset _ _)

theorem FloatFormat.lacksParentheses_text (format : FloatFormat) (bits : Nat) :
    LacksParentheses (format.text bits) := by
  have sign : LacksParentheses (if format.isNegative bits then "-" else "") := by
    split <;> decide
  rw [FloatFormat.text]
  cases format.magnitude bits with
  | nan => exact (by decide : LacksParentheses "NaN")
  | infinite => exact lacksParentheses_append.mpr ⟨sign, by decide⟩
  | zero => exact lacksParentheses_append.mpr ⟨sign, by decide⟩
  | finite coefficient exponent =>
      exact lacksParentheses_append.mpr ⟨sign, Decimal.lacksParentheses_positional _⟩

/-- If the value of a constant is free text, the text has no parentheses. -/
def Literal.TextLacksParentheses : Literal → Prop
  | .text value => LacksParentheses value
  | _ => True

namespace Literal.TextLacksParentheses

variable {literal : Literal}

theorem spelling (lacks : literal.TextLacksParentheses) : LacksParentheses literal.spelling := by
  cases literal with
  | integer value => exact lacksParentheses_integer value
  | double bits => exact FloatFormat.lacksParentheses_text _ _
  | single bits => exact FloatFormat.lacksParentheses_text _ _
  | truth value => cases value <;> decide
  | text value => exact lacks

theorem spellingAt (lacks : literal.TextLacksParentheses) (type : ValueType) :
    LacksParentheses (literal.spellingAt type) := by
  rw [Literal.spellingAt, floatSpelling]
  split_ifs
  · decide
  · decide
  · exact lacks.spelling
  · exact lacks.spelling

end Literal.TextLacksParentheses

/-! ## Mnemonics and symbols -/

theorem ValueType.lacksParentheses_mnemonic (type : ValueType) :
    LacksParentheses type.mnemonic := by
  cases type <;> decide

section Instructions

variable {operation : String}

theorem ValueType.lacksParentheses_instruction (type : ValueType)
    (lacks : LacksParentheses operation) : LacksParentheses (type.instruction operation) := by
  refine lacksParentheses_append.mpr ⟨?_, lacks⟩
  cases type <;> decide

theorem IntegerType.lacksParentheses_instruction (type : IntegerType)
    (lacks : LacksParentheses operation) : LacksParentheses (type.instruction operation) := by
  have wide := type.toValueType.lacksParentheses_instruction lacks
  cases type <;> exact wide

theorem FloatType.lacksParentheses_instruction (type : FloatType)
    (lacks : LacksParentheses operation) : LacksParentheses (type.instruction operation) := by
  have wide := type.toValueType.lacksParentheses_instruction lacks
  cases type <;> exact wide

theorem lacksParentheses_signed (type : ValueType) (lacks : LacksParentheses operation) :
    LacksParentheses (operation ++ signedSuffix type) := by
  refine lacksParentheses_append.mpr ⟨lacks, ?_⟩
  cases type <;> decide

end Instructions

theorem ValueType.lacksParentheses_conversion {source target : ValueType} {instruction : String}
    (converts : source.conversion? target = some instruction) : LacksParentheses instruction := by
  cases source <;> cases target <;> cases converts <;> decide

theorem BinaryOperator.lacksParentheses_mnemonic (operator : BinaryOperator) :
    LacksParentheses operator.mnemonic := by
  cases operator with
  | arithmetic operator type =>
      refine type.lacksParentheses_instruction ?_
      cases operator with
      | add => exact (by decide : LacksParentheses "add")
      | subtract => exact (by decide : LacksParentheses "sub")
      | multiply => exact (by decide : LacksParentheses "mul")
      | divide => exact lacksParentheses_signed type (by decide : LacksParentheses "div")
      | lessThan => exact lacksParentheses_signed type (by decide : LacksParentheses "lt")
      | greaterThan => exact lacksParentheses_signed type (by decide : LacksParentheses "gt")
      | lessThanOrEqualTo => exact lacksParentheses_signed type (by decide : LacksParentheses "le")
      | greaterThanOrEqualTo =>
          exact lacksParentheses_signed type (by decide : LacksParentheses "ge")
      | equalTo => exact (by decide : LacksParentheses "eq")
      | notEqualTo => exact (by decide : LacksParentheses "ne")
  | integer operator type =>
      refine type.lacksParentheses_instruction ?_
      cases operator <;> decide
  | float operator type =>
      refine type.lacksParentheses_instruction ?_
      cases operator <;> decide

theorem UnaryOperator.lacksParentheses_mnemonic (operator : UnaryOperator) :
    LacksParentheses operator.mnemonic := by
  cases operator with
  | integer operator type =>
      refine type.lacksParentheses_instruction ?_
      cases operator <;> decide
  | float operator type =>
      refine type.lacksParentheses_instruction ?_
      cases operator <;> decide
  | reinterpret source =>
      refine source.reinterpretationTarget.lacksParentheses_instruction ?_
      exact lacksParentheses_append.mpr ⟨by decide, source.lacksParentheses_mnemonic⟩

theorem VariableKind.lacksParentheses_instruction (kind : VariableKind) {operation : String}
    (lacks : LacksParentheses operation) : LacksParentheses (kind.family ++ operation) := by
  refine lacksParentheses_append.mpr ⟨?_, lacks⟩
  cases kind <;> decide

theorem RefType.lacksParentheses_mnemonic (type : RefType) : LacksParentheses type.mnemonic := by
  cases type <;> decide

theorem lacksParentheses_sigil {name : String} (lacks : LacksParentheses name) :
    LacksParentheses (sigil name) :=
  lacksParentheses_append.mpr ⟨by decide, lacks⟩

theorem lacksParentheses_quoted {text : String} (lacks : LacksParentheses text) :
    LacksParentheses (quoted text) :=
  lacksParentheses_append.mpr ⟨lacksParentheses_append.mpr ⟨by decide, lacks⟩, by decide⟩

/-- **No byte is written with a parenthesis**, the parentheses among the bytes included. -/
theorem lacksParentheses_escapeBytes (bytes : List UInt8) :
    LacksParentheses (escapeBytes bytes) := by
  have digits : ∀ value < 16, hexDigit value ≠ '(' ∧ hexDigit value ≠ ')' := by decide
  intro character member
  rw [escapeBytes, String.toList_ofList] at member
  obtain ⟨byte, -, written⟩ := List.mem_flatMap.mp member
  have below := byte.toNat_lt
  rcases List.mem_cons.mp written with rfl | isDigit
  · decide
  · rcases List.mem_pair.mp isDigit with rfl | rfl
    · exact digits _ (by omega)
    · exact digits _ (by omega)

/-! ## Tokens with parentheses -/

theorem isBalanced_importToken {name : String} (lacks : LacksParentheses name)
    (params : List ValueType) : IsBalanced (Node.importToken name params).toList := by
  have function : LacksParentheses ("func " ++ sigil name) :=
    lacksParentheses_append.mpr ⟨by decide, lacksParentheses_sigil lacks⟩
  cases params with
  | nil => exact isBalanced_token function.isBalanced (by simp [Node.importToken])
  | cons type rest =>
      have types : IsBalanced (joined ((type :: rest).map ValueType.mnemonic)).toList := by
        refine isBalanced_joined ?_
        intro token member
        obtain ⟨other, -, rfl⟩ := List.mem_map.mp member
        exact other.lacksParentheses_mnemonic.isBalanced
      have keyword : LacksParentheses "param " := by decide
      have blank : LacksParentheses " " := by decide
      have params := (keyword.isBalanced.append types).enclosed
      exact isBalanced_token ((function.isBalanced.append blank.isBalanced).append params)
        (by simp [Node.importToken, joined])

/-- Tokens such as `(param $a i32)`. -/
theorem isBalanced_tokens {names : TypedNames}
    (lacks : ∀ name ∈ names.names, LacksParentheses name) {keyword : String}
    (keywordLacks : LacksParentheses keyword) :
    ∀ token ∈ names.tokens keyword, IsBalanced token.toList := by
  intro token member
  obtain ⟨entry, inside, rfl⟩ := List.mem_map.mp member
  have name := lacksParentheses_sigil (lacks entry.1 (List.mem_map_of_mem inside))
  have blank : LacksParentheses " " := by decide
  have words := (((keywordLacks.isBalanced.append blank.isBalanced).append
    name.isBalanced).append blank.isBalanced).append entry.2.lacksParentheses_mnemonic.isBalanced
  exact isBalanced_token words (by simp)

theorem isBalanced_resultTokens (result : Option ValueType) :
    ∀ token ∈ Node.resultTokens result, IsBalanced token.toList := by
  cases result with
  | none => exact List.forall_mem_nil _
  | some type =>
      have keyword : LacksParentheses "result " := by decide
      refine List.forall_mem_singleton.mpr ?_
      exact isBalanced_token
        (keyword.isBalanced.append type.lacksParentheses_mnemonic.isBalanced) (by simp)

theorem isBalanced_globalToken (isMutable : Bool) (type : ValueType) :
    IsBalanced (Node.globalToken isMutable type).toList := by
  have keyword : LacksParentheses "mut " := by decide
  cases isMutable with
  | false => exact type.lacksParentheses_mnemonic.isBalanced
  | true =>
      exact isBalanced_token
        (keyword.isBalanced.append type.lacksParentheses_mnemonic.isBalanced)
        (by simp [Node.globalToken])

/-! ## Nodes of operations -/

/-- The names in a prototype have no parentheses. -/
structure Prototype.NamesLackParentheses (prototype : Prototype) : Prop where
  name : LacksParentheses prototype.name
  params : ∀ name ∈ prototype.params.names, LacksParentheses name
  locals : ∀ name ∈ prototype.locals.names, LacksParentheses name

namespace Node

/-- A node that is put together by operations, in any nesting. Names and the free texts of constants
have no parentheses; what goes into a data literal is arbitrary. -/
inductive IsBuilt : Node → Prop where
  | binary (operator : BinaryOperator) {left right : Node} (leftBuilt : left.IsBuilt)
      (rightBuilt : right.IsBuilt) : (Node.binary operator left right).IsBuilt
  | unary (operator : UnaryOperator) {operand : Node} (built : operand.IsBuilt) :
      (Node.unary operator operand).IsBuilt
  | convert (source target : ValueType) {operand : Node} (built : operand.IsBuilt) :
      (Node.convert source target operand).IsBuilt
  | constant (type : ValueType) {value : Literal} (lacks : value.TextLacksParentheses) :
      (Node.constant type value).IsBuilt
  | declareLocal {name : String} (lacks : LacksParentheses name) (type : ValueType) :
      (Node.declareLocal name type).IsBuilt
  | setVariable (kind : VariableKind) {name : String} (lacks : LacksParentheses name)
      {value : Node} (built : value.IsBuilt) : (Node.setVariable kind name value).IsBuilt
  | getVariable (kind : VariableKind) {name : String} (lacks : LacksParentheses name) :
      (Node.getVariable kind name).IsBuilt
  | store (type : ValueType) (offset : Nat) {address value : Node}
      (addressBuilt : address.IsBuilt) (valueBuilt : value.IsBuilt) :
      (Node.store type offset address value).IsBuilt
  | load (type : ValueType) (offset : Nat) {address : Node} (built : address.IsBuilt) :
      (Node.load type offset address).IsBuilt
  | memorySize : Node.memorySize.IsBuilt
  | memoryGrow {pages : Node} (built : pages.IsBuilt) : (Node.memoryGrow pages).IsBuilt
  | ifThen (result : Option ValueType) {condition : Node} {consequent : List Node}
      {alternative : Option (List Node)} (conditionBuilt : condition.IsBuilt)
      (consequentBuilt : ∀ node ∈ consequent, node.IsBuilt)
      (alternativeBuilt : ∀ nodes ∈ alternative, ∀ node ∈ nodes, node.IsBuilt) :
      (Node.ifThen result condition consequent alternative).IsBuilt
  | loopWhile {label : String} (lacks : LacksParentheses label) {condition : Node}
      {body : List Node} (conditionBuilt : condition.IsBuilt)
      (bodyBuilt : ∀ node ∈ body, node.IsBuilt) : (Node.loopWhile label condition body).IsBuilt
  | block {label : String} (lacks : LacksParentheses label) {body : List Node}
      (built : ∀ node ∈ body, node.IsBuilt) : (Node.block label body).IsBuilt
  | breakTo {label : String} (lacks : LacksParentheses label) : (Node.breakTo label).IsBuilt
  | breakIf {label : String} (lacks : LacksParentheses label) {condition : Node}
      (built : condition.IsBuilt) : (Node.breakIf label condition).IsBuilt
  | returnValue {value : Node} (built : value.IsBuilt) : (Node.returnValue value).IsBuilt
  | returnVoid : Node.returnVoid.IsBuilt
  | select {first second condition : Node} (firstBuilt : first.IsBuilt)
      (secondBuilt : second.IsBuilt) (conditionBuilt : condition.IsBuilt) :
      (Node.select first second condition).IsBuilt
  | drop {value : Node} (built : value.IsBuilt) : (Node.drop value).IsBuilt
  | call {name : String} (lacks : LacksParentheses name) {arguments : List Node}
      (built : ∀ node ∈ arguments, node.IsBuilt) : (Node.call name arguments).IsBuilt
  | importFunction {library field name : String} (libraryLacks : LacksParentheses library)
      (fieldLacks : LacksParentheses field) (lacks : LacksParentheses name)
      (params : List ValueType) : (Node.importFunction library field name params).IsBuilt
  | function {prototype : Prototype} (lacks : prototype.NamesLackParentheses) {body : List Node}
      (built : ∀ node ∈ body, node.IsBuilt) : (Node.function prototype body).IsBuilt
  | declareGlobal (isMutable : Bool) {name : String} (lacks : LacksParentheses name)
      (type : ValueType) {initial : Option Node} (built : ∀ value ∈ initial, value.IsBuilt) :
      (Node.declareGlobal isMutable name type initial).IsBuilt
  | table {name : String} (lacks : LacksParentheses name) (size : Nat) (elements : RefType) :
      (Node.table name size elements).IsBuilt
  | elements {offset : Node} (built : offset.IsBuilt) {names : List String}
      (lacks : ∀ name ∈ names, LacksParentheses name) : (Node.elements offset names).IsBuilt
  | start {name : String} (lacks : LacksParentheses name) : (Node.start name).IsBuilt
  | dataLiteral (offset : Nat) (bytes : List UInt8) : (Node.dataLiteral offset bytes).IsBuilt
  | memory {literals : List Node} (built : ∀ node ∈ literals, node.IsBuilt) (size : Nat) :
      (Node.memory literals size).IsBuilt
  /-- A bare line that is put together by hand. -/
  | line {text : String} (balanced : IsBalanced text.toList) : (Node.ofText text).IsBuilt
  /-- A form that is put together by hand. -/
  | form {header : List String} (balanced : ∀ token ∈ header, IsBalanced token.toList) :
      (Node.ofHeader header).IsBuilt
  /-- A group that is put together by hand, or that of the module. -/
  | group {header : List String} (balanced : ∀ token ∈ header, IsBalanced token.toList)
      {children : List Node} (built : ∀ child ∈ children, child.IsBuilt) :
      (Node.ofGroup header children).IsBuilt
  /-- A fragment that is put together by hand. -/
  | fragment {children : List Node} (built : ∀ child ∈ children, child.IsBuilt) :
      (Node.ofNodes children).IsBuilt
  /-- A node with its marks changed. -/
  | mapMarks {node : Node} (built : node.IsBuilt) (change : Marks → Marks) :
      (node.mapMarks change).IsBuilt

/-! ## Headers of operations -/

section Headers

variable {keyword name : String} {header : List String} {children : List Node}

/-- A form without parentheses in its tokens. -/
theorem balanced_form (lacks : ∀ token ∈ header, LacksParentheses token) :
    (ofHeader header).HasBalancedTexts :=
  .form fun token member => (lacks token member).isBalanced

/-- A group without parentheses in its header. -/
theorem balanced_group (lacks : ∀ token ∈ header, LacksParentheses token)
    (inside : ∀ child ∈ children, child.HasBalancedTexts) :
    (ofGroup header children).HasBalancedTexts :=
  .group (fun token member => (lacks token member).isBalanced) inside

theorem balanced_keyword (lacks : LacksParentheses keyword)
    (inside : ∀ child ∈ children, child.HasBalancedTexts) :
    (ofGroup [keyword] children).HasBalancedTexts :=
  balanced_group (List.forall_mem_singleton.mpr lacks) inside

theorem lacksParentheses_named (keywordLacks : LacksParentheses keyword)
    (lacks : LacksParentheses name) : ∀ token ∈ [keyword, sigil name], LacksParentheses token :=
  List.forall_mem_cons.mpr ⟨keywordLacks, List.forall_mem_singleton.mpr
    (lacksParentheses_sigil lacks)⟩

theorem balanced_named (keywordLacks : LacksParentheses keyword) (lacks : LacksParentheses name)
    (inside : ∀ child ∈ children, child.HasBalancedTexts) :
    (ofGroup [keyword, sigil name] children).HasBalancedTexts :=
  balanced_group (lacksParentheses_named keywordLacks lacks) inside

end Headers

/-! ## Operations -/

section Operations

variable {name label : String} {operand first second : Node} {body : List Node}

theorem balanced_convert (source target : ValueType) (balanced : operand.HasBalancedTexts) :
    (convert source target operand).HasBalancedTexts := by
  rw [convert]
  cases converts : source.conversion? target with
  | none => exact balanced
  | some instruction =>
      exact balanced_keyword (ValueType.lacksParentheses_conversion converts)
        (List.forall_mem_singleton.mpr balanced)

theorem balanced_constant (type : ValueType) {value : Literal}
    (lacks : value.TextLacksParentheses) : (constant type value).HasBalancedTexts := by
  refine balanced_form (List.forall_mem_singleton.mpr ?_)
  exact lacksParentheses_append.mpr ⟨lacksParentheses_append.mpr
    ⟨type.lacksParentheses_instruction (by decide), by decide⟩, lacks.spellingAt type⟩

theorem balanced_declareLocal (lacks : LacksParentheses name) (type : ValueType) :
    (declareLocal name type).HasBalancedTexts := by
  refine (balanced_form ?_).declaring _ _
  exact List.forall_mem_cons.mpr ⟨by decide, List.forall_mem_cons.mpr
    ⟨lacksParentheses_sigil lacks, List.forall_mem_singleton.mpr type.lacksParentheses_mnemonic⟩⟩

theorem balanced_offsetLine (offset : Nat) : (offsetLine offset).HasBalancedTexts := by
  have lacks : LacksParentheses ("offset=" ++ toString offset) :=
    lacksParentheses_append.mpr ⟨by decide, lacksParentheses_natural offset⟩
  exact .leaf lacks.isBalanced

theorem balanced_store (type : ValueType) (offset : Nat) (address : first.HasBalancedTexts)
    (value : second.HasBalancedTexts) : (store type offset first second).HasBalancedTexts :=
  balanced_keyword (type.lacksParentheses_instruction (by decide))
    (List.forall_mem_cons.mpr ⟨balanced_offsetLine offset,
      List.forall_mem_cons.mpr ⟨address, List.forall_mem_singleton.mpr value⟩⟩)

theorem balanced_load (type : ValueType) (offset : Nat) (address : first.HasBalancedTexts) :
    (load type offset first).HasBalancedTexts :=
  balanced_keyword (type.lacksParentheses_instruction (by decide))
    (List.forall_mem_cons.mpr ⟨balanced_offsetLine offset, List.forall_mem_singleton.mpr address⟩)

theorem balanced_ifThen (result : Option ValueType) {condition : Node} {consequent : List Node}
    {alternative : Option (List Node)} (conditionBalanced : condition.HasBalancedTexts)
    (consequentBalanced : ∀ node ∈ consequent, node.HasBalancedTexts)
    (alternativeBalanced : ∀ nodes ∈ alternative, ∀ node ∈ nodes, node.HasBalancedTexts) :
    (ifThen result condition consequent alternative).HasBalancedTexts := by
  have keyword : LacksParentheses "if" := by decide
  refine .group (List.forall_mem_cons.mpr ⟨keyword.isBalanced, isBalanced_resultTokens result⟩) ?_
  refine List.forall_mem_cons.mpr ⟨conditionBalanced, List.forall_mem_cons.mpr
    ⟨balanced_keyword (by decide) consequentBalanced, ?_⟩⟩
  cases alternative with
  | none => exact List.forall_mem_nil _
  | some nodes =>
      exact List.forall_mem_singleton.mpr
        (balanced_keyword (by decide) (alternativeBalanced nodes rfl))

theorem balanced_labelled {keyword : String} (keywordLacks : LacksParentheses keyword)
    (lacks : LacksParentheses label) (inside : ∀ node ∈ body, node.HasBalancedTexts) :
    (labelled keyword label body).HasBalancedTexts :=
  ((balanced_named keywordLacks lacks inside).withScope _).declaring _ _

theorem balanced_breakTo (lacks : LacksParentheses label) :
    (breakTo label).HasBalancedTexts := by
  have line : LacksParentheses ("br " ++ sigil label) :=
    lacksParentheses_append.mpr ⟨by decide, lacksParentheses_sigil lacks⟩
  exact (HasBalancedTexts.leaf line.isBalanced).referring _ _

theorem balanced_breakIf (lacks : LacksParentheses label) (balanced : operand.HasBalancedTexts) :
    (breakIf label operand).HasBalancedTexts :=
  (balanced_named (by decide) lacks (List.forall_mem_singleton.mpr balanced)).referring _ _

theorem balanced_importFunction {library field : String} (libraryLacks : LacksParentheses library)
    (fieldLacks : LacksParentheses field) (lacks : LacksParentheses name)
    (params : List ValueType) : (importFunction library field name params).HasBalancedTexts := by
  have keyword : LacksParentheses "import" := by decide
  refine (HasBalancedTexts.form ?_).withSymbol _
  exact List.forall_mem_cons.mpr ⟨keyword.isBalanced,
    List.forall_mem_cons.mpr ⟨(lacksParentheses_quoted libraryLacks).isBalanced,
      List.forall_mem_cons.mpr ⟨(lacksParentheses_quoted fieldLacks).isBalanced,
        List.forall_mem_singleton.mpr (isBalanced_importToken lacks params)⟩⟩⟩

/-- The export of something under a name, by a keyword and a symbol in parentheses. -/
theorem balanced_export {exported : String} (exportedLacks : LacksParentheses exported)
    {token : String} (balanced : IsBalanced token.toList) :
    (ofHeader ["export", quoted exported, token]).HasBalancedTexts := by
  have keyword : LacksParentheses "export" := by decide
  refine .form ?_
  exact List.forall_mem_cons.mpr ⟨keyword.isBalanced, List.forall_mem_cons.mpr
    ⟨(lacksParentheses_quoted exportedLacks).isBalanced, List.forall_mem_singleton.mpr balanced⟩⟩

theorem isBalanced_functionHeader {prototype : Prototype}
    (lacks : prototype.NamesLackParentheses) :
    ∀ token ∈ functionHeader prototype, IsBalanced token.toList := by
  have keyword : LacksParentheses "func" := by decide
  have named : ∀ token ∈ ["func", sigil prototype.name], IsBalanced token.toList :=
    List.forall_mem_cons.mpr ⟨keyword.isBalanced, List.forall_mem_singleton.mpr
      (lacksParentheses_sigil lacks.name).isBalanced⟩
  exact List.forall_mem_append.mpr ⟨List.forall_mem_append.mpr ⟨List.forall_mem_append.mpr
    ⟨named, isBalanced_tokens lacks.params (by decide)⟩,
    isBalanced_tokens lacks.locals (by decide)⟩, isBalanced_resultTokens prototype.result⟩

theorem balanced_function {prototype : Prototype} (lacks : prototype.NamesLackParentheses)
    (inside : ∀ node ∈ body, node.HasBalancedTexts) :
    (function prototype body).HasBalancedTexts := by
  refine .fragment (List.forall_mem_cons.mpr ⟨?_, ?_⟩)
  · exact .group (isBalanced_functionHeader lacks) inside
  · split
    · refine List.forall_mem_singleton.mpr (balanced_export lacks.name ?_)
      have function : LacksParentheses ("func " ++ sigil prototype.name) :=
        lacksParentheses_append.mpr ⟨by decide, lacksParentheses_sigil lacks.name⟩
      exact isBalanced_token function.isBalanced (by simp)
    · exact List.forall_mem_nil _

theorem balanced_declareGlobal (isMutable : Bool) (lacks : LacksParentheses name)
    (type : ValueType) {initial : Option Node}
    (balanced : ∀ value ∈ initial, value.HasBalancedTexts) :
    (declareGlobal isMutable name type initial).HasBalancedTexts := by
  have keyword : LacksParentheses "global" := by decide
  have header : ∀ token ∈ ["global", sigil name, globalToken isMutable type],
      IsBalanced token.toList :=
    List.forall_mem_cons.mpr ⟨keyword.isBalanced, List.forall_mem_cons.mpr
      ⟨(lacksParentheses_sigil lacks).isBalanced, List.forall_mem_singleton.mpr
        (isBalanced_globalToken isMutable type)⟩⟩
  cases initial with
  | none => exact (HasBalancedTexts.form header).declaring _ _
  | some value =>
      exact (HasBalancedTexts.group header
        (List.forall_mem_singleton.mpr (balanced value rfl))).declaring _ _

theorem balanced_table (lacks : LacksParentheses name) (size : Nat) (elements : RefType) :
    (table name size elements).HasBalancedTexts := by
  refine (balanced_form ?_).declaring _ _
  exact List.forall_mem_cons.mpr ⟨by decide,
    List.forall_mem_cons.mpr ⟨lacksParentheses_sigil lacks,
      List.forall_mem_cons.mpr ⟨lacksParentheses_natural size,
        List.forall_mem_singleton.mpr elements.lacksParentheses_mnemonic⟩⟩⟩

theorem balanced_elements {offset : Node} (balanced : offset.HasBalancedTexts)
    {names : List String} (lacks : ∀ name ∈ names, LacksParentheses name) :
    (elements offset names).HasBalancedTexts := by
  refine balanced_keyword (by decide) (List.forall_mem_cons.mpr ⟨balanced, ?_⟩)
  intro child member
  obtain ⟨name, inside, rfl⟩ := List.mem_map.mp member
  exact (HasBalancedTexts.leaf
    (lacksParentheses_sigil (lacks name inside)).isBalanced).referring _ _

/-- **A data literal is balanced**, whatever its bytes are. -/
theorem balanced_dataLiteral (offset : Nat) (bytes : List UInt8) :
    (dataLiteral offset bytes).HasBalancedTexts := by
  have keyword : LacksParentheses "data" := by decide
  have address : LacksParentheses ("i32.const " ++ toString offset) :=
    lacksParentheses_append.mpr ⟨by decide, lacksParentheses_natural offset⟩
  refine .form ?_
  exact List.forall_mem_cons.mpr ⟨keyword.isBalanced,
    List.forall_mem_cons.mpr ⟨isBalanced_token address.isBalanced (by simp),
      List.forall_mem_singleton.mpr
        (lacksParentheses_quoted (lacksParentheses_escapeBytes bytes)).isBalanced⟩⟩

theorem balanced_memory {literals : List Node}
    (balanced : ∀ node ∈ literals, node.HasBalancedTexts) (size : Nat) :
    (memory literals size).HasBalancedTexts := by
  refine .fragment (List.forall_mem_append.mpr ⟨balanced, List.forall_mem_cons.mpr ⟨?_,
    List.forall_mem_singleton.mpr ?_⟩⟩)
  · refine balanced_form ?_
    exact List.forall_mem_cons.mpr ⟨by decide, List.forall_mem_cons.mpr
      ⟨by decide, List.forall_mem_singleton.mpr (lacksParentheses_natural size)⟩⟩
  · have exported : LacksParentheses ("memory " ++ sigil "memory") := by decide
    exact balanced_export (by decide) (isBalanced_token exported.isBalanced (by simp))

end Operations

/-- **What operations put together has balanced texts.** -/
theorem IsBuilt.hasBalancedTexts {node : Node} (built : node.IsBuilt) :
    node.HasBalancedTexts := by
  induction built with
  | binary operator _ _ left right =>
      exact balanced_keyword operator.lacksParentheses_mnemonic
        (List.forall_mem_cons.mpr ⟨left, List.forall_mem_singleton.mpr right⟩)
  | unary operator _ operand =>
      exact balanced_keyword operator.lacksParentheses_mnemonic
        (List.forall_mem_singleton.mpr operand)
  | convert source target _ operand => exact balanced_convert source target operand
  | constant type lacks => exact balanced_constant type lacks
  | declareLocal lacks type => exact balanced_declareLocal lacks type
  | setVariable kind lacks _ value =>
      exact (balanced_named (kind.lacksParentheses_instruction (by decide)) lacks
        (List.forall_mem_singleton.mpr value)).referring _ _
  | getVariable kind lacks =>
      exact (balanced_form (lacksParentheses_named
        (kind.lacksParentheses_instruction (by decide)) lacks)).referring _ _
  | store type offset _ _ address value => exact balanced_store type offset address value
  | load type offset _ address => exact balanced_load type offset address
  | memorySize => exact .leaf (by decide : LacksParentheses "memory.size").isBalanced
  | memoryGrow _ pages => exact balanced_keyword (by decide) (List.forall_mem_singleton.mpr pages)
  | ifThen result _ _ _ condition consequent alternative =>
      exact balanced_ifThen result condition consequent alternative
  | loopWhile lacks _ _ condition body =>
      exact balanced_labelled (by decide) lacks (List.forall_mem_append.mpr
        ⟨body, List.forall_mem_singleton.mpr (balanced_breakIf lacks condition)⟩)
  | block lacks _ body => exact balanced_labelled (by decide) lacks body
  | breakTo lacks => exact balanced_breakTo lacks
  | breakIf lacks _ condition => exact balanced_breakIf lacks condition
  | returnValue _ value => exact balanced_keyword (by decide) (List.forall_mem_singleton.mpr value)
  | returnVoid => exact balanced_form (by decide)
  | select _ _ _ first second condition =>
      exact balanced_keyword (by decide) (List.forall_mem_cons.mpr ⟨first,
        List.forall_mem_cons.mpr ⟨second, List.forall_mem_singleton.mpr condition⟩⟩)
  | drop _ value => exact balanced_keyword (by decide) (List.forall_mem_singleton.mpr value)
  | call lacks _ arguments => exact (balanced_named (by decide) lacks arguments).withSymbol _
  | importFunction libraryLacks fieldLacks lacks params =>
      exact balanced_importFunction libraryLacks fieldLacks lacks params
  | function lacks _ body => exact balanced_function lacks body
  | declareGlobal isMutable lacks type _ initial =>
      exact balanced_declareGlobal isMutable lacks type initial
  | table lacks size elements => exact balanced_table lacks size elements
  | elements _ lacks offset => exact balanced_elements offset lacks
  | start lacks => exact (balanced_form (lacksParentheses_named (by decide) lacks)).referring _ _
  | dataLiteral offset bytes => exact balanced_dataLiteral offset bytes
  | memory _ size literals => exact balanced_memory literals size
  | line balanced => exact .leaf balanced
  | form balanced => exact .form balanced
  | group balanced _ children => exact .group balanced children
  | fragment _ children => exact .fragment children
  | mapMarks _ change node => exact node.mapMarks change

end Node

/-- **The rendering of nodes that operations put together is balanced**: no prefix of it has more
closing parentheses than opening ones, and the whole has as many of the one as of the other,
whatever the data literals hold and however wide the indentation is. -/
theorem render_balanced {nodes : List Node} (built : ∀ node ∈ nodes, node.IsBuilt)
    (options : LayoutOptions) : IsBalanced (Node.render nodes options).toList := by
  refine isBalanced_render ?_ options
  intro node member
  exact (built node member).hasBalancedTexts

/-- The prototype of a function that returns its parameter. -/
def showPrototype : Prototype := .ofSteps "show" [.param "address" .int, .result .int]

/-- A function with a parameter, after a data literal of closing parentheses, quotes and line
breaks. -/
def parenthesisLiteral : List Node :=
  [.dataLiteral 0 (terminated "\")))\n\"(("),
    .function showPrototype [.getVariable .localVariable "address"]]

theorem render_balanced_parenthesis_literal :
    (∀ node ∈ parenthesisLiteral, node.IsBuilt) ∧
      IsBalanced (Node.render parenthesisLiteral { indentWidth := 3 }).toList := by
  have lacks : showPrototype.NamesLackParentheses := ⟨by decide, by decide, by decide⟩
  have built : ∀ node ∈ parenthesisLiteral, node.IsBuilt := by
    refine List.forall_mem_cons.mpr ⟨.dataLiteral _ _, List.forall_mem_singleton.mpr ?_⟩
    refine .function lacks (List.forall_mem_singleton.mpr ?_)
    exact .getVariable _ (by decide)
  exact ⟨built, render_balanced built _⟩

end WasmWorkshop
