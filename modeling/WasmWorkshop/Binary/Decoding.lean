import WasmWorkshop.Binary.Module
import WasmWorkshop.Binary.Reader

/-!
# Decoding binary modules

A binary is a fixed heading and a sequence of sections, each with an identifier and a length. A
section is read against the stretch of bytes that its length gives, and has to use it up. Custom
sections may stand anywhere and only have to start with a name; each other section occurs at most
once, in the order of the identifiers (`inOrder`).

Decoding refuses whatever is not of this form (`decode?`). What remains to be checked of a decoded
module, that its indices exist and its code is well typed, is the matter of validation.
-/

set_option autoImplicit false

namespace WasmWorkshop.Binary

open Reader

/-! ## Types -/

/-- The type that a byte stands for. -/
def valueTypeOfByte? (byte : UInt8) : Option ValueType :=
  if byte = 0x7F then some .int
  else if byte = 0x7E then some .long
  else if byte = 0x7D then some .float
  else if byte = 0x7C then some .double
  else none

/-- A value type. -/
def readValueType : Reader ValueType := do
  match valueTypeOfByte? (← byte) with
  | some type => return type
  | none => refuse

/-- A function type. -/
def readFunctionType : Reader FunctionType := do
  require ((← byte) = 0x60)
  let params ← vector readValueType
  let results ← vector readValueType
  return ⟨params, results⟩

/-- The result of a block, where `0x40` stands for none. -/
def readBlockResult : Reader (Option ValueType) := do
  let next ← byte
  if next = 0x40 then return none
  match valueTypeOfByte? next with
  | some type => return some type
  | none => refuse

/-! ## Instructions -/

/-- An instruction that holds no other, from its opcode on. -/
def readPlain (opcode : UInt8) : Reader Instruction := do
  match opcode with
  | 0x00 => return .unreachable
  | 0x01 => return .nop
  | 0x0C => return .break (← index)
  | 0x0D => return .breakIf (← index)
  | 0x0F => return .return
  | 0x10 => return .call (← index)
  | 0x1A => return .drop
  | 0x20 => return .localGet (← index)
  | 0x21 => return .localSet (← index)
  | 0x22 => return .localTee (← index)
  | 0x23 => return .globalGet (← index)
  | 0x24 => return .globalSet (← index)
  | 0x28 =>
    let alignment ← index
    return .wordLoad alignment (← index)
  | 0x36 =>
    let alignment ← index
    return .wordStore alignment (← index)
  | 0x3F =>
    require ((← byte) = 0)
    return .memorySize
  | 0x40 =>
    require ((← byte) = 0)
    return .memoryGrow
  | 0x41 => return .wordConstant (← word)
  | 0x42 => return .longConstant (← long)
  | 0x45 => return .wordIsZero
  | 0x48 => return .word .lessThan
  | 0x6A => return .word .add
  | 0x6B => return .word .subtract
  | 0x6C => return .word .multiply
  | 0x6D => return .word .divide
  | 0x6F => return .word .remainder
  | 0x7C => return .long .add
  | 0x7E => return .long .multiply
  | _ => refuse

/-- What a sequence of instructions ends with. -/
inductive Terminator where
  | endOfBlock
  | otherwise
  deriving DecidableEq

/-- Instructions up to the end of the block they are in, or up to its second branch. -/
def readSequence : Nat → Reader (List Instruction × Terminator)
  | 0 => refuse
  | fuel + 1 => do
    let opcode ← byte
    if opcode = 0x0B then return ([], .endOfBlock)
    if opcode = 0x05 then return ([], .otherwise)
    let first : Instruction ←
      match opcode with
      | 0x02 => do
        let result ← readBlockResult
        let (body, terminator) ← readSequence fuel
        require (terminator = .endOfBlock)
        pure (Instruction.block result body)
      | 0x03 => do
        let result ← readBlockResult
        let (body, terminator) ← readSequence fuel
        require (terminator = .endOfBlock)
        pure (Instruction.loop result body)
      | 0x04 => do
        let result ← readBlockResult
        let (consequent, terminator) ← readSequence fuel
        match terminator with
        | .endOfBlock => pure (Instruction.branch result consequent [])
        | .otherwise => do
          let (alternative, terminator) ← readSequence fuel
          require (terminator = .endOfBlock)
          pure (Instruction.branch result consequent alternative)
      | opcode => readPlain opcode
    let (rest, terminator) ← readSequence fuel
    return (first :: rest, terminator)

/-- The body of a function, up to its end. Every instruction takes a byte, so the number of bytes
bounds the number of instructions. -/
def readBody : Reader (List Instruction) := do
  let bytes ← get
  let (body, terminator) ← readSequence (bytes.length + 1)
  require (terminator = .endOfBlock)
  return body

/-- A constant and the end of its expression. -/
def readConstant : Reader ConstantExpression := do
  let opcode ← byte
  let value ←
    match opcode with
    | 0x41 => do pure (ConstantExpression.word (← word))
    | 0x42 => do pure (ConstantExpression.long (← long))
    | _ => refuse
  require ((← byte) = 0x0B)
  return value

/-! ## The entries of sections -/

/-- An import. Only functions are imported. -/
def readImport : Reader Import := do
  let library ← name
  let field ← name
  require ((← byte) = 0)
  return ⟨library, field, ← index⟩

/-- The limits of a memory. -/
def readMemoryLimits : Reader MemoryLimits := do
  match ← byte with
  | 0 => return ⟨← index, none⟩
  | 1 =>
    let minimum ← index
    return ⟨minimum, some (← index)⟩
  | _ => refuse

/-- A global. -/
def readGlobal : Reader Global := do
  let type ← readValueType
  let mutability ← byte
  require (mutability ≤ 1)
  return ⟨type, mutability = 1, ← readConstant⟩

/-- An export. -/
def readExport : Reader Export := do
  let exported ← name
  let kind ← byte
  let target ← index
  match kind with
  | 0 => return ⟨exported, .function target⟩
  | 2 => return ⟨exported, .memory target⟩
  | 3 => return ⟨exported, .global target⟩
  | _ => refuse

/-- Groups of locals of one type, of which there are at most `room` in all. -/
def readLocals : Nat → Nat → Reader (List ValueType)
  | 0, _ => return []
  | groups + 1, room => do
    let count ← index
    let type ← readValueType
    require (count ≤ room)
    let rest ← readLocals groups (room - count)
    return List.replicate count type ++ rest

/-- The locals and the body of a function. -/
def readCode : Reader (List ValueType × List Instruction) := do
  let length ← index
  within length do
    let groups ← index
    let locals ← readLocals groups localLimit
    return (locals, ← readBody)

/-- An active segment of the memory. -/
def readDataSegment : Reader DataSegment := do
  require ((← index) = 0)
  let offset ← readConstant
  let length ← index
  return ⟨offset, ← take length⟩

/-! ## Sections -/

/-- A section: its identifier and its contents. -/
structure Section where
  identifier : UInt8
  contents : List UInt8

/-- The sections up to the end of the input. Every section takes two bytes or more. -/
def readSections : Nat → Reader (List Section)
  | 0 => refuse
  | fuel + 1 => do
    if ← atEnd then return []
    let identifier ← byte
    let length ← index
    let contents ← take length
    let rest ← readSections fuel
    return ⟨identifier, contents⟩ :: rest

/-- The identifiers of the sections that are not custom, in the order in which they occur: types,
imports, functions, memory, globals, exports, start, code and data. -/
def knownIdentifiers : List UInt8 := [1, 2, 3, 5, 6, 7, 8, 10, 11]

/-- Whether the identifiers go strictly upwards. -/
def inOrder : List UInt8 → Bool
  | first :: second :: rest => first < second && inOrder (second :: rest)
  | _ => true

/-- Whether a custom section starts with a name. -/
def isNamed (contents : List UInt8) : Bool := (name.run contents).isSome

/-- Whether the sections are known ones, in order, and custom ones with a name. -/
def wellArranged (sections : List Section) : Bool :=
  let custom := sections.filter (·.identifier = 0)
  let known := (sections.filter (·.identifier ≠ 0)).map (·.identifier)
  custom.all (fun part => isNamed part.contents) && known.all (· ∈ knownIdentifiers) &&
    inOrder known

/-- Reads the section with an identifier, or gives a default if there is none. -/
def sectionOr {α : Type} (sections : List Section) (identifier : UInt8) (absent : α)
    (reader : Reader α) : Option α :=
  match sections.find? (·.identifier = identifier) with
  | none => some absent
  | some part => whole reader part.contents

/-- The functions of a module, from the types that one section gives and the code that another
one gives. There must be as many of one as of the other. -/
def joinFunctions? (types : List Nat) (code : List (List ValueType × List Instruction)) :
    Option (List Function) :=
  if types.length = code.length then
    some (List.zipWith (fun type part => ⟨type, part.1, part.2⟩) types code)
  else none

/-- The module that a sequence of sections makes up. -/
def moduleOfSections? (sections : List Section) : Option Module := do
  guard (wellArranged sections)
  let types ← sectionOr sections 1 [] (vector readFunctionType)
  let imports ← sectionOr sections 2 [] (vector readImport)
  let functionTypes ← sectionOr sections 3 [] (vector index)
  let memories ← sectionOr sections 5 [] (vector readMemoryLimits)
  let globals ← sectionOr sections 6 [] (vector readGlobal)
  let exports ← sectionOr sections 7 [] (vector readExport)
  let start ← sectionOr sections 8 none (some <$> index)
  let code ← sectionOr sections 10 [] (vector readCode)
  let data ← sectionOr sections 11 [] (vector readDataSegment)
  let functions ← joinFunctions? functionTypes code
  return { types, imports, functions, memories, globals, exports, start, data }

/-- What every binary starts with: a magic number and the version. -/
def heading : List UInt8 := [0x00, 0x61, 0x73, 0x6D, 0x01, 0x00, 0x00, 0x00]

/-- The module that a binary stands for, if the binary is well formed. -/
def decode? (bytes : List UInt8) : Option Module := do
  guard (heading.isPrefixOf bytes)
  let sections ← whole (readSections (bytes.length + 1)) (bytes.drop heading.length)
  moduleOfSections? sections

end WasmWorkshop.Binary
