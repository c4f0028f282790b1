import WasmWorkshop.Binary.Decoding
import WasmWorkshop.Binary.Validation
import WasmWorkshop.Digest
import WasmWorkshop.Machine.Execution

/-!
# Module instances

Instantiating a binary decodes and validates it, finds every import in the table of the host, lays
out memory and globals, copies the data segments and runs the start function. Any of these can fail
(`InstanceError`). A trap of the start function is such a failure, and the host calls made before it
remain on record.

An instance answers calls of its exported functions by name and type, and shows its exported memory
and globals. A trap in a call leaves the instance as the call left it, and it can be called
again.
-/

set_option autoImplicit false

namespace WasmWorkshop.Machine

open Binary (FunctionType Module)

/-- Why a module cannot be instantiated, or an exported function not be called. -/
inductive InstanceError where
  | invalidBinary
  | missingImport (library field : String)
  | importType (library field : String)
  | segmentOutside
  | trap (cause : Trap)
  | noFunction (name : String)
  | functionType (name : String)
  deriving DecidableEq

/-- An instantiated module. -/
structure Instance where
  /-- The binary that it came from. -/
  binary : List UInt8
  module : Module
  callees : List Callee
  store : Store

/-! ## Instantiation -/

/-- The host function for an import. Its type must be that of the import. -/
def resolveImport (imports : HostImports) (module : Module) (entry : Binary.Import) :
    Except InstanceError Callee :=
  match imports.find? entry.library entry.field with
  | none => .error (.missingImport entry.library entry.field)
  | some function =>
    if module.types[entry.typeIndex]? = some function.type then .ok (.host function)
    else .error (.importType entry.library entry.field)

/-- A function of the module as it is called. -/
def calleeOfFunction? (module : Module) (function : Binary.Function) : Option Callee :=
  (module.types[function.typeIndex]?).map fun type => .code type function.locals function.body

/-- The value of a constant. -/
def valueOfConstant : Binary.ConstantExpression → Value
  | .word value => .word value
  | .long value => .long value

/-- The memory that a module declares, if it declares one. -/
def initialMemory (module : Module) : Option Memory :=
  module.memories.head?.map fun limits => ⟨limits.minimum, limits.maximum, {}⟩

/-- The address of a data segment. It is read as unsigned. -/
def segmentAddress (segment : Binary.DataSegment) : Nat :=
  match segment.offset with
  | .word address => address.toNat
  | .long address => address.toNat

/-- The memory with a data segment copied into it. -/
def copySegment (memory : Option Memory) (segment : Binary.DataSegment) :
    Except InstanceError (Option Memory) :=
  match memory.bind (·.write? (segmentAddress segment) segment.bytes) with
  | some memory => .ok (some memory)
  | none => .error .segmentOutside

/-- The functions and the store of a module before its start function runs. -/
def link (imports : HostImports) (module : Module) :
    Except InstanceError (List Callee × Store) := do
  let hosts ← module.imports.mapM (resolveImport imports module)
  let memory ← module.data.foldlM copySegment (initialMemory module)
  let globals := module.globals.map fun global => valueOfConstant global.initial
  return (hosts ++ module.functions.filterMap (calleeOfFunction? module), { memory, globals })

/-- Whether a binary is a valid module. -/
def isValidBinary (bytes : List UInt8) : Bool :=
  match Binary.decode? bytes with
  | some module => module.isValid
  | none => false

/-- Instantiates a binary. Beside the instance, or the reason why there is none, stand the host
calls that were made. -/
def instantiate (imports : HostImports) (bytes : List UInt8) :
    Except InstanceError Instance × List HostCall :=
  match (Binary.decode? bytes).filter (·.isValid) with
  | none => (.error .invalidBinary, [])
  | some module =>
    match link imports module with
    | .error error => (.error error, [])
    | .ok (callees, store) =>
      match module.start with
      | none => (.ok ⟨bytes, module, callees, store⟩, [])
      | some function =>
        match invoke callees store function [] with
        | .ok (_, store) =>
          (.ok ⟨bytes, module, callees, { store with calls := [] }⟩, store.calls)
        | .error (trap, store) => (.error (.trap trap), store.calls)

namespace Instance

/-! ## Exports -/

/-- The names of all exports, in order. -/
def exportNames (inst : Instance) : List String :=
  (inst.module.exports.map (·.name)).mergeSort (fun left right => left ≤ right)

/-- What an exported name stands for. -/
def target? (inst : Instance) (name : String) : Option Binary.ExportTarget :=
  (inst.module.exports.find? (·.name = name)).map (·.target)

/-- The index of an exported function, if its type is the given one. -/
def function? (inst : Instance) (name : String) (type : FunctionType) :
    Except InstanceError Nat :=
  match inst.target? name with
  | some (.function index) =>
    if inst.callees[index]?.map (·.type) = some type then .ok index
    else .error (.functionType name)
  | _ => .error (.noFunction name)

/-- Calls an exported function. Beside the results stand the host calls that were made. -/
def call (inst : Instance) (name : String) (type : FunctionType) (arguments : List Value) :
    Except InstanceError (List Value) × List HostCall × Instance :=
  match inst.function? name type with
  | .error error => (.error error, [], inst)
  | .ok index =>
    match invoke inst.callees inst.store index arguments with
    | .ok (results, store) =>
      (.ok results, store.calls, { inst with store := { store with calls := [] } })
    | .error (trap, store) =>
      (.error (.trap trap), store.calls, { inst with store := { store with calls := [] } })

/-- The memory exported under the name `memory`. -/
def memory? (inst : Instance) : Option Memory :=
  match inst.target? "memory" with
  | some (.memory _) => inst.store.memory
  | _ => none

/-- The value of an exported global. -/
def global? (inst : Instance) (name : String) : Option Value :=
  match inst.target? name with
  | some (.global index) => inst.store.globals[index]?
  | _ => none

/-- Writes to the exported memory. Says whether the bytes lie within it, if there is one. -/
def poke (inst : Instance) (address : Nat) (bytes : List UInt8) : Option Bool × Instance :=
  match inst.memory? with
  | none => (none, inst)
  | some memory =>
    match memory.write? address bytes with
    | some memory => (some true, { inst with store := { inst.store with memory := some memory } })
    | none => (some false, inst)

/-- The digest of the binary. -/
def digest (inst : Instance) : String := hexText (Digest.sha256 inst.binary)

end Instance

end WasmWorkshop.Machine
