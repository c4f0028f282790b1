import WasmWorkshop.DataLayout
import WasmWorkshop.Instruction
import WasmWorkshop.Prototype

/-!
# The fields of a module as nodes

Imports, functions, globals, tables, element segments, the start function, data literals and the
memory. As with instructions, one definition makes both the text of a field and its marks.

A function is a fragment: the function itself, in a scope that holds its parameters and locals,
and after it the export of the function under its own name unless the prototype hides it.
-/

set_option autoImplicit false

namespace WasmWorkshop

namespace Node

/-- The token for the type of an imported function. Imports state parameters and never a
result. -/
def importToken (name : String) (params : List ValueType) : String :=
  match params with
  | [] => "(func " ++ sigil name ++ ")"
  | params =>
    "(func " ++ sigil name ++ " (param " ++ " ".intercalate (params.map (·.mnemonic)) ++ "))"

/-- Imports a function of the host under the name `name`. -/
def importFunction (library field name : String) (params : List ValueType) : Node :=
  (ofHeader ["import", quoted library, quoted field, importToken name params]).withSymbol
    ((SymbolUse.declaring .function name).withArity params.length)

/-- The header of a function. -/
def functionHeader (prototype : Prototype) : List String :=
  ["func", sigil prototype.name] ++ prototype.params.tokens "param" ++
    prototype.locals.tokens "local" ++ resultTokens prototype.result

/-- The symbols that a function declares by its header: itself, in the scope of its own body, and
then its parameters and locals. -/
def functionSymbols (prototype : Prototype) : List SymbolUse :=
  (SymbolUse.declaring .function prototype.name).withArity prototype.params.size ::
    (prototype.params.names ++ prototype.locals.names).map (.declaring .localVariable)

/-- The export of a function under its own name. -/
def functionExport (name : String) : Node :=
  ofHeader ["export", quoted name, "(func " ++ sigil name ++ ")"]

/-- A function and its export. -/
def function (prototype : Prototype) (body : List Node) : Node :=
  let definition := Node.group (functionHeader prototype) body
    { symbols := functionSymbols prototype, scope := some (.function prototype.name) }
  ofNodes (definition :: if prototype.exported then [functionExport prototype.name] else [])

/-- The token for the type of a global. -/
def globalToken (isMutable : Bool) (type : ValueType) : String :=
  if isMutable then "(mut " ++ type.mnemonic ++ ")" else type.mnemonic

/-- A global, with or without an initial value. -/
def declareGlobal (isMutable : Bool) (name : String) (type : ValueType) (initial : Option Node) :
    Node :=
  let header := ["global", sigil name, globalToken isMutable type]
  let definition :=
    match initial with
    | none => ofHeader header
    | some value => ofGroup header [value]
  definition.declaring .global name

/-- A table of references. -/
def table (name : String) (size : Nat) (elements : RefType) : Node :=
  (ofHeader ["table", sigil name, toString size, elements.mnemonic]).declaring .table name

/-- A reference to a function as an element of a table. -/
def elementLine (name : String) : Node := (ofText (sigil name)).referring .function name

/-- Puts functions into the table, from the slot `offset` on. -/
def elements (offset : Node) (names : List String) : Node :=
  ofGroup ["elem"] (offset :: names.map elementLine)

/-- The function that runs when the module is instantiated. -/
def start (name : String) : Node :=
  (ofHeader ["start", sigil name]).referring .function name

/-- A data literal at an address. -/
def dataLiteral (offset : Nat) (bytes : List UInt8) : Node :=
  ofHeader ["data", "(i32.const " ++ toString offset ++ ")", quoted (escapeBytes bytes)]

/-- The memory, and its export under the name `memory`, after the nodes of the literals. -/
def memory (literals : List Node) (size : Nat) : Node :=
  ofNodes (literals ++
    [ofHeader ["memory", sigil "memory", toString size],
     ofHeader ["export", quoted "memory", "(memory " ++ sigil "memory" ++ ")"]])

end Node

end WasmWorkshop
