import WasmWorkshop.Literal
import WasmWorkshop.Node
import WasmWorkshop.Operator

/-!
# Instructions as nodes

Every instruction is one node: its head names the operation, its children are the operands in
order. A node that names a variable, a function or a label also carries the mark that the symbol
check needs, so that the text and the marks are made by the same definition.

Blocks and loops are the only instructions that open a scope. The loop is a do-while loop: its
last child jumps back to its label while the condition holds (`Node.loopWhile`).
-/

set_option autoImplicit false

namespace WasmWorkshop

/-- A variable is a local of the enclosing function or a global of the module. -/
inductive VariableKind where
  | localVariable
  | global
  deriving DecidableEq

/-- The namespace that holds the variables of a kind. -/
def VariableKind.space : VariableKind → Namespace
  | .localVariable => .localVariable
  | .global => .global

/-- What the instructions on variables of a kind start with. -/
def VariableKind.family : VariableKind → String
  | .localVariable => "local"
  | .global => "global"

namespace Node

/-! ## Numeric instructions -/

/-- An operator with two operands. -/
def binary (operator : BinaryOperator) (left right : Node) : Node :=
  ofGroup [operator.mnemonic] [left, right]

/-- An operator with one operand. -/
def unary (operator : UnaryOperator) (operand : Node) : Node :=
  ofGroup [operator.mnemonic] [operand]

/-- The operand as a value of type `target`. An operand of that type stands for itself. -/
def convert (source target : ValueType) (operand : Node) : Node :=
  match source.conversion? target with
  | some instruction => ofGroup [instruction] [operand]
  | none => operand

/-- A constant. Its whole instruction is one header token. -/
def constant (type : ValueType) (value : Literal) : Node :=
  ofHeader [type.instruction "const" ++ " " ++ value.spellingAt type]

/-! ## Variables -/

/-- A local of the enclosing function, declared inside its body. -/
def declareLocal (name : String) (type : ValueType) : Node :=
  (ofHeader ["local", sigil name, type.mnemonic]).declaring .localVariable name

/-- Assigns a variable. -/
def setVariable (kind : VariableKind) (name : String) (value : Node) : Node :=
  (ofGroup [kind.family ++ ".set", sigil name] [value]).referring kind.space name

/-- Reads a variable. -/
def getVariable (kind : VariableKind) (name : String) : Node :=
  (ofHeader [kind.family ++ ".get", sigil name]).referring kind.space name

/-! ## Memory access -/

/-- The line that gives the constant part of an address. -/
def offsetLine (offset : Nat) : Node := ofText ("offset=" ++ toString offset)

/-- Stores `value` at `address + offset`. -/
def store (type : ValueType) (offset : Nat) (address value : Node) : Node :=
  ofGroup [type.instruction "store"] [offsetLine offset, address, value]

/-- Loads from `address + offset`. -/
def load (type : ValueType) (offset : Nat) (address : Node) : Node :=
  ofGroup [type.instruction "load"] [offsetLine offset, address]

/-- The size of the memory in pages. -/
def memorySize : Node := ofText "memory.size"

/-- Grows the memory and yields its former size, or -1. -/
def memoryGrow (pages : Node) : Node := ofGroup ["memory.grow"] [pages]

/-! ## Control -/

/-- The header token for a result, where there is one. -/
def resultTokens : Option ValueType → List String
  | none => []
  | some type => ["(result " ++ type.mnemonic ++ ")"]

/-- The condition, then the two branches. The second one is there only if it is given. -/
def ifThen (result : Option ValueType) (condition : Node) (consequent : List Node)
    (alternative : Option (List Node)) : Node :=
  let alternatives :=
    match alternative with
    | none => []
    | some nodes => [ofGroup ["else"] nodes]
  ofGroup ("if" :: resultTokens result) (condition :: ofGroup ["then"] consequent :: alternatives)

/-- A group that declares a label in a scope of its own. -/
def labelled (keyword label : String) (children : List Node) : Node :=
  ((ofGroup [keyword, sigil label] children).withScope .label).declaring .label label

/-- Jumps to a label. -/
def breakTo (label : String) : Node :=
  (ofText ("br " ++ sigil label)).referring .label label

/-- Jumps to a label if the condition is not zero. -/
def breakIf (label : String) (condition : Node) : Node :=
  (ofGroup ["br_if", sigil label] [condition]).referring .label label

/-- The body, then a jump back to its start while the condition is not zero. -/
def loopWhile (label : String) (condition : Node) (body : List Node) : Node :=
  labelled "loop" label (body ++ [breakIf label condition])

/-- The body. A jump to the label leaves it. -/
def block (label : String) (body : List Node) : Node := labelled "block" label body

/-- Returns a value from the function. -/
def returnValue (value : Node) : Node := ofGroup ["return"] [value]

/-- Returns nothing from the function. -/
def returnVoid : Node := ofHeader ["return"]

/-- The first operand if the condition is not zero, else the second. -/
def select (first second condition : Node) : Node := ofGroup ["select"] [first, second, condition]

/-- Evaluates a value and forgets it. -/
def drop (value : Node) : Node := ofGroup ["drop"] [value]

/-- Calls a function. The reference states how many arguments the call passes. -/
def call (name : String) (arguments : List Node) : Node :=
  (ofGroup ["call", sigil name] arguments).withSymbol
    ((SymbolUse.referring .function name).withArity arguments.length)

end Node

end WasmWorkshop
