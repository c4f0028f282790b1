import WasmWorkshop.Binary.Module
import WasmWorkshop.Machine.Value

/-!
# Host functions

A module imports functions of the host by library and field. A host function has a type and gives
results for arguments; it has no other effect, but every call is logged with its arguments under the
number that the function was provided with.

`HostImports` keeps the functions in the order of library and field, each pair once: providing a
pair again replaces the function.
-/

set_option autoImplicit false

namespace WasmWorkshop.Machine

open Binary (FunctionType)

/-- A function of the host. -/
structure HostFunction where
  /-- What calls of this function are logged under. -/
  number : Nat
  type : FunctionType
  respond : List Value → List Value

/-- One call of a host function. -/
structure HostCall where
  function : Nat
  arguments : List Value
  deriving DecidableEq

/-! ## Ready-made host functions -/

namespace HostFunction

/-- Takes nothing and returns nothing. -/
def tick (number : Nat) : HostFunction := ⟨number, ⟨[], []⟩, fun _ => []⟩

/-- Takes a word and returns nothing. -/
def log (number : Nat) : HostFunction := ⟨number, ⟨[.int], []⟩, fun _ => []⟩

/-- Takes two words and returns nothing. -/
def logPair (number : Nat) : HostFunction := ⟨number, ⟨[.int, .int], []⟩, fun _ => []⟩

/-- Returns the word seven. -/
def seven (number : Nat) : HostFunction := ⟨number, ⟨[], [.int]⟩, fun _ => [.word 7]⟩

/-- Returns the successor of a word, which wraps around. -/
def successor (number : Nat) : HostFunction :=
  ⟨number, ⟨[.int], [.int]⟩, fun
    | [.word value] => [.word (value + 1)]
    | _ => [.word 0]⟩

/-- Returns the double of a long word, which wraps around. -/
def double (number : Nat) : HostFunction :=
  ⟨number, ⟨[.long], [.long]⟩, fun
    | [.long value] => [.long (value * 2)]
    | _ => [.long 0]⟩

end HostFunction

/-! ## Import tables -/

/-- A function provided for imports of a library and a field. -/
structure HostEntry where
  library : String
  field : String
  function : HostFunction

/-- The functions that the host provides, in the order of library and field. -/
structure HostImports where
  entries : List HostEntry := []

namespace HostImports

/-- No function at all. -/
def empty : HostImports := {}

/-- The entries with one more, which replaces one for the same library and field. -/
def insertEntry (entry : HostEntry) : List HostEntry → List HostEntry
  | [] => [entry]
  | first :: rest =>
    if entry.library = first.library ∧ entry.field = first.field then entry :: rest
    else if entry.library < first.library ∨
        (entry.library = first.library ∧ entry.field < first.field) then
      entry :: first :: rest
    else first :: insertEntry entry rest

/-- The imports with a function provided for a library and a field. -/
def provide (imports : HostImports) (library field : String) (function : HostFunction) :
    HostImports :=
  ⟨insertEntry ⟨library, field, function⟩ imports.entries⟩

/-- The number of functions. -/
def size (imports : HostImports) : Nat := imports.entries.length

/-- Whether there is no function. -/
def isEmpty (imports : HostImports) : Bool := imports.entries.isEmpty

/-- The function for a library and a field. -/
def find? (imports : HostImports) (library field : String) : Option HostFunction :=
  (imports.entries.find? fun entry => entry.library = library ∧ entry.field = field).map
    (·.function)

/-- The names of the functions, in order. -/
def names (imports : HostImports) : List String :=
  imports.entries.map fun entry => entry.library ++ "." ++ entry.field

end HostImports

end WasmWorkshop.Machine
