import WasmWorkshop.ValueType
import WasmWorkshop.Symbol

/-!
# Function prototypes

A prototype is everything about a function except its body. Its parameters and its locals are
ordered lists of typed names in which every name occurs once: naming again one that is there
replaces its type and leaves its place (`TypedNames.insert`). The place of a parameter is its place
in a call, so the order is part of the meaning.

A prototype is made by steps (`PrototypeStep`), each of which touches one of its parts.
-/

set_option autoImplicit false

namespace WasmWorkshop

/-! ## Ordered lists of typed names -/

/-- Names with their types, in the order in which they were first named. -/
structure TypedNames where
  entries : List (String × ValueType) := []
  deriving DecidableEq

namespace TypedNames

/-- The empty list. -/
def empty : TypedNames := {}

/-- The entries with `name` given the type `type`: in place if the name is there, else at the
end. -/
def assign (name : String) (type : ValueType) :
    List (String × ValueType) → List (String × ValueType)
  | [] => [(name, type)]
  | (known, knownType) :: rest =>
    if known = name then (known, type) :: rest else (known, knownType) :: assign name type rest

/-- The list with `name` given the type `type`. -/
def insert (names : TypedNames) (name : String) (type : ValueType) : TypedNames :=
  ⟨assign name type names.entries⟩

/-- The list after a sequence of insertions. -/
def insertAll (names : TypedNames) (entries : List (String × ValueType)) : TypedNames :=
  entries.foldl (fun names entry => names.insert entry.1 entry.2) names

/-- The list that a sequence of insertions makes from nothing. -/
def ofList (entries : List (String × ValueType)) : TypedNames := empty.insertAll entries

/-- The type of a name. -/
def get? (names : TypedNames) (name : String) : Option ValueType :=
  names.entries.lookup name

/-- The number of names. -/
def size (names : TypedNames) : Nat := names.entries.length

/-- Whether there is no name. -/
def isEmpty (names : TypedNames) : Bool := names.entries.isEmpty

/-- The names in order. -/
def names (names : TypedNames) : List String := names.entries.map (·.1)

/-- Header tokens such as `(param $a i32)`, for the keyword `param`. -/
def tokens (names : TypedNames) (keyword : String) : List String :=
  names.entries.map fun entry =>
    "(" ++ keyword ++ " " ++ sigil entry.1 ++ " " ++ entry.2.mnemonic ++ ")"

end TypedNames

/-! ## Prototypes -/

/-- A function without its body. -/
structure Prototype where
  name : String
  params : TypedNames := {}
  locals : TypedNames := {}
  result : Option ValueType := none
  /-- Whether the function is exported under its own name. -/
  exported : Bool := true
  deriving DecidableEq

/-- One step in the making of a prototype. -/
inductive PrototypeStep where
  | param (name : String) (type : ValueType)
  | params (entries : List (String × ValueType))
  | localVariable (name : String) (type : ValueType)
  | localVariables (entries : List (String × ValueType))
  | result (type : ValueType)
  /-- Keeps the function out of the exports. -/
  | hidden
  deriving DecidableEq

/-- The prototype of a function that takes nothing, returns nothing and is exported. -/
def Prototype.ofName (name : String) : Prototype := { name := name }

/-- The prototype after one more step. -/
def Prototype.apply (prototype : Prototype) : PrototypeStep → Prototype
  | .param name type => { prototype with params := prototype.params.insert name type }
  | .params entries => { prototype with params := prototype.params.insertAll entries }
  | .localVariable name type => { prototype with locals := prototype.locals.insert name type }
  | .localVariables entries => { prototype with locals := prototype.locals.insertAll entries }
  | .result type => { prototype with result := some type }
  | .hidden => { prototype with exported := false }

/-- The prototype that a sequence of steps makes. -/
def Prototype.ofSteps (name : String) (steps : List PrototypeStep) : Prototype :=
  steps.foldl Prototype.apply (.ofName name)

end WasmWorkshop
