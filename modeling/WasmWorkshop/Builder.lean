import WasmWorkshop.DataLayout
import WasmWorkshop.LineWriter
import WasmWorkshop.SymbolCheck

/-!
# The module under construction

A builder makes the text of one module. It has a location, a layout of data literals, and the
top-level nodes so far. The module itself is built once: the builder starts out unopened, is open
while the body of the module is made, and is closed from then on (`Phase`).

Only a closed builder can be finished (`ModuleBuilder.finish`). A data literal that did not fit, and
after that an error of the symbol check, are reported instead of the text.
-/

set_option autoImplicit false

namespace WasmWorkshop

/-- Where a builder is in the construction of its module. -/
inductive Phase where
  /-- There is no module yet. -/
  | unopened
  /-- The body of the module is being made. -/
  | building
  /-- The module is there. -/
  | closed
  deriving DecidableEq

/-- The name of a phase. -/
def Phase.name : Phase → String
  | .unopened => "Empty"
  | .building => "Open"
  | .closed => "Closed"

/-- Why a module cannot be finished. -/
inductive BuildError where
  | symbols (report : Report)
  | notClosed (phase : Phase)
  | dataOverflow (cursor : Nat)
  deriving DecidableEq

/-- How an error is shown. -/
def BuildError.message : BuildError → String
  | .symbols report => "symbol check failed: " ++ report.text
  | .notClosed phase => "module is not closed (state: " ++ phase.name ++ ")"
  | .dataOverflow cursor =>
    "data region overflows 32-bit memory at offset " ++ toString cursor

/-- A module under construction. -/
structure ModuleBuilder where
  /-- Where the module goes, without an extension. -/
  location : String
  options : LayoutOptions := {}
  layout : DataLayout := {}
  phase : Phase := .unopened
  /-- The top-level nodes in order. -/
  items : List Node := []

namespace ModuleBuilder

/-- A builder that has built nothing. -/
def create (location : String) (options : LayoutOptions) : ModuleBuilder :=
  { location, options }

/-- The size of the data region so far. -/
def allocation (builder : ModuleBuilder) : Nat := builder.layout.cursor

/-- The builder with one more top-level node. -/
def append (builder : ModuleBuilder) (node : Node) : ModuleBuilder :=
  { builder with items := builder.items ++ [node] }

/-- The builder with the module opened. -/
def openModule (builder : ModuleBuilder) : ModuleBuilder := { builder with phase := .building }

/-- The builder with the module closed and put among the top-level nodes. -/
def closeModule (builder : ModuleBuilder) (body : List Node) : ModuleBuilder :=
  { builder with phase := .closed }.append (.ofGroup ["module"] body)

/-- The builder after a data literal. -/
def place (builder : ModuleBuilder) (bytes : List UInt8) : ModuleBuilder :=
  { builder with layout := builder.layout.place bytes }

/-- The builder after a stretch of the data region is reserved. -/
def reserve (builder : ModuleBuilder) (length : Nat) : ModuleBuilder :=
  { builder with layout := builder.layout.reserve length }

/-- The text of everything built so far. -/
def render (builder : ModuleBuilder) : String := Node.render builder.items builder.options

/-- The symbol check of everything built so far. -/
def check (builder : ModuleBuilder) : Except Report Unit := checkSymbols builder.items

/-- The text of the finished module. -/
def finish (builder : ModuleBuilder) : Except BuildError String :=
  if builder.phase ≠ .closed then .error (.notClosed builder.phase)
  else if builder.layout.overflowed then .error (.dataOverflow builder.allocation)
  else
    match builder.check with
    | .error report => .error (.symbols report)
    | .ok () => .ok builder.render

end ModuleBuilder

end WasmWorkshop
