import WasmWorkshop.Diagnostic
import WasmWorkshop.Handoff.Failure
import WasmWorkshop.Handoff.Toolchain
import WasmWorkshop.Json.Reading
import WasmWorkshop.Json.Writing
import WasmWorkshop.LineWriter
import WasmWorkshop.ValueType

/-!
# The JSON forms of the library's values

Types, namespaces, kinds and stages are named values. Diagnostics, reports, layout options and tool
chains are records. A record is written as an object with its fields in order; the function of a
diagnostic is left out where there is none, and is the one field that may be missing or `null` when
a diagnostic is read. Layout options and tool chains take their standard values for what is missing.

Each record has an incomplete form, in which every field may be missing.
-/

set_option autoImplicit false

namespace WasmWorkshop.Json

open Handoff (Stage Toolchain)

/-! ## Names -/

/-- The names of the value types. -/
def valueTypes : Naming ValueType :=
  [("int", .int), ("long", .long), ("float", .float), ("double", .double)]

/-- The names of the integer types. -/
def integerTypes : Naming IntegerType := [("int", .int), ("long", .long)]

/-- The names of the float types. -/
def floatTypes : Naming FloatType := [("float", .float), ("double", .double)]

/-- The names of the element types of tables. -/
def refTypes : Naming RefType := [("funcref", .funcref), ("externref", .externref)]

/-- The names of the namespaces. -/
def namespaces : Naming Namespace :=
  [("func", .function), ("global", .global), ("local", .localVariable), ("table", .table),
   ("label", .label)]

/-- The names of the kinds of diagnostics. -/
def diagnosticKinds : Naming DiagnosticKind :=
  [("undeclared_symbol", .undeclaredSymbol), ("duplicate_declaration", .duplicateDeclaration),
   ("arity_mismatch", .arityMismatch)]

/-- The names of the stages. -/
def stages : Naming Stage :=
  [("check", .check), ("write", .write), ("compile", .compile), ("load", .load),
   ("instantiate", .instantiate)]

/-- The name of a value. -/
def Naming.name {α : Type} [DecidableEq α] (naming : Naming α) (value : α) : String :=
  match naming.find? (·.2 = value) with
  | some entry => entry.1
  | none => ""

/-- A named value as it is written. -/
def writeNamed {α : Type} [DecidableEq α] (naming : Naming α) (value : α) : List Char :=
  writeText (naming.name value)

/-! ## Fields -/

/-- A field that holds a value of type `β` in the incomplete form. -/
def fieldOf {σ β : Type} (key : String) (get : σ → Option β) (set : σ → β → σ)
    (reader : Reader β) : Field σ where
  key := key
  isSet partly := (get partly).isSome
  fill partly text :=
    match reader text with
    | .ok (value, rest) => .ok (set partly value, rest)
    | .error fault => .error fault

/-! ## Diagnostic codes -/

/-- One more than the greatest code. -/
def codeRange : Nat := 0x10000

/-- Reads a code. -/
def readCodeNumber : Reader UInt16 := fun text =>
  match readNatural codeRange text with
  | .ok (value, rest) => .ok (UInt16.ofNat value, rest)
  | .error fault => .error fault

/-- A code as it is written. -/
def writeCodeNumber (code : UInt16) : List Char := writeNatural code.toNat

/-! ## Diagnostics -/

/-- A diagnostic in which fields may be missing. -/
structure PartialDiagnostic where
  kind : Option DiagnosticKind := none
  code : Option UInt16 := none
  space : Option Namespace := none
  name : Option String := none
  function : Option (Option String) := none
  message : Option String := none

/-- How a diagnostic is read. -/
def diagnosticRecord : Record PartialDiagnostic Diagnostic where
  fields :=
    [fieldOf "kind" (·.kind) (fun partly value => { partly with kind := some value })
      (readNamed diagnosticKinds),
     fieldOf "code" (·.code) (fun partly value => { partly with code := some value })
      readCodeNumber,
     fieldOf "namespace" (·.space) (fun partly value => { partly with space := some value })
      (readNamed namespaces),
     fieldOf "name" (·.name) (fun partly value => { partly with name := some value }) readText,
     fieldOf "function" (·.function) (fun partly value => { partly with function := some value })
      (readOptional readText),
     fieldOf "message" (·.message) (fun partly value => { partly with message := some value })
      readText]
  blank := {}
  complete partly := do
    return ⟨← partly.kind, ← partly.code, ← partly.space, ← partly.name, partly.function.getD none,
      ← partly.message⟩

/-- Reads a diagnostic. -/
def readDiagnostic : Reader Diagnostic := readRecord diagnosticRecord

/-- A diagnostic as it is written. -/
def writeDiagnostic (diagnostic : Diagnostic) : List Char :=
  let function :=
    match diagnostic.function with
    | none => []
    | some function => [("function", writeText function)]
  writeObject
    ([("kind", writeNamed diagnosticKinds diagnostic.kind),
      ("code", writeCodeNumber diagnostic.code),
      ("namespace", writeNamed namespaces diagnostic.space),
      ("name", writeText diagnostic.name)] ++
      function ++ [("message", writeText diagnostic.message)])

/-! ## Reports -/

/-- A report in which fields may be missing. -/
structure PartialReport where
  errors : Option (List Diagnostic) := none
  total : Option Nat := none

/-- How a report is read. -/
def reportRecord : Record PartialReport Report where
  fields :=
    [fieldOf "errors" (·.errors) (fun partly value => { partly with errors := some value })
      (readList readDiagnostic),
     fieldOf "total_errors" (·.total) (fun partly value => { partly with total := some value })
      (readNatural longRange)]
  blank := {}
  complete partly := do
    return ⟨← partly.errors, ← partly.total⟩

/-- Reads a report. -/
def readReport : Reader Report := readRecord reportRecord

/-- A report as it is written. -/
def writeReport (report : Report) : List Char :=
  writeObject
    [("errors", writeArray (report.errors.map writeDiagnostic)),
     ("total_errors", writeNatural report.total)]

/-! ## Layout options -/

/-- Layout options in which fields may be missing. -/
structure PartialLayoutOptions where
  indentWidth : Option Nat := none

/-- How layout options are read. -/
def layoutOptionsRecord : Record PartialLayoutOptions LayoutOptions where
  fields :=
    [fieldOf "indent_width" (·.indentWidth)
      (fun partly value => { partly with indentWidth := some value }) (readNatural longRange)]
  blank := {}
  complete partly := some ⟨partly.indentWidth.getD ({} : LayoutOptions).indentWidth⟩

/-- Reads layout options. -/
def readLayoutOptions : Reader LayoutOptions := readRecord layoutOptionsRecord

/-- Layout options as they are written. -/
def writeLayoutOptions (options : LayoutOptions) : List Char :=
  writeObject [("indent_width", writeNatural options.indentWidth)]

/-! ## Tool chains -/

/-- A tool chain in which fields may be missing. -/
structure PartialToolchain where
  compiler : Option String := none
  outputFlag : Option String := none
  textExtension : Option String := none
  binaryExtension : Option String := none

/-- The tool chain with standard values for what is missing. -/
def PartialToolchain.complete (partly : PartialToolchain) : Toolchain where
  compiler := partly.compiler.getD ({} : Toolchain).compiler
  outputFlag := partly.outputFlag.getD ({} : Toolchain).outputFlag
  textExtension := partly.textExtension.getD ({} : Toolchain).textExtension
  binaryExtension := partly.binaryExtension.getD ({} : Toolchain).binaryExtension

/-- How a tool chain is read. -/
def toolchainRecord : Record PartialToolchain Toolchain where
  fields :=
    [fieldOf "compiler" (·.compiler) (fun partly value => { partly with compiler := some value })
      readText,
     fieldOf "output_flag" (·.outputFlag)
      (fun partly value => { partly with outputFlag := some value }) readText,
     fieldOf "text_extension" (·.textExtension)
      (fun partly value => { partly with textExtension := some value }) readText,
     fieldOf "binary_extension" (·.binaryExtension)
      (fun partly value => { partly with binaryExtension := some value }) readText]
  blank := {}
  complete partly := some partly.complete

/-- Reads a tool chain. -/
def readToolchain : Reader Toolchain := readRecord toolchainRecord

/-- A tool chain as it is written. -/
def writeToolchain (toolchain : Toolchain) : List Char :=
  writeObject
    [("compiler", writeText toolchain.compiler),
     ("output_flag", writeText toolchain.outputFlag),
     ("text_extension", writeText toolchain.textExtension),
     ("binary_extension", writeText toolchain.binaryExtension)]

/-! ## Texts -/

/-- Written characters as a text. -/
def textOf (written : List Char) : String := String.ofList written

/-- Reads a tool chain from a whole text. -/
def decodeToolchain (text : String) : Except Fault Toolchain := decode readToolchain text

end WasmWorkshop.Json
