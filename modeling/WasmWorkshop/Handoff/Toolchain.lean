import WasmWorkshop.Blank

/-!
# The tool chain

How the external compiler is started: its name, the flag that announces the output, and the
extensions of the text file and of the binary file. The paths of both files are the location of the
module with an extension after it; dots in the location stay.

The name of the compiler may be overridden from the environment. A blank override is none, and any
other one is taken as it stands, blanks at its ends included.
-/

set_option autoImplicit false

namespace WasmWorkshop.Handoff

/-- How the external compiler is started. -/
structure Toolchain where
  compiler : String := "wat2wasm"
  outputFlag : String := "-o"
  textExtension : String := "wat"
  binaryExtension : String := "wasm"
  deriving DecidableEq

/-- The files of one compilation. -/
structure Artifact where
  textPath : String
  binaryPath : String
  deriving DecidableEq

namespace Toolchain

/-- The tool chain with another compiler. -/
def withCompiler (toolchain : Toolchain) (compiler : String) : Toolchain :=
  { toolchain with compiler := compiler }

/-- The tool chain with the compiler that the environment names, if it names one. -/
def override (toolchain : Toolchain) (environment : Option String) : Toolchain :=
  match environment with
  | none => toolchain
  | some compiler => if isBlank compiler then toolchain else toolchain.withCompiler compiler

/-- The standard tool chain with the compiler that the environment names. -/
def ofEnvironment (environment : Option String) : Toolchain :=
  ({} : Toolchain).override environment

/-- The files for a module at a location. -/
def artifact (toolchain : Toolchain) (location : String) : Artifact :=
  ⟨location ++ "." ++ toolchain.textExtension, location ++ "." ++ toolchain.binaryExtension⟩

end Toolchain

end WasmWorkshop.Handoff
