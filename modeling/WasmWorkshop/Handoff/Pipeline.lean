import WasmWorkshop.Bytes
import WasmWorkshop.Handoff.Failure
import WasmWorkshop.Handoff.Toolchain

/-!
# From a builder to a running module

The steps are: finish the builder, write the text, run the compiler on it, read the binary,
validate it, instantiate it. They stop at the first failure, and no step is tried twice.

The outside world is a parameter (`World`). It has a state, and each step that leaves the program is
a function that changes the state and tells its outcome. What the steps do is therefore a statement
about any world: one that records what was asked of it, one in which a certain step fails, or the
small world of files and scripts that is used to run modules here.

A compilation succeeds when the compiler exits with status zero and what it wrote to standard
error is blank. The bytes it wrote are read as UTF-8 with replacements, and blanks at both ends are
dropped, before it is decided whether there is anything (`judge`).
-/

set_option autoImplicit false

namespace WasmWorkshop.Handoff

open Machine (HostImports InstanceError)

/-- A program and its arguments. -/
structure Invocation where
  program : String
  arguments : List String
  deriving DecidableEq

/-- How a program ended, and what it wrote to standard error. A program ends by exiting; an end by a
signal has no counterpart. -/
structure Completion where
  /-- The exit status. -/
  status : Nat
  errors : List UInt8
  deriving DecidableEq

/-- What is outside of the program, with states `σ` and instances `ι`. -/
structure World (σ ι : Type) where
  /-- Writes a text file. -/
  write : String → String → σ → Except SystemFault Unit × σ
  /-- Runs a program to its end. -/
  launch : Invocation → σ → Except SystemFault Completion × σ
  /-- Reads a file. -/
  read : String → σ → Except SystemFault (List UInt8) × σ
  /-- Whether a binary is a valid module. -/
  validate : List UInt8 → σ → Bool × σ
  /-- Links, lays out and starts a module. -/
  instantiate : HostImports → List UInt8 → σ → Except InstanceError ι × σ

/-- A computation that changes the world and can fail. -/
abbrev Step (σ α : Type) := ExceptT Failure (StateM σ) α

/-- A step of the world, its fault stated as a failure. -/
def Step.ofWorld {σ ε α : Type} (failure : ε → Failure) (step : σ → Except ε α × σ) : Step σ α :=
  ExceptT.mk fun state =>
    match step state with
    | (.ok value, next) => (.ok value, next)
    | (.error fault, next) => (.error (failure fault), next)

/-- A failure that is known without asking the world. -/
def Step.fail {σ α : Type} (failure : Failure) : Step σ α :=
  ExceptT.mk fun state => (.error failure, state)

/-- What a program wrote, as it is shown. -/
def errorText (bytes : List UInt8) : String := trimBlank (decodeLossy bytes)

/-- Whether the compiler succeeded. -/
def judge (compiler : String) (completion : Completion) : Except Failure Unit :=
  let errors := errorText completion.errors
  if completion.status ≠ 0 then .error (.exit compiler completion.status errors)
  else if errors = "" then .ok ()
  else .error (.diagnostics compiler errors)

/-- How the compiler is started on the files of a compilation. -/
def Toolchain.invocation (toolchain : Toolchain) (artifact : Artifact) : Invocation :=
  ⟨toolchain.compiler, [artifact.textPath, toolchain.outputFlag, artifact.binaryPath]⟩

namespace World

variable {σ ι : Type}

/-- Writes the text of a module and compiles it. -/
def compile (world : World σ ι) (toolchain : Toolchain) (location text : String) :
    Step σ Artifact := do
  let artifact := toolchain.artifact location
  Step.ofWorld (.write artifact.textPath) (world.write artifact.textPath text)
  let completion ←
    Step.ofWorld (.launch toolchain.compiler) (world.launch (toolchain.invocation artifact))
  match judge toolchain.compiler completion with
  | .error failure => Step.fail failure
  | .ok () => return artifact

/-- Instantiates a binary. -/
def start (world : World σ ι) (bytes : List UInt8) (imports : HostImports) : Step σ ι :=
  Step.ofWorld .instantiate (world.instantiate imports bytes)

/-- Reads, validates and instantiates a binary. -/
def load (world : World σ ι) (path : String) (imports : HostImports) : Step σ ι := do
  let bytes ← Step.ofWorld (.load path) (world.read path)
  let isValid ← (fun state => let (answer, next) := world.validate bytes state; (.ok answer, next))
  if isValid then world.start bytes imports else Step.fail (.invalid path)

/-- Takes a builder all the way to a running module. -/
def compileAndRun (world : World σ ι) (builder : ModuleBuilder) (toolchain : Toolchain)
    (imports : HostImports) : Step σ ι :=
  match builder.finish with
  | .error error => Step.fail (.check error)
  | .ok text => do
    let artifact ← world.compile toolchain builder.location text
    world.load artifact.binaryPath imports

end World

end WasmWorkshop.Handoff
