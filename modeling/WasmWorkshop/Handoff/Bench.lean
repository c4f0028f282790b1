import WasmWorkshop.Handoff.Pipeline
import WasmWorkshop.Handoff.Script
import WasmWorkshop.Listing

/-!
# A small world to run modules in

The world has a disk, three programs and the machine. The programs are one that succeeds, one that
fails, and a shell that runs its first argument as a script. The state also keeps the host calls of
the last instantiation.

An instance is summed up by its exports, the digest of its binary, a listing of it and the size of
its memory (`Summary`).
-/

set_option autoImplicit false

namespace WasmWorkshop.Handoff

open Machine (HostCall HostImports Instance)

/-- The state of the small world. -/
structure Bench where
  disk : Disk := {}
  calls : List HostCall := []

/-- Runs one of the programs of the small world. -/
def Bench.launch (bench : Bench) (invocation : Invocation) :
    Except SystemFault Completion × Bench :=
  if (invocation.program :: invocation.arguments).any holdsNul then (.error .nulInArgument, bench)
  else if nameLimit < invocation.program.utf8ByteSize then (.error .nameTooLong, bench)
  else
    match invocation.program with
    | "true" => (.ok ⟨0, []⟩, bench)
    | "false" => (.ok ⟨1, []⟩, bench)
    | "sh" =>
      match bench.disk.read (invocation.arguments.headD "") with
      | .error _ => (.ok ⟨2, utf8Bytes "sh: 0: cannot open the script\n"⟩, bench)
      | .ok bytes =>
        let final := runScript bench.disk (decodeLossy bytes) invocation.arguments
        (.ok ⟨final.status, final.errors⟩, { bench with disk := final.disk })
    | _ => (.error .notFound, bench)

/-- The small world. -/
def bench : World Bench Instance where
  write path text state :=
    match state.disk.write path (utf8Bytes text) with
    | .ok disk => (.ok (), { state with disk })
    | .error fault => (.error fault, state)
  launch invocation state := state.launch invocation
  read path state := (state.disk.read path, state)
  validate bytes state := (Machine.isValidBinary bytes, state)
  instantiate imports bytes state :=
    let (outcome, calls) := Machine.instantiate imports bytes
    (outcome, { state with calls })

/-! ## Summaries -/

/-- What can be seen of an instance from outside. -/
structure Summary where
  exports : List String
  digest : String
  listing : String
  /-- The size of the exported memory in bytes. -/
  memory : Option Nat
  deriving DecidableEq

/-- The summary of an instance. -/
def summarize (inst : Instance) : Summary where
  exports := inst.exportNames
  digest := inst.digest
  listing :=
    "LoadedModule \x7b bytes: " ++ toString inst.binary.length ++ ", exports: " ++
      WasmWorkshop.listing inst.exportNames ++ " \x7d"
  memory := inst.memory?.map (·.size)

/-! ## Single runs -/

/-- The outcome of a run, and the files that it leaves. -/
structure Rehearsal (α : Type) where
  outcome : Except Failure α
  files : List (String × String)

/-- Runs a step on a disk that has only directories. -/
def rehearse {α : Type} (directories : List String) (step : Step Bench α) : Rehearsal α :=
  let (outcome, state) := step.run { disk := Disk.ofDirectories directories }
  ⟨outcome, state.disk.listFiles.map fun file => (file.1, decodeLossy file.2)⟩

/-- Takes a builder to a running module in the small world, without host functions. -/
def rehearseRun (builder : ModuleBuilder) (toolchain : Toolchain) (directories : List String) :
    Rehearsal Summary :=
  rehearse directories do
    let inst ← bench.compileAndRun builder toolchain {}
    return summarize inst

/-- Compiles a text in the small world. -/
def rehearseCompile (toolchain : Toolchain) (location text : String)
    (directories : List String) : Rehearsal Artifact :=
  rehearse directories (bench.compile toolchain location text)

/-- Loads a binary from the file `path`, which has the given contents or is missing. Beside the
outcome stand the host calls that were made. -/
def rehearseLoad (path : String) (contents : Option (List UInt8)) (imports : HostImports) :
    Except Failure Instance × List HostCall :=
  let files := contents.toList.map fun bytes => ([path], bytes)
  let (outcome, state) := (bench.load path imports).run { disk := { files } }
  (outcome, state.calls)

/-- Instantiates a binary as it is. Beside the outcome stand the host calls that were made. -/
def rehearseStart (contents : List UInt8) (imports : HostImports) :
    Except Failure Instance × List HostCall :=
  let (outcome, state) := (bench.start contents imports).run {}
  (outcome, state.calls)

end WasmWorkshop.Handoff
