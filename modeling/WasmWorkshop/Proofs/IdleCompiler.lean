import WasmWorkshop.Proofs.DiskFiles

/-!
# A compiler that writes nothing

A run trusts a compiler that ends with success and does not look whether it has written the binary
file. What is loaded is what stands at the path of that file, so after a compiler that leaves the
file as it was (`World.Idles`) the run fails at the loading stage exactly if there was nothing valid
to read already (`idle_fails_at_load_iff`). In the small world that was decided when the run began
(`true_fails_at_load_iff`). A binary that an earlier run has left is instantiated in place of the
module that was built (`idle_runs_stale_binary`).
-/

set_option autoImplicit false

namespace WasmWorkshop.Handoff

open Machine (HostImports)

variable {σ ι : Type}

namespace World

/-- The state after the text of a module is written. -/
def written (world : World σ ι) (toolchain : Toolchain) (location text : String) (state : σ) : σ :=
  (world.write (toolchain.artifact location).textPath text state).2

/-- The state after the compiler has ended. -/
def compiled (world : World σ ι) (toolchain : Toolchain) (location text : String) (state : σ) : σ :=
  (world.launch (toolchain.invocation (toolchain.artifact location))
    (world.written toolchain location text state)).2

/-- The compiler ends with success and without a word, and leaves the binary file as it is. -/
structure Idles (world : World σ ι) (toolchain : Toolchain) (location text : String) (state : σ) :
    Prop where
  /-- The text is written. -/
  writes : (world.write (toolchain.artifact location).textPath text state).1 = .ok ()
  /-- The compiler succeeds. -/
  succeeds : ∃ completion,
    (world.launch (toolchain.invocation (toolchain.artifact location))
      (world.written toolchain location text state)).1 = .ok completion ∧
    completion.status = 0 ∧ errorText completion.errors = ""
  /-- The binary file reads as it did before. -/
  untouched :
    (world.read (toolchain.artifact location).binaryPath
      (world.compiled toolchain location text state)).1 =
    (world.read (toolchain.artifact location).binaryPath
      (world.written toolchain location text state)).1

/-- Whether a binary is valid does not depend on the state of the world. -/
def JudgesBytes (world : World σ ι) (isValid : List UInt8 → Bool) : Prop :=
  ∀ bytes state, (world.validate bytes state).1 = isValid bytes

end World

/-- The run has failed while the binary was read or validated. -/
def FailsAtLoad {α : Type} (outcome : Except Failure α) : Prop :=
  ∃ failure, outcome = .error failure ∧ failure.stage = .load

section

variable {world : World σ ι} {toolchain : Toolchain} {location text : String} {state : σ}
  {isValid : List UInt8 → Bool}

section Loading

variable {path : String} {bytes : List UInt8}

theorem load_of_unreadable {fault : SystemFault} (imports : HostImports)
    (unreadable : (world.read path state).1 = .error fault) :
    ((world.load path imports).run state).1 = .error (.load path fault) := by
  rw [World.load_eq, Step.run_bind, Step.run_ofWorld, unreadable]
  rfl

/-- A binary that was read is instantiated if it is valid. -/
theorem load_of_readable (judges : world.JudgesBytes isValid) (imports : HostImports)
    (readable : (world.read path state).1 = .ok bytes) :
    ((world.load path imports).run state).1 =
      if isValid bytes then
        (world.instantiate imports bytes
          (world.validate bytes (world.read path state).2).2).1.mapError .instantiate
      else .error (.invalid path) := by
  rw [World.load_eq, Step.run_bind, Step.run_ofWorld, readable]
  change ((Step.asking (world.validate bytes) >>= _).run (world.read path state).2).1 = _
  rw [Step.run_bind]
  change ((if (world.validate bytes (world.read path state).2).1 = true then
    world.start bytes imports else Step.fail (.invalid path)).run _).1 = _
  rw [judges]
  split_ifs
  · rw [World.start, Step.run_ofWorld]
  · rfl

/-- Loading fails as such where no valid binary can be read, and not where the module that was read
cannot be instantiated. -/
theorem failsAtLoad_load_iff (judges : world.JudgesBytes isValid) (imports : HostImports) :
    FailsAtLoad ((world.load path imports).run state).1 ↔
      ∀ bytes, (world.read path state).1 = .ok bytes → isValid bytes = false := by
  cases answer : (world.read path state).1 with
  | error fault =>
      rw [load_of_unreadable imports answer]
      constructor
      · intro _ bytes readable
        cases readable
      · intro _
        exact ⟨_, rfl, rfl⟩
  | ok bytes =>
      rw [load_of_readable judges imports answer]
      cases valid : isValid bytes with
      | false =>
          constructor
          · intro _ other same
            cases same
            exact valid
          · intro _
            exact ⟨_, rfl, rfl⟩
      | true =>
          constructor
          · rintro ⟨failure, failed, stage⟩
            rw [if_pos rfl] at failed
            cases outcome : (world.instantiate imports bytes
                (world.validate bytes (world.read path state).2).2).1 with
            | ok inst =>
                rw [outcome] at failed
                cases failed
            | error error =>
                rw [outcome] at failed
                cases failed
                cases stage
          · intro invalid
            cases valid.symm.trans (invalid bytes rfl)

end Loading

/-- After a compiler that idles, the run goes on with whatever is at the path of the binary. -/
theorem run_of_idles {builder : ModuleBuilder} (imports : HostImports)
    (finished : builder.finish = .ok text)
    (idles : world.Idles toolchain builder.location text state) :
    (world.compileAndRun builder toolchain imports).run state =
      (world.load (toolchain.artifact builder.location).binaryPath imports).run
        (world.compiled toolchain builder.location text state) := by
  obtain ⟨completion, launched, status, silent⟩ := idles.succeeds
  have judged : judge toolchain.compiler completion = .ok () := by
    simp [judge, status, silent]
  have compiles : (world.compile toolchain builder.location text).run state =
      (.ok (toolchain.artifact builder.location),
        world.compiled toolchain builder.location text state) := by
    rw [World.compile, Step.run_bind, Step.run_ofWorld, idles.writes]
    change ((Step.ofWorld (.launch toolchain.compiler) _ >>= _).run
      (world.written toolchain builder.location text state)) = _
    rw [Step.run_bind, Step.run_ofWorld, launched]
    dsimp only [Except.mapError]
    rw [judged]
    rfl
  rw [World.compileAndRun, finished]
  change ((world.compile toolchain builder.location text >>= _).run state) = _
  rw [Step.run_bind, compiles]

theorem failsAtLoad_iff_of_idles {builder : ModuleBuilder} (judges : world.JudgesBytes isValid)
    (imports : HostImports) (finished : builder.finish = .ok text)
    (idles : world.Idles toolchain builder.location text state) :
    FailsAtLoad ((world.compileAndRun builder toolchain imports).run state).1 ↔
      ∀ bytes, (world.read (toolchain.artifact builder.location).binaryPath
        (world.written toolchain builder.location text state)).1 = .ok bytes →
          isValid bytes = false := by
  rw [run_of_idles imports finished idles, ← idles.untouched]
  exact failsAtLoad_load_iff judges imports

/-- **What comes of a run with a compiler that idles** was decided before the compiler was launched:
the run fails at the loading stage exactly if no valid binary could be read by then, and a valid one
is instantiated, whatever the text is. -/
theorem idle_fails_at_load_iff {builder : ModuleBuilder} (judges : world.JudgesBytes isValid)
    (imports : HostImports) (finished : builder.finish = .ok text)
    (idles : world.Idles toolchain builder.location text state) :
    (FailsAtLoad ((world.compileAndRun builder toolchain imports).run state).1 ↔
      ∀ bytes, (world.read (toolchain.artifact builder.location).binaryPath
        (world.written toolchain builder.location text state)).1 = .ok bytes →
          isValid bytes = false) ∧
    ∀ bytes, (world.read (toolchain.artifact builder.location).binaryPath
      (world.written toolchain builder.location text state)).1 = .ok bytes →
        isValid bytes = true → ∃ ready,
          ((world.compileAndRun builder toolchain imports).run state).1 =
            (world.instantiate imports bytes ready).1.mapError .instantiate := by
  refine ⟨failsAtLoad_iff_of_idles judges imports finished idles, ?_⟩
  intro bytes readable valid
  rw [← idles.untouched] at readable
  rw [run_of_idles imports finished idles, load_of_readable judges imports readable, if_pos valid]
  exact ⟨_, rfl⟩

end

/-! ## In the small world -/

theorem bench_judgesBytes : bench.JudgesBytes Machine.isValidBinary := fun _ _ => rfl

/-- The program that only succeeds leaves everything as it is. -/
theorem launch_true {arguments : List String} (state : Bench)
    (noNul : arguments.any holdsNul = false) :
    state.launch ⟨"true", arguments⟩ = (.ok ⟨0, []⟩, state) := by
  have plain : holdsNul "true" = false := by decide
  have short : ¬ nameLimit < "true".utf8ByteSize := by decide
  rw [Bench.launch, List.any_cons, plain, noNul, Bool.or_false, if_neg Bool.false_ne_true,
    if_neg short]
  rfl

theorem bench_idles {toolchain : Toolchain} {location text : String} {state : Bench}
    {disk : Disk} (isTrue : toolchain.compiler = "true")
    (noNul : (toolchain.invocation (toolchain.artifact location)).arguments.any holdsNul = false)
    (writing : state.disk.write (toolchain.artifact location).textPath (utf8Bytes text) =
      .ok disk) :
    bench.written toolchain location text state = { state with disk } ∧
      bench.Idles toolchain location text state := by
  have writes : bench.write (toolchain.artifact location).textPath text state =
      (.ok (), { state with disk }) := by
    simp only [bench, writing]
  have written : bench.written toolchain location text state = { state with disk } :=
    congrArg Prod.snd writes
  have launches : bench.launch (toolchain.invocation (toolchain.artifact location))
      (bench.written toolchain location text state) = (.ok ⟨0, []⟩, { state with disk }) := by
    rw [written]
    change Bench.launch _ ⟨toolchain.compiler, _⟩ = _
    rw [isTrue]
    exact launch_true _ noNul
  refine ⟨written, congrArg Prod.fst writes, ⟨⟨0, []⟩, congrArg Prod.fst launches, rfl, by cbv⟩,
    ?_⟩
  rw [World.compiled, launches, written]

/-- **In the small world, a run with a compiler that only succeeds** fails at the loading stage
exactly if the disk had no valid binary at the path when the run began. -/
theorem true_fails_at_load_iff {builder : ModuleBuilder} {toolchain : Toolchain} {text : String}
    {state : Bench} {disk : Disk} (imports : HostImports) (finished : builder.finish = .ok text)
    (isTrue : toolchain.compiler = "true")
    (noNul : (toolchain.invocation (toolchain.artifact builder.location)).arguments.any holdsNul =
      false)
    (writing : state.disk.write (toolchain.artifact builder.location).textPath (utf8Bytes text) =
      .ok disk)
    (apart : state.disk.resolve (toolchain.artifact builder.location).binaryPath ≠
      state.disk.resolve
        (Disk.withoutFinalSlashes (toolchain.artifact builder.location).textPath)) :
    FailsAtLoad ((bench.compileAndRun builder toolchain imports).run state).1 ↔
      ∀ bytes, state.disk.read (toolchain.artifact builder.location).binaryPath = .ok bytes →
        Machine.isValidBinary bytes = false := by
  obtain ⟨written, idles⟩ := bench_idles isTrue noNul writing
  rw [failsAtLoad_iff_of_idles bench_judgesBytes imports finished idles, written]
  refine forall_congr' fun bytes => ?_
  change disk.read _ = .ok bytes → _ ↔ _
  rw [Disk.read_write_elsewhere writing apart]

/-! ## A stale binary -/

/-- The tool chain whose compiler only succeeds. -/
def idleToolchain : Toolchain := ({} : Toolchain).withCompiler "true"

/-- A bench with files in the working directory. -/
def benchWith (files : List (Path × List UInt8)) : Bench where
  disk := { files }

/-- A binary that an earlier run may have left: a module with a memory of one page. -/
def staleBinary : List UInt8 := Binary.heading ++ [0x05, 0x03, 0x01, 0x00, 0x01]

/-- What the stale binary is instantiated to. -/
def staleInstance : Machine.Instance :=
  ⟨staleBinary, { memories := [⟨1, none⟩] }, [], { memory := some ⟨1, none, {}⟩ }⟩

theorem decode_staleBinary : Binary.decode? staleBinary = some staleInstance.module := rfl

theorem isValidBinary_staleBinary : Machine.isValidBinary staleBinary = true := by
  rw [Machine.isValidBinary, decode_staleBinary]
  rfl

theorem instantiate_staleBinary :
    (Machine.instantiate {} staleBinary).1 = .ok staleInstance := by
  rw [Machine.instantiate, decode_staleBinary]
  rfl

theorem isName_text : Disk.IsName (idleToolchain.artifact "m").textPath :=
  ⟨by decide, by decide, by decide, by decide⟩

theorem isName_binary : Disk.IsName (idleToolchain.artifact "m").binaryPath :=
  ⟨by decide, by decide, by decide, by decide⟩

theorem finish_emptyModule : emptyModule.finish = .ok "(module\n)\n" := by decide

/-- On a disk with files only, the binary is left as it is. -/
theorem idleToolchain_idles (files : List (Path × List UInt8)) :
    bench.written idleToolchain "m" "(module\n)\n" (benchWith files) =
        benchWith (Disk.putFile ["m.wat"] (utf8Bytes "(module\n)\n") files) ∧
      bench.Idles idleToolchain "m" "(module\n)\n" (benchWith files) :=
  bench_idles rfl (by decide) (isName_text.write rfl _)

/-- Where there is no file for the binary, the run fails at the loading stage. -/
theorem idle_fails_at_load_iff_nothing_there :
    FailsAtLoad ((bench.compileAndRun emptyModule idleToolchain {}).run (benchWith [])).1 := by
  obtain ⟨written, idles⟩ := idleToolchain_idles []
  refine (idle_fails_at_load_iff bench_judgesBytes {} finish_emptyModule idles).1.mpr ?_
  intro bytes readable
  change (bench.read (idleToolchain.artifact "m").binaryPath (bench.written idleToolchain "m"
    "(module\n)\n" (benchWith []))).1 = .ok bytes at readable
  rw [written] at readable
  have held := (isName_binary.read rfl bytes).mp readable
  cases held

/-- **A stale binary is instantiated in place of the module that was built.** The compiler has
written nothing, and the run succeeds with a memory that the finished text does not have. -/
theorem idle_runs_stale_binary :
    emptyModule.finish = .ok "(module\n)\n" ∧
      idleToolchain.textExtension ≠ idleToolchain.binaryExtension ∧
      bench.Idles idleToolchain emptyModule.location "(module\n)\n"
        (benchWith [(["m.wasm"], staleBinary)]) ∧
      ∃ inst, ((bench.compileAndRun emptyModule idleToolchain {}).run
        (benchWith [(["m.wasm"], staleBinary)])).1 = .ok inst ∧ inst.store.memory.isSome := by
  obtain ⟨written, idles⟩ := idleToolchain_idles [(["m.wasm"], staleBinary)]
  refine ⟨finish_emptyModule, by decide, idles, ?_⟩
  have readable : (bench.read (idleToolchain.artifact "m").binaryPath
      (bench.compiled idleToolchain "m" "(module\n)\n"
        (benchWith [(["m.wasm"], staleBinary)]))).1 = .ok staleBinary := by
    rw [idles.untouched, written]
    exact (isName_binary.read rfl staleBinary).mpr rfl
  have loaded := load_of_readable bench_judgesBytes {} readable
  rw [if_pos isValidBinary_staleBinary] at loaded
  refine ⟨staleInstance, ?_, rfl⟩
  rw [run_of_idles {} finish_emptyModule idles]
  refine loaded.trans ?_
  change (Machine.instantiate {} staleBinary).1.mapError _ = _
  rw [instantiate_staleBinary]
  rfl

end WasmWorkshop.Handoff
