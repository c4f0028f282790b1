import Mathlib.Data.List.Basic
import WasmWorkshop.Handoff.Bench

/-!
# The course of a run

What a run does outside of the program is put on record by the world itself: `World.recorded` is a
world whose state is that of the given one beside a list of the requests made so far, each with the
state that it was made in. Recording changes nothing (`compileAndRun_shadows`).

The course of a run is written down without a word on failures (`World.course`): the requests of a
run that goes through, each in the state that the one before leaves. The run pursues this course
(`Pursues`). It makes the requests one after another, and where one is refused it stops, with a
failure of the stage that this request belongs to. A program that goes on with another one pursues
the courses of both in turn (`Pursues.bind`), so the course of the whole comes from one lemma for
each function of the pipeline.

Everything that can be said of a run as a whole is read off its course (`compileAndRun_account`):
when there is an instance, which stage a failure names, that nothing of a later stage was
requested, that the compiler is launched at most once, on which arguments, and what the text file
holds then. For the last point the world has to keep a text that was written (`World.KeepsText`),
which the small world does (`Disk.read_write`).
-/

set_option autoImplicit false

namespace WasmWorkshop.Handoff

open Machine (HostImports)

variable {σ ι α β ε : Type}

/-! ## Requests on record -/

/-- Something that is asked of the world. -/
inductive Request where
  | write (path text : String)
  | launch (invocation : Invocation)
  | read (path : String)
  | validate (bytes : List UInt8)
  | instantiate (imports : HostImports) (bytes : List UInt8)

/-- The stage that a request belongs to. -/
def Request.stage : Request → Stage
  | .write _ _ => .write
  | .launch _ => .compile
  | .read _ => .load
  | .validate _ => .load
  | .instantiate _ _ => .instantiate

/-- Whether a request launches a program. -/
def Request.isLaunch : Request → Bool
  | .launch _ => true
  | _ => false

/-- The place of a stage among the others. -/
def Stage.rank : Stage → Nat
  | .check => 0
  | .write => 1
  | .compile => 2
  | .load => 3
  | .instantiate => 4

/-- A request on record. -/
structure Entry (σ : Type) where
  /-- The state of the world when the request is made. -/
  before : σ
  request : Request

/-- The state of a world beside the requests made so far. -/
abbrev Recorded (σ : Type) := σ × List (Entry σ)

/-- What the world does on a request, with the request put on record. -/
def recording (request : Request) (effect : σ → α × σ) (start : Recorded σ) : α × Recorded σ :=
  ((effect start.1).1, (effect start.1).2, start.2 ++ [⟨start.1, request⟩])

namespace World

/-- The world that records what is asked of it. -/
def recorded (world : World σ ι) : World (Recorded σ) ι where
  write path text := recording (.write path text) (world.write path text)
  launch invocation := recording (.launch invocation) (world.launch invocation)
  read path := recording (.read path) (world.read path)
  validate bytes := recording (.validate bytes) (world.validate bytes)
  instantiate imports bytes := recording (.instantiate imports bytes)
    (world.instantiate imports bytes)

/-- Whether the world grants a request. A program has to end with status zero, and without a
complaint. -/
def Grants (world : World σ ι) (entry : Entry σ) : Prop :=
  match entry.request with
  | .write path text => (world.write path text entry.before).1 = .ok ()
  | .launch invocation => ∃ completion,
      (world.launch invocation entry.before).1 = .ok completion ∧
        completion.status = 0 ∧ errorText completion.errors = ""
  | .read path => ∃ bytes, (world.read path entry.before).1 = .ok bytes
  | .validate bytes => (world.validate bytes entry.before).1 = true
  | .instantiate imports bytes =>
      ∃ inst, (world.instantiate imports bytes entry.before).1 = .ok inst

end World

/-! ## Runs of steps -/

namespace Step

theorem run_bind (program : Step σ α) (continuation : α → Step σ β) (start : σ) :
    (program >>= continuation).run start =
      match program.run start with
      | (.ok value, next) => (continuation value).run next
      | (.error failure, next) => (.error failure, next) := by
  change (match program.run start with
    | (outcome, next) => ExceptT.bindCont continuation outcome next) = _
  rcases program.run start with ⟨_ | _, _⟩ <;> rfl

theorem run_bind_eq_ok {program : Step σ α} {continuation : α → Step σ β} {start final : σ}
    {result : β} (run : (program >>= continuation).run start = (.ok result, final)) :
    ∃ value next, program.run start = (.ok value, next) ∧
      (continuation value).run next = (.ok result, final) := by
  rw [run_bind] at run
  rcases first : program.run start with ⟨_ | value, next⟩ <;> rw [first] at run
  · cases run
  · exact ⟨value, next, rfl, run⟩

theorem run_ofWorld (failure : ε → Failure) (effect : σ → Except ε α × σ) (start : σ) :
    (ofWorld failure effect).run start = ((effect start).1.mapError failure, (effect start).2) := by
  rw [ofWorld, ExceptT.run_mk]
  rcases effect start with ⟨_ | _, _⟩ <;> rfl

theorem run_ofWorld_eq_ok {failure : ε → Failure} {effect : σ → Except ε α × σ} {start next : σ}
    {value : α} (run : (ofWorld failure effect).run start = (.ok value, next)) :
    effect start = (.ok value, next) := by
  rw [run_ofWorld] at run
  rcases answer : effect start with ⟨_ | _, _⟩ <;> rw [answer] at run <;> cases run
  rfl

/-- A step of the world that cannot fail. -/
def asking (effect : σ → α × σ) : Step σ α :=
  ExceptT.mk fun state => (.ok (effect state).1, (effect state).2)

end Step

/-- A compilation that succeeds leaves the state that the compiler leaves. -/
theorem World.compile_eq_ok {world : World σ ι} {toolchain : Toolchain} {location text : String}
    {start final : σ} {artifact : Artifact}
    (run : (world.compile toolchain location text).run start = (.ok artifact, final)) :
    artifact = toolchain.artifact location ∧
      final = (world.launch (toolchain.invocation (toolchain.artifact location))
        (world.write (toolchain.artifact location).textPath text start).2).2 := by
  obtain ⟨⟨⟩, written, writing, run⟩ := Step.run_bind_eq_ok run
  obtain ⟨completion, launched, launching, run⟩ := Step.run_bind_eq_ok run
  rw [Step.run_ofWorld_eq_ok writing, Step.run_ofWorld_eq_ok launching]
  split at run <;> cases run
  exact ⟨rfl, rfl⟩

/-- The steps of loading, one after another. -/
theorem World.load_eq (world : World σ ι) (path : String) (imports : HostImports) :
    world.load path imports =
      (Step.ofWorld (.load path) (world.read path) >>= fun bytes =>
        Step.asking (world.validate bytes) >>= fun isValid =>
          if isValid then world.start bytes imports else Step.fail (.invalid path)) := rfl

/-! ## Recording changes nothing -/

/-- In the recorded world the one program does what the other does in the world itself. -/
def Shadows (recorded : Step (Recorded σ) α) (program : Step σ α) : Prop :=
  ∀ start, ((recorded.run start).1, (recorded.run start).2.1) = program.run start.1

namespace Shadows

theorem bind {recorded : Step (Recorded σ) α} {program : Step σ α}
    {recordedNext : α → Step (Recorded σ) β} {next : α → Step σ β}
    (first : Shadows recorded program)
    (second : ∀ value, Shadows (recordedNext value) (next value)) :
    Shadows (recorded >>= recordedNext) (program >>= next) := by
  intro start
  rw [Step.run_bind, Step.run_bind, ← first start]
  rcases recorded.run start with ⟨_ | value, after⟩
  · rfl
  · exact second value after

theorem pure (value : α) :
    Shadows (Pure.pure value : Step (Recorded σ) α) (Pure.pure value) := fun _ => rfl

theorem fail (failure : Failure) :
    Shadows (Step.fail failure : Step (Recorded σ) α) (Step.fail failure) := fun _ => rfl

theorem ofWorld (failure : ε → Failure) (request : Request) (effect : σ → Except ε α × σ) :
    Shadows (Step.ofWorld failure (recording request effect)) (Step.ofWorld failure effect) := by
  intro start
  rw [Step.run_ofWorld, Step.run_ofWorld]
  rfl

theorem asking (request : Request) (effect : σ → α × σ) :
    Shadows (Step.asking (recording request effect)) (Step.asking effect) := fun _ => rfl

end Shadows

section

variable (world : World σ ι)

theorem compile_shadows (toolchain : Toolchain) (location text : String) :
    Shadows (world.recorded.compile toolchain location text)
      (world.compile toolchain location text) := by
  refine (Shadows.ofWorld _ _ _).bind fun _ => (Shadows.ofWorld _ _ _).bind fun completion => ?_
  cases judge toolchain.compiler completion with
  | error failure => exact Shadows.fail failure
  | ok => exact Shadows.pure _

theorem load_shadows (path : String) (imports : HostImports) :
    Shadows (world.recorded.load path imports) (world.load path imports) := by
  rw [World.load_eq, World.load_eq]
  refine (Shadows.ofWorld _ _ _).bind fun bytes => (Shadows.asking _ _).bind fun isValid => ?_
  cases isValid with
  | false => exact Shadows.fail _
  | true => exact Shadows.ofWorld _ _ _

/-- **Recording changes nothing**: neither what comes out of a run nor the state that it leaves. -/
theorem compileAndRun_shadows (builder : ModuleBuilder) (toolchain : Toolchain)
    (imports : HostImports) :
    Shadows (world.recorded.compileAndRun builder toolchain imports)
      (world.compileAndRun builder toolchain imports) := by
  rw [World.compileAndRun, World.compileAndRun]
  cases builder.finish with
  | error error => exact Shadows.fail _
  | ok text =>
      exact (compile_shadows world toolchain _ text).bind fun artifact =>
        load_shadows world artifact.binaryPath imports

end

/-! ## Courses -/

namespace World

/-- The state that the world is in after a request. -/
def after (world : World σ ι) (entry : Entry σ) : σ :=
  match entry.request with
  | .write path text => (world.write path text entry.before).2
  | .launch invocation => (world.launch invocation entry.before).2
  | .read path => (world.read path entry.before).2
  | .validate bytes => (world.validate bytes entry.before).2
  | .instantiate imports bytes => (world.instantiate imports bytes entry.before).2

/-- The requests of a compilation. -/
def compileCourse (world : World σ ι) (toolchain : Toolchain) (location text : String)
    (state : σ) : List (Entry σ) :=
  let artifact := toolchain.artifact location
  let writing : Entry σ := ⟨state, .write artifact.textPath text⟩
  [writing, ⟨world.after writing, .launch (toolchain.invocation artifact)⟩]

/-- The requests of loading. Without a binary there is nothing to ask after the first one. -/
def loadCourse (world : World σ ι) (path : String) (imports : HostImports) (state : σ) :
    List (Entry σ) :=
  let reading : Entry σ := ⟨state, .read path⟩
  match (world.read path state).1 with
  | .error _ => [reading]
  | .ok bytes =>
    let validating : Entry σ := ⟨world.after reading, .validate bytes⟩
    [reading, validating, ⟨world.after validating, .instantiate imports bytes⟩]

/-- **The course of a run** with a given text: what is requested on the way to an instance, if
nothing fails. -/
def course (world : World σ ι) (toolchain : Toolchain) (location text : String)
    (imports : HostImports) (state : σ) : List (Entry σ) :=
  let artifact := toolchain.artifact location
  let launching : Entry σ :=
    ⟨world.after ⟨state, .write artifact.textPath text⟩, .launch (toolchain.invocation artifact)⟩
  world.compileCourse toolchain location text state ++
    world.loadCourse artifact.binaryPath imports (world.after launching)

end World

/-- How a stretch of a run, from what came out of it and what it requested, stands to its course:
it is through, or it has stopped at the first request that was refused. -/
inductive Pursued (world : World σ ι) :
    List (Entry σ) → Except Failure α → List (Entry σ) → Prop where
  | through {course : List (Entry σ)} {value : α}
      (granted : ∀ entry ∈ course, world.Grants entry) :
      Pursued world course (.ok value) course
  | stopped {earlier later : List (Entry σ)} {refused : Entry σ} {failure : Failure}
      (granted : ∀ entry ∈ earlier, world.Grants entry) (refusal : ¬ world.Grants refused)
      (stage : failure.stage = refused.request.stage) :
      Pursued world (earlier ++ refused :: later) (.error failure) (earlier ++ [refused])

namespace Pursued

variable {world : World σ ι} {course rest made more : List (Entry σ)}

/-- A stretch that is through may be followed by another one. -/
theorem append {value : α} {outcome : Except Failure β}
    (first : Pursued world course (.ok value) made) (second : Pursued world rest outcome more) :
    Pursued world (course ++ rest) outcome (made ++ more) := by
  cases first with
  | through granted =>
      cases second with
      | through alsoGranted => exact .through (List.forall_mem_append.mpr ⟨granted, alsoGranted⟩)
      | stopped alsoGranted refusal stage =>
          rw [← List.append_assoc, ← List.append_assoc]
          exact .stopped (List.forall_mem_append.mpr ⟨granted, alsoGranted⟩) refusal stage

/-- A stretch that has stopped has stopped, however the course goes on. -/
theorem extend {failure : Failure}
    (first : Pursued world course (.error failure : Except Failure α) made)
    (rest : List (Entry σ)) :
    Pursued world (course ++ rest) (.error failure : Except Failure β) made := by
  cases first with
  | stopped granted refusal stage =>
      rw [List.append_assoc, List.cons_append]
      exact .stopped granted refusal stage

/-- A run that is through has made every request, and every one was granted. -/
theorem of_ok {value : α} (pursued : Pursued world course (.ok value) made) :
    made = course ∧ ∀ entry ∈ course, world.Grants entry := by
  cases pursued with
  | through granted => exact ⟨rfl, granted⟩

/-- A run that failed has made the requests up to the one that was refused. -/
theorem of_error {failure : Failure}
    (pursued : Pursued world course (.error failure : Except Failure α) made) :
    ∃ earlier refused later, course = earlier ++ refused :: later ∧
      (∀ entry ∈ earlier, world.Grants entry) ∧ ¬ world.Grants refused ∧
      failure.stage = refused.request.stage ∧ made = earlier ++ [refused] := by
  cases pursued with
  | stopped granted refusal stage => exact ⟨_, _, _, rfl, granted, refusal, stage, rfl⟩

theorem isOk_iff {outcome : Except Failure α} (pursued : Pursued world course outcome made) :
    (∃ value, outcome = .ok value) ↔ ∀ entry ∈ course, world.Grants entry := by
  constructor
  · rintro ⟨value, rfl⟩
    exact pursued.of_ok.2
  · intro allGranted
    cases outcome with
    | ok value => exact ⟨value, rfl⟩
    | error failure =>
        obtain ⟨earlier, refused, later, rfl, -, refusal, -⟩ := pursued.of_error
        exact absurd (allGranted refused (List.mem_append_right _ List.mem_cons_self)) refusal

/-- Nothing is requested that is not on the course. -/
theorem isPrefix {outcome : Except Failure α} (pursued : Pursued world course outcome made) :
    made <+: course := by
  cases pursued with
  | through granted => exact List.prefix_rfl
  | @stopped earlier later refused _ granted refusal stage =>
      rw [List.append_cons earlier refused later]
      exact List.prefix_append (earlier ++ [refused]) later

end Pursued

/-- A program of the recorded world, started at `start`, pursues a course. -/
def Pursues (world : World σ ι) (start : Recorded σ) (course : List (Entry σ))
    (program : Step (Recorded σ) α) : Prop :=
  ∃ made, (program.run start).2.2 = start.2 ++ made ∧
    Pursued world course (program.run start).1 made

namespace Pursues

variable {world : World σ ι} {start : Recorded σ} {course rest : List (Entry σ)}
  {entry : Entry σ}

/-- A program whose next request is granted pursues that request and the course of what is left
to do. -/
theorem granted {program continuation : Step (Recorded σ) α} {next : σ}
    (grants : world.Grants entry)
    (run : program.run start = continuation.run (next, start.2 ++ [entry]))
    (goesOn : Pursues world (next, start.2 ++ [entry]) rest continuation) :
    Pursues world start (entry :: rest) program := by
  obtain ⟨made, log, pursued⟩ := goesOn
  refine ⟨entry :: made, ?_, ?_⟩
  · rw [run, log, List.append_assoc, List.singleton_append]
  · rw [run]
    have one : Pursued world [entry] (.ok () : Except Failure Unit) [entry] :=
      .through (List.forall_mem_singleton.mpr grants)
    exact one.append pursued

/-- A program whose last request is granted. -/
theorem last {program : Step (Recorded σ) α} {next : σ} {value : α}
    (grants : world.Grants entry)
    (run : program.run start = (.ok value, next, start.2 ++ [entry])) :
    Pursues world start [entry] program := by
  refine ⟨[entry], ?_, ?_⟩
  · rw [run]
  · rw [run]
    exact .through (List.forall_mem_singleton.mpr grants)

/-- A program that stops where its next request is refused pursues any course that begins with
that request. -/
theorem refused {program : Step (Recorded σ) α} {next : σ} {failure : Failure}
    (refusal : ¬ world.Grants entry) (stage : failure.stage = entry.request.stage)
    (run : program.run start = (.error failure, next, start.2 ++ [entry])) :
    Pursues world start (entry :: rest) program := by
  refine ⟨[entry], ?_, ?_⟩
  · rw [run]
  · rw [run]
    exact .stopped (List.forall_mem_nil _) refusal stage

/-- A program that goes on with another one pursues the courses of both. -/
theorem bind {program : Step (Recorded σ) α} {continuation : α → Step (Recorded σ) β}
    (first : Pursues world start course program)
    (second : ∀ value next, program.run start = (.ok value, next) →
      Pursues world next rest (continuation value)) :
    Pursues world start (course ++ rest) (program >>= continuation) := by
  obtain ⟨made, log, pursued⟩ := first
  rw [Pursues, Step.run_bind]
  rcases run : program.run start with ⟨failure | value, next⟩ <;> rw [run] at log pursued
  · exact ⟨made, log, pursued.extend rest⟩
  · obtain ⟨more, moreLog, morePursued⟩ := second value next run
    exact ⟨made ++ more, by rw [moreLog, log, List.append_assoc], pursued.append morePursued⟩

end Pursues

section

variable (world : World σ ι)

/-- What comes of a step of the recorded world that is followed by another program. -/
theorem run_recording_bind_ok {failure : ε → Failure} {request : Request}
    {effect : σ → Except ε α × σ} {start : Recorded σ} {value : α}
    (answer : (effect start.1).1 = .ok value) (continuation : α → Step (Recorded σ) β) :
    (Step.ofWorld failure (recording request effect) >>= continuation).run start =
      (continuation value).run ((effect start.1).2, start.2 ++ [⟨start.1, request⟩]) := by
  rw [Step.run_bind, Step.run_ofWorld]
  simp only [recording, answer, Except.mapError]

theorem run_recording_bind_error {failure : ε → Failure} {request : Request}
    {effect : σ → Except ε α × σ} {start : Recorded σ} {fault : ε}
    (answer : (effect start.1).1 = .error fault) (continuation : α → Step (Recorded σ) β) :
    (Step.ofWorld failure (recording request effect) >>= continuation).run start =
      (.error (failure fault), (effect start.1).2, start.2 ++ [⟨start.1, request⟩]) := by
  rw [Step.run_bind, Step.run_ofWorld]
  simp only [recording, answer, Except.mapError]

theorem judge_eq_ok_iff (compiler : String) (completion : Completion) :
    judge compiler completion = .ok () ↔
      completion.status = 0 ∧ errorText completion.errors = "" := by
  rw [judge]
  split_ifs <;> simp_all

/-- Whatever the compiler is blamed for, it is a failure of its stage. -/
theorem stage_of_judge_eq_error {compiler : String} {completion : Completion} {failure : Failure}
    (blamed : judge compiler completion = .error failure) : failure.stage = .compile := by
  rw [judge] at blamed
  split_ifs at blamed <;> cases blamed <;> rfl

/-- Launching the compiler and judging how it ended. -/
theorem launch_pursues (compiler : String) (invocation : Invocation) (artifact : Artifact)
    (start : Recorded σ) :
    Pursues world start [⟨start.1, .launch invocation⟩]
      (Step.ofWorld (.launch compiler) (world.recorded.launch invocation) >>= fun completion =>
        match judge compiler completion with
        | .error failure => Step.fail failure
        | .ok () => pure artifact) := by
  rcases launched : (world.launch invocation start.1).1 with fault | completion
  · refine Pursues.refused ?_ rfl (run_recording_bind_error launched _)
    rintro ⟨completion, granted, -⟩
    cases launched.symm.trans granted
  · have run (continuation : Completion → Step (Recorded σ) Artifact) :
        (Step.ofWorld (.launch compiler) (world.recorded.launch invocation) >>= continuation).run
            start =
          (continuation completion).run
            ((world.launch invocation start.1).2, start.2 ++ [⟨start.1, .launch invocation⟩]) :=
      run_recording_bind_ok launched continuation
    cases judged : judge compiler completion with
    | error failure =>
        refine Pursues.refused ?_ (stage_of_judge_eq_error judged)
          ((run _).trans (by
            rw [judged]
            rfl))
        rintro ⟨other, granted, succeeded⟩
        cases launched.symm.trans granted
        cases judged.symm.trans ((judge_eq_ok_iff compiler completion).mpr succeeded)
    | ok =>
        refine Pursues.last ?_
          ((run _).trans (by
            rw [judged]
            rfl))
        exact ⟨completion, launched, (judge_eq_ok_iff compiler completion).mp judged⟩

theorem compile_pursues (toolchain : Toolchain) (location text : String) (start : Recorded σ) :
    Pursues world start (world.compileCourse toolchain location text start.1)
      (world.recorded.compile toolchain location text) := by
  rcases written : (world.write (toolchain.artifact location).textPath text start.1).1
    with fault | ⟨⟩
  · refine Pursues.refused ?_ rfl (run_recording_bind_error written _)
    intro granted
    cases written.symm.trans granted
  · refine Pursues.granted written (run_recording_bind_ok written _) ?_
    exact launch_pursues world _ _ _ _

theorem run_recording_asking_bind {request : Request} {effect : σ → α × σ} {start : Recorded σ}
    {answer : α} (answered : (effect start.1).1 = answer)
    (continuation : α → Step (Recorded σ) β) :
    (Step.asking (recording request effect) >>= continuation).run start =
      (continuation answer).run ((effect start.1).2, start.2 ++ [⟨start.1, request⟩]) := by
  rw [← answered, Step.run_bind]
  rfl

theorem start_pursues (bytes : List UInt8) (imports : HostImports) (start : Recorded σ) :
    Pursues world start [⟨start.1, .instantiate imports bytes⟩]
      (world.recorded.start bytes imports) := by
  have run : (world.recorded.start bytes imports).run start =
      ((world.instantiate imports bytes start.1).1.mapError .instantiate,
        (world.instantiate imports bytes start.1).2,
        start.2 ++ [⟨start.1, .instantiate imports bytes⟩]) := Step.run_ofWorld _ _ _
  rcases started : (world.instantiate imports bytes start.1).1 with error | inst <;>
    rw [started] at run
  · refine Pursues.refused ?_ rfl run
    rintro ⟨inst, granted⟩
    cases started.symm.trans granted
  · exact Pursues.last ⟨inst, started⟩ run

/-- Validating a binary and instantiating it if it is valid. -/
theorem validate_pursues (path : String) (imports : HostImports) (bytes : List UInt8)
    (start : Recorded σ) :
    Pursues world start
      [⟨start.1, .validate bytes⟩, ⟨(world.validate bytes start.1).2, .instantiate imports bytes⟩]
      (Step.asking (world.recorded.validate bytes) >>= fun isValid =>
        if isValid then world.recorded.start bytes imports else Step.fail (.invalid path)) := by
  cases valid : (world.validate bytes start.1).1 with
  | false =>
      have stage : (Failure.invalid path).stage = .load := rfl
      exact Pursues.refused (Bool.eq_false_iff.mp valid) stage (run_recording_asking_bind valid _)
  | true =>
      refine Pursues.granted valid (run_recording_asking_bind valid _) ?_
      exact start_pursues world bytes imports _

theorem load_pursues (path : String) (imports : HostImports) (start : Recorded σ) :
    Pursues world start (world.loadCourse path imports start.1)
      (world.recorded.load path imports) := by
  rw [World.load_eq, World.loadCourse]
  cases read : (world.read path start.1).1 with
  | error fault =>
      refine Pursues.refused ?_ rfl (run_recording_bind_error read _)
      rintro ⟨bytes, granted⟩
      cases read.symm.trans granted
  | ok bytes =>
      refine Pursues.granted ⟨bytes, read⟩ (run_recording_bind_ok read _) ?_
      exact validate_pursues world path imports bytes _

/-- **A run with a given text pursues its course.** -/
theorem course_pursues (toolchain : Toolchain) (location text : String) (imports : HostImports)
    (start : Recorded σ) :
    Pursues world start (world.course toolchain location text imports start.1)
      (world.recorded.compile toolchain location text >>= fun artifact =>
        world.recorded.load artifact.binaryPath imports) := by
  refine (compile_pursues world toolchain location text start).bind ?_
  intro artifact next run
  obtain ⟨rfl, rfl⟩ := World.compile_eq_ok run
  exact load_pursues world _ imports _

end

/-! ## What a course is like -/

namespace Pursued

variable {world : World σ ι} {course made : List (Entry σ)} {first : Entry σ}

/-- Nothing is requested after the first request unless that one is granted. -/
theorem first_granted {outcome : Except Failure α}
    (pursued : Pursued world (first :: course) outcome made) :
    made = [first] ∨ world.Grants first := by
  cases outcome with
  | ok value => exact .inr (pursued.of_ok.2 first List.mem_cons_self)
  | error failure =>
      obtain ⟨earlier, refused, later, course, granted, -, -, rfl⟩ := pursued.of_error
      cases earlier with
      | nil =>
          obtain ⟨rfl, -⟩ := List.cons.inj course
          exact .inl rfl
      | cons entry earlier =>
          obtain ⟨rfl, -⟩ := List.cons.inj course
          exact .inr (granted first List.mem_cons_self)

end Pursued

section

variable (world : World σ ι) (toolchain : Toolchain) (location text : String)
  (imports : HostImports) (state : σ)

/-- The stages of a course come in order. -/
theorem course_inOrder :
    (world.course toolchain location text imports state).Pairwise fun earlier later =>
      earlier.request.stage.rank ≤ later.request.stage.rank := by
  rw [World.course, World.compileCourse, World.loadCourse]
  split <;> simp [Request.stage, Stage.rank]

/-- Loading launches nothing. -/
theorem isLaunch_loadCourse (path : String) :
    ∀ entry ∈ world.loadCourse path imports state, ¬ entry.request.isLaunch = true := by
  rw [World.loadCourse]
  split <;> simp [Request.isLaunch]

theorem countP_isLaunch_course :
    (world.course toolchain location text imports state).countP (·.request.isLaunch) = 1 := by
  rw [World.course, List.countP_append,
    List.countP_eq_zero.mpr (isLaunch_loadCourse world imports _ _)]
  rfl

/-- The launch on a course is that of the compiler, right after the text was written. -/
theorem eq_of_launch_mem_course {entry : Entry σ} {invocation : Invocation}
    (member : entry ∈ world.course toolchain location text imports state)
    (launch : entry.request = .launch invocation) :
    invocation = toolchain.invocation (toolchain.artifact location) ∧
      entry.before = (world.write (toolchain.artifact location).textPath text state).2 := by
  rcases List.mem_append.mp member with inCompilation | inLoading
  · rcases List.mem_pair.mp inCompilation with rfl | rfl
    · cases launch
    · cases launch
      exact ⟨rfl, rfl⟩
  · have noLaunch := isLaunch_loadCourse world imports _ _ entry inLoading
    rw [launch] at noLaunch
    exact absurd rfl noLaunch

end

/-! ## The account of a run -/

/-- A text that was written is what the file holds, as far as contents tell. -/
def World.KeepsText (world : World σ ι) (contents : σ → String → Option (List UInt8))
    (path : String) : Prop :=
  ∀ text state, (world.write path text state).1 = .ok () →
    contents (world.write path text state).2 path = some (utf8Bytes text)

/-- What a run does, from what comes out of it and what was requested in it. -/
structure Account (world : World σ ι) (builder : ModuleBuilder) (toolchain : Toolchain)
    (imports : HostImports) (state : σ) (outcome : Except Failure ι) (log : List (Entry σ)) :
    Prop where
  /-- There is an instance exactly if the module can be finished and every request on the course
  is granted. -/
  success : (∃ inst, outcome = .ok inst) ↔
    ∃ text, builder.finish = .ok text ∧
      ∀ entry ∈ world.course toolchain builder.location text imports state, world.Grants entry
  /-- A run with an instance has made every request on its course. -/
  whole : ∀ inst, outcome = .ok inst →
    ∃ text, builder.finish = .ok text ∧
      log = world.course toolchain builder.location text imports state
  /-- A failure names the first thing that went wrong, which is the last that was tried: the
  check, with nothing requested, or the request that was refused. -/
  stopped : ∀ failure, outcome = .error failure →
    ((∃ error, builder.finish = .error error) ∧ failure.stage = .check ∧ log = []) ∨
    ∃ text earlier refused later, builder.finish = .ok text ∧
      world.course toolchain builder.location text imports state = earlier ++ refused :: later ∧
      (∀ entry ∈ earlier, world.Grants entry) ∧ ¬ world.Grants refused ∧
      failure.stage = refused.request.stage ∧ log = earlier ++ [refused]
  /-- Nothing was requested that belongs to a later stage than the failure. -/
  nothingLater : ∀ failure, outcome = .error failure →
    ∀ entry ∈ log, entry.request.stage.rank ≤ failure.stage.rank
  /-- The compiler is launched at most once. -/
  launches : log.countP (·.request.isLaunch) ≤ 1
  /-- The compiler gets the text file, the flag and the binary file. It is launched in the state
  that the granted writing of the finished text leaves, so where a text that was written is what a
  file holds, the text file holds the finished text then. -/
  launched : ∀ entry ∈ log, ∀ invocation, entry.request = .launch invocation →
    invocation = ⟨toolchain.compiler,
      [builder.location ++ "." ++ toolchain.textExtension, toolchain.outputFlag,
        builder.location ++ "." ++ toolchain.binaryExtension]⟩ ∧
    ∃ text, builder.finish = .ok text ∧
      world.Grants ⟨state, .write (builder.location ++ "." ++ toolchain.textExtension) text⟩ ∧
      entry.before =
        world.after ⟨state, .write (builder.location ++ "." ++ toolchain.textExtension) text⟩ ∧
      ∀ contents : σ → String → Option (List UInt8),
        world.KeepsText contents (builder.location ++ "." ++ toolchain.textExtension) →
          contents entry.before (builder.location ++ "." ++ toolchain.textExtension) =
            some (utf8Bytes text)

section

variable {world : World σ ι} {builder : ModuleBuilder} {toolchain : Toolchain}
  {imports : HostImports} {state : σ}

/-- The account of a run whose module cannot be finished. -/
theorem Account.ofUnfinished {error : BuildError} (unfinished : builder.finish = .error error) :
    Account world builder toolchain imports state (.error (.check error)) [] where
  success := by
    constructor
    · rintro ⟨inst, impossible⟩
      cases impossible
    · rintro ⟨text, finished, -⟩
      cases unfinished.symm.trans finished
  whole := by
    intro inst impossible
    cases impossible
  stopped := by
    rintro failure ⟨⟩
    exact .inl ⟨⟨error, unfinished⟩, rfl, rfl⟩
  nothingLater := fun _ _ => List.forall_mem_nil _
  launches := Nat.zero_le 1
  launched := List.forall_mem_nil _

/-- The account of a run that has pursued its course. -/
theorem Account.ofPursued {text : String} {outcome : Except Failure ι} {log : List (Entry σ)}
    (finished : builder.finish = .ok text)
    (pursued : Pursued world (world.course toolchain builder.location text imports state)
      outcome log) :
    Account world builder toolchain imports state outcome log where
  success := by
    rw [pursued.isOk_iff]
    constructor
    · intro granted
      exact ⟨text, finished, granted⟩
    · rintro ⟨other, alsoFinished, granted⟩
      cases finished.symm.trans alsoFinished
      exact granted
  whole := by
    rintro inst rfl
    exact ⟨text, finished, pursued.of_ok.1⟩
  stopped := by
    rintro failure rfl
    obtain ⟨earlier, refused, later, course, granted, refusal, stage, log⟩ := pursued.of_error
    exact .inr ⟨text, earlier, refused, later, finished, course, granted, refusal, stage, log⟩
  nothingLater := by
    rintro failure rfl entry member
    obtain ⟨earlier, refused, later, course, -, -, stage, rfl⟩ := pursued.of_error
    have inOrder := course_inOrder world toolchain builder.location text imports state
    rw [course] at inOrder
    rw [stage]
    rcases List.mem_append.mp member with isEarlier | isRefused
    · exact (List.pairwise_append.mp inOrder).2.2 entry isEarlier refused List.mem_cons_self
    · obtain rfl := List.mem_singleton.mp isRefused
      exact Nat.le_refl _
  launches := by
    rw [← countP_isLaunch_course world toolchain builder.location text imports state]
    exact pursued.isPrefix.sublist.countP_le
  launched := by
    intro entry member invocation launch
    obtain ⟨rfl, before⟩ :=
      eq_of_launch_mem_course world _ _ _ _ _ (pursued.isPrefix.subset member) launch
    -- The launch is on record, so the first request was not the last one.
    rcases pursued.first_granted with onlyFirst | written
    · rw [onlyFirst, List.mem_singleton] at member
      rw [member] at launch
      cases launch
    · refine ⟨rfl, text, finished, written, before, ?_⟩
      intro contents keeps
      rw [before]
      exact keeps text state written

/-- **The account of every run**, in any world and from any state, as the world itself would
record it. -/
theorem compileAndRun_account (world : World σ ι) (builder : ModuleBuilder)
    (toolchain : Toolchain) (imports : HostImports) (state : σ) :
    ∃ outcome final log,
      (world.compileAndRun builder toolchain imports).run state = (outcome, final) ∧
      (world.recorded.compileAndRun builder toolchain imports).run (state, []) =
        (outcome, final, log) ∧
      Account world builder toolchain imports state outcome log := by
  have shadow := compileAndRun_shadows world builder toolchain imports (state, [])
  rcases run : (world.recorded.compileAndRun builder toolchain imports).run (state, [])
    with ⟨outcome, final, log⟩
  rw [run] at shadow
  refine ⟨outcome, final, log, shadow.symm, rfl, ?_⟩
  rw [World.compileAndRun] at run
  cases finished : builder.finish with
  | error error =>
      rw [finished] at run
      cases run
      exact Account.ofUnfinished finished
  | ok text =>
      obtain ⟨made, recorded, pursued⟩ :=
        course_pursues world toolchain builder.location text imports (state, [])
      rw [finished] at run
      rw [run] at recorded pursued
      rw [show log = made from recorded]
      exact Account.ofPursued finished pursued

end

/-! ## The small world keeps what is written -/

namespace Disk

theorem lookup_putFile (path : Path) (bytes : List UInt8) (files : List (Path × List UInt8)) :
    (putFile path bytes files).lookup path = some bytes := by
  induction files with
  | nil => exact List.lookup_cons_self
  | cons file files ih =>
      obtain ⟨known, old⟩ := file
      rw [putFile]
      split_ifs with same
      · exact List.lookup_cons_self
      · rw [List.lookup_cons, beq_false_of_ne (Ne.symm same)]
        exact ih

/-- Where names lead to depends on the directories only. -/
theorem follow_of_directories_eq {disk other : Disk}
    (directories : other.directories = disk.directories) (here target : Path)
    (names : List String) (followed : disk.follow here names = .ok target) :
    other.follow here names = .ok target := by
  have isDirectory : other.isDirectory = disk.isDirectory := by
    funext path
    rw [Disk.isDirectory, Disk.isDirectory, directories]
  induction names generalizing here with
  | nil => exact followed
  | cons name names ih =>
      rw [follow] at followed ⊢
      rw [isDirectory]
      split_ifs at followed ⊢ <;> exact ih _ followed

theorem resolve_of_directories_eq {disk other : Disk}
    (directories : other.directories = disk.directories) {path : String} {target : Path}
    (resolved : disk.resolve path = .ok target) : other.resolve path = .ok target := by
  rw [resolve] at resolved ⊢
  split_ifs at resolved ⊢
  exact follow_of_directories_eq directories [] target _ resolved

/-- A path that may be written leads to what is not a directory. -/
theorem writable_eq_ok {disk : Disk} {path : String} {target : Path}
    (writable : disk.writable path = .ok target) :
    disk.resolve (withoutFinalSlashes path) = .ok target ∧ disk.isDirectory target = false ∧
      endsAtDirectory path = false := by
  rw [Disk.writable] at writable
  split_ifs at writable
  cases resolved : disk.resolve (withoutFinalSlashes path) with
  | error fault =>
      rw [resolved] at writable
      cases writable
  | ok found =>
      rw [resolved] at writable
      change (if disk.isDirectory found || endsAtDirectory path then
        Except.error SystemFault.isADirectory else Except.ok found) = .ok target at writable
      split_ifs at writable with directory
      cases writable
      rw [Bool.not_eq_true, Bool.or_eq_false_iff] at directory
      exact ⟨rfl, directory⟩

theorem read_eq_ok {disk : Disk} {path : String} {target : Path} {bytes : List UInt8}
    (resolved : disk.resolve path = .ok target) (noDirectory : disk.isDirectory target = false)
    (held : disk.contents? target = some bytes) (notAtDirectory : endsAtDirectory path = false) :
    disk.read path = .ok bytes := by
  simp only [read, resolved, bind, Except.bind, noDirectory, held, notAtDirectory]
  rfl

/-- **A file that was written is read back.** -/
theorem read_write {disk written : Disk} {path : String} {bytes : List UInt8}
    (noFinalSlashes : withoutFinalSlashes path = path)
    (writing : disk.write path bytes = .ok written) : written.read path = .ok bytes := by
  rw [write] at writing
  cases writable : disk.writable path with
  | error fault =>
      rw [writable] at writing
      cases writing
  | ok target =>
      rw [writable] at writing
      cases writing
      obtain ⟨resolved, noDirectory, notAtDirectory⟩ := writable_eq_ok writable
      rw [noFinalSlashes] at resolved
      refine read_eq_ok ?_ noDirectory (lookup_putFile target bytes disk.files) notAtDirectory
      refine resolve_of_directories_eq ?_ resolved
      rfl

end Disk

/-- What a file of the small world holds. -/
def Bench.contents (state : Bench) (path : String) : Option (List UInt8) :=
  (state.disk.read path).toOption

theorem bench_keepsText {path : String} (noFinalSlashes : Disk.withoutFinalSlashes path = path) :
    bench.KeepsText Bench.contents path := by
  intro text state granted
  rw [bench] at granted ⊢
  dsimp only at granted ⊢
  cases writing : state.disk.write path (utf8Bytes text) with
  | error fault =>
      rw [writing] at granted
      cases granted
  | ok disk =>
      rw [Bench.contents, Disk.read_write noFinalSlashes writing]
      rfl

/-- A module with nothing in it. -/
def emptyModule : ModuleBuilder := (ModuleBuilder.create "m" {}).openModule.closeModule []

/-- In the small world, with a program for a compiler that does nothing, the text file holds the
finished text when that program is launched. -/
theorem compileAndRun_account_idle_compiler :
    ∃ outcome final log,
      (bench.recorded.compileAndRun emptyModule (({} : Toolchain).withCompiler "true") {}).run
        ({}, []) = (outcome, final, log) ∧
      ∀ entry ∈ log, ∀ invocation, entry.request = .launch invocation →
        invocation = ⟨"true", ["m.wat", "-o", "m.wasm"]⟩ ∧
          entry.before.contents "m.wat" = some (utf8Bytes "(module\n)\n") := by
  have finished : emptyModule.finish = .ok "(module\n)\n" := by decide
  have keeps : bench.KeepsText Bench.contents "m.wat" := bench_keepsText (by decide)
  obtain ⟨outcome, final, log, -, run, account⟩ := compileAndRun_account bench emptyModule
    (({} : Toolchain).withCompiler "true") {} {}
  refine ⟨outcome, final, log, run, ?_⟩
  intro entry member invocation launch
  obtain ⟨arguments, text, alsoFinished, -, -, held⟩ :=
    account.launched entry member invocation launch
  cases finished.symm.trans alsoFinished
  exact ⟨arguments, held Bench.contents keeps⟩

end WasmWorkshop.Handoff
