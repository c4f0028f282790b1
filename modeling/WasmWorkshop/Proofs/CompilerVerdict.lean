import Mathlib.Data.List.DropRight
import WasmWorkshop.Proofs.IdleCompiler
import WasmWorkshop.Proofs.Utf8Reading

/-!
# When a compilation succeeds

What the compiler wrote to standard error is judged after it was read as text and its blank ends
were dropped. A replacement character is not blank, so nothing is left of the output exactly if it
is the encoding of a blank text (`errorText_eq_empty_iff`): no bytes at all, or spaces, line breaks
and other blanks, each in full.

For any world that takes the text and can launch the compiler, this decides the compilation
(`compile_judged`). A status other than zero is a failure whatever was written, and with status
zero everything that is not blank is a failure. A compiler that writes an empty line is taken to
have said nothing (`blank_line_passes`).
-/

set_option autoImplicit false

namespace WasmWorkshop

/-! ## Blank texts -/

/-- Nothing is left of a text that is trimmed exactly if all of it is blank. -/
theorem trimBlank_eq_empty_iff (text : String) : trimBlank text = "" ↔ isBlank text = true := by
  rw [trimBlank, ← String.toList_inj, String.toList_ofList, isBlank, List.all_eq_true]
  change List.rdropWhile isBlankChar (text.toList.dropWhile isBlankChar) = [] ↔ _
  rw [List.rdropWhile_eq_nil_iff]
  constructor
  · intro behind character member
    have parts : text.toList.takeWhile isBlankChar ++ text.toList.dropWhile isBlankChar =
        text.toList := List.takeWhile_append_dropWhile
    rw [← parts] at member
    rcases List.mem_append.mp member with front | rest
    · exact List.mem_takeWhile_imp front
    · exact behind character rest
  · intro all character member
    exact all character ((List.dropWhile_sublist isBlankChar).subset member)

/-- A text with a replacement character is not blank. -/
theorem replacement_notMem_of_isBlank {text : String} (blank : isBlank text = true) :
    Char.ofNat 0xFFFD ∉ text.toList := by
  intro member
  have isBlank := List.all_eq_true.mp blank _ member
  revert isBlank
  decide

namespace Handoff

/-- Bytes that encode a blank text. The empty text is one of these. -/
def EncodesBlank (bytes : List UInt8) : Prop :=
  ∃ text, isBlank text = true ∧ bytes = utf8Bytes text

/-- **Nothing is shown of an output exactly if it encodes a blank text.** -/
theorem errorText_eq_empty_iff (bytes : List UInt8) :
    errorText bytes = "" ↔ EncodesBlank bytes := by
  rw [errorText, trimBlank_eq_empty_iff]
  constructor
  · intro blank
    exact ⟨_, blank, (utf8Bytes_decodeLossy (replacement_notMem_of_isBlank blank)).symm⟩
  · rintro ⟨text, blank, rfl⟩
    rwa [decodeLossy_utf8Bytes]

section

variable {σ ι : Type} {world : World σ ι} {toolchain : Toolchain} {location text : String}
  {state : σ} {completion : Completion}

/-- A compilation whose text is written and whose compiler is launched ends as the compiler is
judged. -/
theorem run_compile_of_launched
    (writes : (world.write (toolchain.artifact location).textPath text state).1 = .ok ())
    (launches : (world.launch (toolchain.invocation (toolchain.artifact location))
      (world.written toolchain location text state)).1 = .ok completion) :
    ((world.compile toolchain location text).run state).1 =
      (judge toolchain.compiler completion).map fun _ => toolchain.artifact location := by
  rw [World.compile, Step.run_bind, Step.run_ofWorld, writes]
  change ((Step.ofWorld (.launch toolchain.compiler) _ >>= _).run
    (world.written toolchain location text state)).1 = _
  rw [Step.run_bind, Step.run_ofWorld, launches]
  dsimp only [Except.mapError]
  cases judge toolchain.compiler completion <;> rfl

/-- **How a compilation is judged**, once its text is written and its compiler was launched. It
succeeds exactly if the compiler ended with status zero and what it wrote encodes a blank text. Any
other status is a failure whatever was written, and so is everything else that was written with
status zero. -/
theorem compile_judged
    (writes : (world.write (toolchain.artifact location).textPath text state).1 = .ok ())
    (launches : (world.launch (toolchain.invocation (toolchain.artifact location))
      (world.written toolchain location text state)).1 = .ok completion) :
    let outcome := ((world.compile toolchain location text).run state).1
    (outcome = .ok (toolchain.artifact location) ↔
      completion.status = 0 ∧ EncodesBlank completion.errors) ∧
    (completion.status ≠ 0 →
      outcome = .error
        (.exit toolchain.compiler completion.status (errorText completion.errors))) ∧
    (completion.status = 0 → ¬ EncodesBlank completion.errors →
      outcome = .error (.diagnostics toolchain.compiler (errorText completion.errors))) := by
  intro outcome
  have judged : outcome =
      (judge toolchain.compiler completion).map fun _ => toolchain.artifact location :=
    run_compile_of_launched writes launches
  rw [← errorText_eq_empty_iff]
  refine ⟨⟨?_, ?_⟩, ?_, ?_⟩
  · intro succeeded
    rw [judged] at succeeded
    rw [← judge_eq_ok_iff toolchain.compiler]
    cases verdict : judge toolchain.compiler completion with
    | error failure =>
        rw [verdict] at succeeded
        cases succeeded
    | ok => rfl
  · intro silent
    rw [judged, (judge_eq_ok_iff toolchain.compiler completion).mpr silent]
    rfl
  · intro failed
    rw [judged, judge, if_pos failed]
    rfl
  · intro succeeded complaint
    rw [judged, judge, if_neg (not_not_intro succeeded), if_neg complaint]
    rfl

end

/-! ## In the small world -/

/-- The shell runs the script that its first argument names. -/
theorem launch_sh {arguments : List String} {script : String} (state : Bench)
    (noNul : arguments.any holdsNul = false)
    (reads : state.disk.read (arguments.headD "") = .ok (utf8Bytes script)) :
    (state.launch ⟨"sh", arguments⟩).1 =
      .ok ⟨(runScript state.disk script arguments).status,
        (runScript state.disk script arguments).errors⟩ := by
  have plain : holdsNul "sh" = false := by decide
  have short : ¬ nameLimit < "sh".utf8ByteSize := by decide
  rw [Bench.launch, List.any_cons, plain, noNul, Bool.or_false, if_neg Bool.false_ne_true,
    if_neg short]
  simp only [reads, decodeLossy_utf8Bytes]

/-- The tool chain whose compiler runs the text as a script. -/
def shellToolchain : Toolchain := ({} : Toolchain).withCompiler "sh"

/-- A disk with the text of a module in the working directory. -/
def diskWithText (text : String) : Disk where
  files := [(["m.wat"], utf8Bytes text)]

/-- What comes of the text of a module when it is run as a script. -/
def scriptCompletion (text : String) : Completion :=
  let final := runScript (diskWithText text) text ["m.wat", "-o", "m.wasm"]
  ⟨final.status, final.errors⟩

/-- The text is written, and the shell runs it. -/
theorem shell_runs_text (text : String) :
    (bench.write (shellToolchain.artifact "m").textPath text {}).1 = .ok () ∧
      (bench.launch (shellToolchain.invocation (shellToolchain.artifact "m"))
        (bench.written shellToolchain "m" text {})).1 = .ok (scriptCompletion text) := by
  have isName : Disk.IsName (shellToolchain.artifact "m").textPath :=
    ⟨by decide, by decide, by decide, by decide⟩
  have writes : bench.write (shellToolchain.artifact "m").textPath text {} =
      (.ok (), { disk := diskWithText text }) := by
    have noDirectory : Disk.isDirectory {} ["m.wat"] = false := rfl
    simp only [bench, isName.write noDirectory (utf8Bytes text)]
    rfl
  refine ⟨congrArg Prod.fst writes, ?_⟩
  rw [World.written, writes]
  exact launch_sh _ (by decide) ((isName.read rfl (utf8Bytes text)).mpr rfl)

/-- A script that complains and ends with status zero has failed. -/
theorem compile_judged_complaint :
    ((bench.compile shellToolchain "m" "echo bad >&2\n").run {}).1 =
      .error (.diagnostics "sh" "bad") := by
  obtain ⟨writes, launches⟩ := shell_runs_text "echo bad >&2\n"
  have completion : scriptCompletion "echo bad >&2\n" = ⟨0, utf8Bytes "bad\n"⟩ := rfl
  have shown : errorText (utf8Bytes "bad\n") = "bad" := by
    rw [errorText, decodeLossy_utf8Bytes]
    decide
  have complaint : ¬ EncodesBlank (utf8Bytes "bad\n") := by
    rw [← errorText_eq_empty_iff, shown]
    decide
  rw [completion] at launches
  obtain ⟨-, -, diagnosed⟩ := compile_judged writes launches
  rw [diagnosed rfl complaint, shown]
  rfl

/-- **An empty line passes for silence.** The compiler has written a line break, and the
compilation succeeds. -/
theorem blank_line_passes :
    (bench.write (shellToolchain.artifact "m").textPath "echo >&2\n" {}).1 = .ok () ∧
      (bench.launch (shellToolchain.invocation (shellToolchain.artifact "m"))
        (bench.written shellToolchain "m" "echo >&2\n" {})).1 = .ok ⟨0, [0x0A]⟩ ∧
      ((bench.compile shellToolchain "m" "echo >&2\n").run {}).1 =
        .ok (shellToolchain.artifact "m") := by
  obtain ⟨writes, launches⟩ := shell_runs_text "echo >&2\n"
  have completion : scriptCompletion "echo >&2\n" = ⟨0, [0x0A]⟩ := rfl
  have silent : errorText [0x0A] = "" :=
    (errorText_eq_empty_iff _).mpr ⟨"\n", by decide, by decide⟩
  rw [completion] at launches
  have judged : judge shellToolchain.compiler ⟨0, [0x0A]⟩ = .ok () :=
    (judge_eq_ok_iff shellToolchain.compiler ⟨0, [0x0A]⟩).mpr ⟨rfl, silent⟩
  refine ⟨writes, launches, ?_⟩
  rw [run_compile_of_launched writes launches, judged]
  rfl

end Handoff

end WasmWorkshop
