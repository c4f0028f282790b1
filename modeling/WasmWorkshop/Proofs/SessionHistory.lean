import Mathlib.Data.List.Induction
import WasmWorkshop.Proofs.DataRegion
import WasmWorkshop.Proofs.SessionLog
import WasmWorkshop.Proofs.WrittenLines

/-!
# The history of a session

A moment of a session divides its log into what is past and what is to come, and what the builder is
like at that moment is a matter of the past events only. The phase tells whether the module was
called for and whether its body returned (`phase_replay`), the top-level nodes are those that were
added, in order (`items_replay`), and the data region overflowed exactly if a stretch was asked for
that did not fit at the time (`overflowed_replay`). What a session can be told when it finishes
follows from these (`finish_cases`).

The main statement puts this together for all sessions with a fresh builder
(`performAll_history`).
-/

set_option autoImplicit false

namespace WasmWorkshop.Session

/-! ## Past events -/

/-- The module was called for. -/
def Called (past : List Event) : Prop := ∃ runs, Event.module runs ∈ past

/-- The body of the module returned. -/
def Returned (past : List Event) : Prop := ∃ body, Event.close body ∈ past

/-- A stretch of the data region was refused: it did not fit when it was asked for. -/
def Refused (start : State) (past : List Event) : Prop :=
  ∃ before length after, past = before ++ .register length :: after ∧
    DataLayout.limit < (replay start before).builder.allocation + length

/-- The top-level nodes that an event adds. -/
def Event.nodes : Event → List Node
  | .close body => [.ofGroup ["module"] body]
  | .emit node => [node]
  | _ => []

theorem returned_append (first second : List Event) :
    Returned (first ++ second) ↔ Returned first ∨ Returned second := by
  simp only [Returned, List.mem_append, exists_or]

theorem replay_append_singleton (state : State) (past : List Event) (event : Event) :
    replay state (past ++ [event]) = event.apply (replay state past) := by
  rw [replay_append, replay_cons, replay_nil]

/-! ## Phases -/

/-- The phase tells what became of the module in the past. -/
structure PhaseTells (phase : Phase) (past : List Event) : Prop where
  unopened : phase = .unopened ↔ ¬ Called past
  building : phase = .building ↔ Called past ∧ ¬ Returned past
  closed : phase = .closed ↔ Returned past

/-- The module is called for, for the first time. -/
theorem PhaseTells.opened {past : List Event} (tells : PhaseTells .unopened past) :
    PhaseTells .building (past ++ [.module true]) := by
  have called : Called (past ++ [.module true]) := ⟨true, by simp⟩
  have notReturned : ¬ Returned past := fun returned => by cases tells.closed.mpr returned
  have returned : ¬ Returned (past ++ [.module true]) := by simpa [Returned] using notReturned
  exact ⟨by simp [called], by simp [called, returned], by simp [returned]⟩

/-- The body of the module returns. -/
theorem PhaseTells.returned {past : List Event} (tells : PhaseTells .building past)
    (body : List Node) : PhaseTells .closed (past ++ [.close body]) := by
  obtain ⟨runs, member⟩ := (tells.building.mp rfl).1
  have called : Called (past ++ [.close body]) := ⟨runs, List.mem_append_left _ member⟩
  have returned : Returned (past ++ [.close body]) := ⟨body, by simp⟩
  exact ⟨by simp [called], by simp [returned], by simp [returned]⟩

/-- An event that neither starts nor ends the body of the module. -/
theorem PhaseTells.kept {phase : Phase} {past : List Event} (tells : PhaseTells phase past)
    {event : Event} (noCall : ∀ runs, event = .module runs → Called past)
    (noReturn : ∀ body, event ≠ .close body) : PhaseTells phase (past ++ [event]) := by
  have called : Called (past ++ [event]) ↔ Called past := by
    constructor
    · rintro ⟨runs, member⟩
      rcases List.mem_append.mp member with before | now
      · exact ⟨runs, before⟩
      · exact noCall runs (List.mem_singleton.mp now).symm
    · exact fun ⟨runs, member⟩ => ⟨runs, List.mem_append_left _ member⟩
  have returned : Returned (past ++ [event]) ↔ Returned past := by
    have notNow : ¬ Returned [event] := fun ⟨body, member⟩ =>
      noReturn body (List.mem_singleton.mp member).symm
    simp [returned_append, notNow]
  obtain ⟨unopened, building, closed⟩ := tells
  refine ⟨?_, ?_, ?_⟩
  · rwa [called]
  · rwa [called, returned]
  · rwa [returned]

/-- One event keeps the phase in step with the past. -/
theorem PhaseTells.step {state : State} {past : List Event}
    (tells : PhaseTells state.builder.phase past) {event : Event} (fits : event.Fits state) :
    PhaseTells (event.apply state).builder.phase (past ++ [event]) := by
  cases event with
  | module runs =>
      cases runs with
      | true =>
          rw [fits.mp rfl] at tells
          exact tells.opened
      | false =>
          have opened : state.builder.phase ≠ .unopened := fun same => by
            cases fits.mpr same
          have called : Called past := not_not.mp fun not => opened (tells.unopened.mpr not)
          exact tells.kept (fun _ _ => called) fun _ => Event.noConfusion
  | close body =>
      rw [show state.builder.phase = .building from fits] at tells
      exact tells.returned body
  | emit node => exact tells.kept (fun _ => Event.noConfusion) fun _ => Event.noConfusion
  | register length => exact tells.kept (fun _ => Event.noConfusion) fun _ => Event.noConfusion
  | ask question => exact tells.kept (fun _ => Event.noConfusion) fun _ => Event.noConfusion

/-- **The phase is unopened before the module is called for, building until its body returns, and
closed from then on.** -/
theorem phase_replay {start : State} (fresh : start.builder.phase = .unopened)
    {past : List Event} (fits : AllFit start past) :
    PhaseTells (replay start past).builder.phase past := by
  induction past using List.reverseRecOn with
  | nil =>
      rw [replay_nil, fresh]
      exact ⟨by simp [Called], by simp [Called], by simp [Returned]⟩
  | append_singleton earlier event ih =>
      obtain ⟨before, now, -⟩ := (allFit_append start earlier [event]).mp fits
      rw [replay_append_singleton]
      exact (ih before).step now

/-! ## Nodes and texts -/

theorem items_apply (state : State) (event : Event) :
    (event.apply state).builder.items = state.builder.items ++ event.nodes := by
  cases event with
  | module runs => cases runs <;> exact (List.append_nil _).symm
  | close body => rfl
  | emit node => rfl
  | register length => exact (List.append_nil _).symm
  | ask question => exact (List.append_nil _).symm

/-- **The top-level nodes are those that were added, in order.** -/
theorem items_replay (start : State) (past : List Event) :
    (replay start past).builder.items = start.builder.items ++ past.flatMap Event.nodes := by
  induction past generalizing start with
  | nil => simp
  | cons event rest ih => rw [replay_cons, ih, items_apply, List.flatMap_cons, List.append_assoc]

theorem options_replay (start : State) (past : List Event) :
    (replay start past).builder.options = start.builder.options := by
  induction past generalizing start with
  | nil => rfl
  | cons event rest ih =>
      rw [replay_cons, ih]
      rcases event with runs | body | node | length | question
      · cases runs <;> rfl
      all_goals rfl

/-- **The text so far is the beginning of all later texts.** -/
theorem render_replay (start : State) (past between : List Event) :
    (replay start (past ++ between)).builder.render =
      (replay start past).builder.render ++
        Node.render (between.flatMap Event.nodes) start.builder.options := by
  rw [ModuleBuilder.render, ModuleBuilder.render, options_replay, options_replay, items_replay,
    items_replay, List.flatMap_append, ← List.append_assoc, render_append]

/-! ## The data region -/

theorem refused_iff (start : State) (past : List Event) :
    Refused start past ↔ ∃ before event after, past = before ++ event :: after ∧
      ∃ length, event = .register length ∧
        DataLayout.limit < (replay start before).builder.allocation + length := by
  constructor
  · rintro ⟨before, length, after, split, full⟩
    exact ⟨before, .register length, after, split, length, rfl, full⟩
  · rintro ⟨before, event, after, split, length, rfl, full⟩
    exact ⟨before, length, after, split, full⟩

theorem refused_append_singleton (start : State) (past : List Event) (event : Event) :
    Refused start (past ++ [event]) ↔ Refused start past ∨
      ∃ length, event = .register length ∧
        DataLayout.limit < (replay start past).builder.allocation + length := by
  rw [refused_iff, refused_iff]
  exact exists_split_append_singleton _ past event

theorem overflowed_apply (state : State) (event : Event) :
    (event.apply state).builder.layout.overflowed = true ↔
      state.builder.layout.overflowed = true ∨
        ∃ length, event = .register length ∧
          DataLayout.limit < state.builder.allocation + length := by
  cases event with
  | module runs => cases runs <;> simp [Event.apply, State.change, ModuleBuilder.openModule]
  | close body => simp [Event.apply, State.change, ModuleBuilder.closeModule, ModuleBuilder.append]
  | emit node => simp [Event.apply, State.change, ModuleBuilder.append]
  | ask question => simp [Event.apply, State.answer]
  | register length =>
      rcases Nat.lt_or_ge DataLayout.limit (state.builder.layout.cursor + length) with full | fits
      · simp [Event.apply, State.change, ModuleBuilder.reserve, ModuleBuilder.allocation,
          DataLayout.reserve_of_full full, full]
      · simp [Event.apply, State.change, ModuleBuilder.reserve, ModuleBuilder.allocation,
          DataLayout.reserve_of_fits fits, Nat.not_lt.mpr fits]

/-- **The data region overflowed exactly if something was refused.** -/
theorem overflowed_replay {start : State} (fresh : start.builder.layout.overflowed = false)
    (past : List Event) :
    (replay start past).builder.layout.overflowed = true ↔ Refused start past := by
  induction past using List.reverseRecOn with
  | nil => simp [fresh, Refused]
  | append_singleton earlier event ih =>
      rw [replay_append_singleton, overflowed_apply, ih, refused_append_singleton]

/-! ## Finishing -/

/-- What finishing answers, given whether a stretch of the data region was refused: the first of
three complaints that applies, or else the text. -/
structure FinishTells (builder : ModuleBuilder) (refused : Prop) : Prop where
  notClosed : ∀ phase, builder.finish = .error (.notClosed phase) ↔
    builder.phase ≠ .closed ∧ phase = builder.phase
  dataOverflow : ∀ cursor, builder.finish = .error (.dataOverflow cursor) ↔
    builder.phase = .closed ∧ refused ∧ cursor = builder.allocation
  symbols : ∀ report, builder.finish = .error (.symbols report) ↔
    builder.phase = .closed ∧ ¬ refused ∧ builder.check = .error report
  text : ∀ text, builder.finish = .ok text ↔
    builder.phase = .closed ∧ ¬ refused ∧ builder.check = .ok () ∧ text = builder.render

theorem finish_cases {builder : ModuleBuilder} {refused : Prop}
    (overflowed : builder.layout.overflowed = true ↔ refused) : FinishTells builder refused := by
  by_cases closed : builder.phase = .closed
  · by_cases full : builder.layout.overflowed = true
    · have outcome : builder.finish = .error (.dataOverflow builder.allocation) := by
        simp [ModuleBuilder.finish, closed, full]
      have isRefused := overflowed.mp full
      constructor <;> simp [outcome, closed, isRefused, eq_comm]
    · have notRefused : ¬ refused := fun isRefused => full (overflowed.mpr isRefused)
      cases verdict : builder.check with
      | error report =>
          have outcome : builder.finish = .error (.symbols report) := by
            simp [ModuleBuilder.finish, closed, full, verdict]
          constructor <;> simp [outcome, closed, notRefused, verdict]
      | ok =>
          have outcome : builder.finish = .ok builder.render := by
            simp [ModuleBuilder.finish, closed, full, verdict]
          constructor <;> simp [outcome, closed, notRefused, verdict, eq_comm]
  · have outcome : builder.finish = .error (.notClosed builder.phase) := by
      simp [ModuleBuilder.finish, closed]
    constructor <;> simp [outcome, closed, eq_comm]

/-! ## Whole sessions -/

/-- The body of the module runs once at most. -/
structure OneBodyRuns (start : State) (log : List Event) : Prop where
  /-- It runs when the module is called for the first time, and at no other time. -/
  first : ∀ past runs future, log = past ++ .module runs :: future →
    (runs = true ↔ ¬ Called past)
  once : ∀ past between future,
    log ≠ past ++ .module true :: between ++ .module true :: future
  /-- All other calls leave the session as it is. -/
  others : ∀ past future, log = past ++ .module false :: future →
    replay start (past ++ [.module false]) = replay start past

/-- The top-level nodes grow at the end, and so does their text. -/
structure ItemsGrow (start : State) (log : List Event) : Prop where
  items : ∀ past between future, log = past ++ between ++ future →
    (replay start (past ++ between)).builder.items =
      (replay start past).builder.items ++ between.flatMap Event.nodes
  texts : ∀ past between future, log = past ++ between ++ future →
    ∃ more, (replay start (past ++ between)).builder.render =
      (replay start past).builder.render ++ more
  /-- A body that starts returns later on. -/
  returns : ∀ past future, log = past ++ .module true :: future → Returned future
  /-- When the body returns, which it does once, its group comes after all that was added since it
  was called for. -/
  group : ∀ past body future, log = past ++ .close body :: future →
    Called past ∧ ¬ Returned past ∧ ¬ Returned future ∧
      (replay start (past ++ [.close body])).builder.items =
        (replay start past).builder.items ++ [.ofGroup ["module"] body]

theorem oneBodyRuns {start : State} (fresh : start.builder.phase = .unopened) {log : List Event}
    (fits : AllFit start log) : OneBodyRuns start log := by
  have first : ∀ past runs future, log = past ++ .module runs :: future →
      (runs = true ↔ ¬ Called past) := by
    rintro past runs future rfl
    obtain ⟨before, now, -⟩ := (allFit_append start past _).mp fits
    exact now.trans (phase_replay fresh before).unopened
  refine ⟨first, ?_, ?_⟩
  · intro past between future split
    refine (first _ true future split).mp rfl ⟨true, ?_⟩
    simp
  · intro past future _
    rw [replay_append_singleton]
    rfl

theorem itemsGrow {start : State} (fresh : start.builder.phase = .unopened) {log : List Event}
    (fits : AllFit start log) (notLeftOpen : (replay start log).builder.phase ≠ .building) :
    ItemsGrow start log := by
  refine ⟨?_, ?_, ?_, ?_⟩
  · intro past between _ _
    rw [items_replay, items_replay, List.flatMap_append, List.append_assoc]
  · exact fun past between _ _ => ⟨_, render_replay start past between⟩
  · rintro past future rfl
    have whole := phase_replay fresh fits
    have called : Called (past ++ .module true :: future) := ⟨true, by simp⟩
    have returned : Returned (past ++ .module true :: future) :=
      not_not.mp fun not => notLeftOpen (whole.building.mpr ⟨called, not⟩)
    obtain ⟨before, now, -⟩ := (allFit_append start past _).mp fits
    have notBefore : ¬ Returned past := by
      rw [← (phase_replay fresh before).closed, now.mp rfl]
      exact Phase.noConfusion
    rcases (returned_append _ _).mp returned with earlier | ⟨body, member⟩
    · exact absurd earlier notBefore
    · rcases List.mem_cons.mp member with same | later
      · cases same
      · exact ⟨body, later⟩
  · rintro past body future rfl
    obtain ⟨before, now, -⟩ := (allFit_append start past _).mp fits
    obtain ⟨called, notReturned⟩ := (phase_replay fresh before).building.mp now
    refine ⟨called, notReturned, ?_, ?_⟩
    · rintro ⟨other, member⟩
      obtain ⟨between, after, rfl⟩ := List.append_of_mem member
      have fitsAgain :
          AllFit start ((past ++ .close body :: between) ++ .close other :: after) := by
        simpa using fits
      obtain ⟨earlier, again, -⟩ := (allFit_append start _ _).mp fitsAgain
      exact ((phase_replay fresh earlier).building.mp again).2 ⟨body, by simp⟩
    · rw [replay_append_singleton, items_apply]
      rfl

/-- **The history of a session.** What a session does to a fresh builder is what its log says. The
body of the module runs once at most; at every moment the phase tells whether it was called for and
whether it returned; nodes and texts grow at the end; and at every moment finishing complains about
a module that is not closed, else about a refused stretch of the data region, else about symbols, or
else yields the text. What a session is told along the way is what the builder is like at the
time. -/
theorem performAll_history (location : String) (options : LayoutOptions)
    (actions : List Action) :
    let start := State.create location options
    let log := Action.logAll start actions
    stateAfter (performAll actions) start = replay start log ∧
      OneBodyRuns start log ∧
      ItemsGrow start log ∧
      ∀ past future, log = past ++ future →
        PhaseTells (replay start past).builder.phase past ∧
        FinishTells (replay start past).builder (Refused start past) ∧
        ∀ question rest, future = .ask question :: rest →
          (question (replay start past).builder).TellsOf (replay start past).builder := by
  intro start log
  obtain ⟨replays, fits, returns⟩ := records_performAll start actions
  have fresh : start.builder.phase = .unopened := rfl
  have notLeftOpen : (replay start log).builder.phase ≠ .building := by
    rw [← replays]
    rcases returns with same | ⟨-, closed⟩
    · rw [same]
      exact Phase.noConfusion
    · rw [closed]
      exact Phase.noConfusion
  refine ⟨replays, oneBodyRuns fresh fits, itemsGrow fresh fits notLeftOpen, ?_⟩
  intro past future split
  rw [show Action.logAll start actions = past ++ future from split, allFit_append] at fits
  refine ⟨phase_replay fresh fits.1, finish_cases (overflowed_replay rfl past), ?_⟩
  rintro question rest rfl
  exact fits.2.1

end WasmWorkshop.Session
