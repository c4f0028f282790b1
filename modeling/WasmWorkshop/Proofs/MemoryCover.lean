import Mathlib.Algebra.BigOperators.Group.List.Basic
import WasmWorkshop.Proofs.LiteralNodes
import WasmWorkshop.Proofs.MemorySizes

/-!
# What the declared memory covers

A session that is finished has refused nothing, so everything that it registered has a region, in
the order of the log (`exists_regions_replay`). The regions lie back to back, and the one memory of
the module has the size that the data region has at one moment in between. So what is registered
until then lies inside of the memory, and what is registered later lies behind it.

The declared memory covers all literals exactly if nothing but empty literals is registered after
that moment (`memory_covers_iff`). Finishing does not look at this: a literal behind the allocation,
also one that comes right after it in the same body, leaves the declared memory too small
(`memory_too_small`).
-/

set_option autoImplicit false

namespace WasmWorkshop

namespace BackToBack

variable {start finish : Nat} {regions : List Region}

/-- Regions that lie back to back all end where the first of them starts only if they stop
there. -/
theorem covered_iff (packed : BackToBack start regions finish) :
    (∀ region ∈ regions, region.offset + region.length ≤ start) ↔ finish = start := by
  constructor
  · intro covered
    rcases List.eq_nil_or_concat regions with rfl | ⟨earlier, last, rfl⟩
    · exact Eq.symm packed
    · rw [List.concat_eq_append] at packed covered
      have atEnd := covered last (List.mem_append_right _ List.mem_cons_self)
      rw [packed.last_end] at atEnd
      exact Nat.le_antisymm atEnd packed.start_le
  · rintro rfl region member
    exact (packed.bounds member).2

/-- Only empty regions take up no room. -/
theorem finish_eq_start_iff (packed : BackToBack start regions finish) :
    finish = start ↔ ∀ length ∈ regions.map Region.length, length = 0 := by
  constructor
  · rintro rfl
    refine List.forall_mem_map.mpr fun region member => ?_
    obtain ⟨above, below⟩ := packed.bounds member
    omega
  · intro empty
    rw [packed.finish_eq, List.sum_eq_zero empty]
    exact Nat.add_zero start

end BackToBack

namespace Session

/-! ## Regions and registrations -/

/-- The length that an event registers. -/
def Event.length? : Event → Option Nat
  | .register length => some length
  | _ => none

/-- The regions are those of the registrations among the events, in order. -/
def ArePlaced (events : List Event) (regions : List Region) : Prop :=
  regions.map Region.length = events.filterMap Event.length?

/-- An event that is not refused adds a region if it registers something, and none otherwise. -/
theorem exists_regions_apply {state : State} {event : Event}
    (fits : ¬ ∃ length, event = .register length ∧
      DataLayout.limit < state.builder.allocation + length) :
    ∃ placed, (event.apply state).builder.layout.regions =
      state.builder.layout.regions ++ placed ∧ ArePlaced [event] placed := by
  cases event with
  | module runs => cases runs <;> exact ⟨[], (List.append_nil _).symm, rfl⟩
  | close body => exact ⟨[], (List.append_nil _).symm, rfl⟩
  | emit node => exact ⟨[], (List.append_nil _).symm, rfl⟩
  | ask question => exact ⟨[], (List.append_nil _).symm, rfl⟩
  | register length =>
      have room : state.builder.layout.cursor + length ≤ DataLayout.limit :=
        Nat.not_lt.mp fun full => fits ⟨length, rfl, full⟩
      exact ⟨[⟨state.builder.layout.cursor, length⟩],
        congrArg DataLayout.regions (DataLayout.reserve_of_fits room), rfl⟩

/-- **If nothing is refused, then the regions grow by those of the registrations.** -/
theorem exists_regions_replay {start : State} {events : List Event}
    (accepted : ¬ Refused start events) :
    ∃ placed, (replay start events).builder.layout.regions =
      start.builder.layout.regions ++ placed ∧ ArePlaced events placed := by
  induction events using List.reverseRecOn with
  | nil => exact ⟨[], (List.append_nil _).symm, rfl⟩
  | append_singleton earlier event ih =>
      rw [refused_append_singleton, not_or] at accepted
      obtain ⟨placed, before, arePlaced⟩ := ih accepted.1
      obtain ⟨last, now, isPlaced⟩ := exists_regions_apply accepted.2
      refine ⟨placed ++ last, ?_, ?_⟩
      · rw [replay_append_singleton, now, before, List.append_assoc]
      · rw [ArePlaced, List.map_append, List.filterMap_append, arePlaced, isPlaced]

theorem Refused.append_left {start : State} {past later : List Event}
    (refused : Refused (replay start past) later) : Refused start (past ++ later) := by
  obtain ⟨before, length, after, rfl, full⟩ := refused
  refine ⟨past ++ before, length, after, (List.append_assoc ..).symm, ?_⟩
  rwa [replay_append]

theorem Refused.append_right {start : State} {past : List Event} (refused : Refused start past)
    (later : List Event) : Refused start (past ++ later) := by
  obtain ⟨before, length, after, rfl, full⟩ := refused
  exact ⟨before, length, after ++ later, List.append_assoc .., full⟩

/-! ## A size in between -/

/-- What a size covers that the data region has in between: after the events `before`, and before
the events `after`, with which the session ends. -/
structure SizeTells (final : ModuleBuilder) (before after : List Event) (size : Nat) : Prop where
  /-- There is a region for each registration. What is registered until then lies inside of the
  size, and what is registered later lies behind it. -/
  regions : ∃ inside behind, ArePlaced before inside ∧ ArePlaced after behind ∧
    final.layout.regions = inside ++ behind ∧
    (∀ region ∈ inside, region.offset + region.length ≤ size) ∧
    ∀ region ∈ behind, size ≤ region.offset
  /-- The size covers all regions exactly if it is the size of the data region at the end. -/
  covers_iff : (∀ region ∈ final.layout.regions, region.offset + region.length ≤ size) ↔
    final.allocation = size
  /-- This is so exactly if all that is registered later is empty. -/
  allocation_iff : final.allocation = size ↔ ∀ length ∈ after.filterMap Event.length?, length = 0

theorem sizeTells {start : State} (fresh : start.builder.layout = .empty)
    {before after : List Event} (accepted : ¬ Refused start (before ++ after)) :
    SizeTells (replay start (before ++ after)).builder before after
      (replay start before).builder.allocation := by
  have packed (past : List Event) : (replay start past).builder.layout.IsPacked :=
    isPacked_replay (fresh ▸ DataLayout.isPacked_empty) past
  obtain ⟨inside, early, insidePlaced⟩ := exists_regions_replay
    fun refused => accepted (Refused.append_right refused after)
  obtain ⟨behind, late, behindPlaced⟩ := exists_regions_replay
    fun refused => accepted (Refused.append_left refused)
  have noRegions : start.builder.layout.regions = [] := congrArg DataLayout.regions fresh
  rw [noRegions, List.nil_append] at early
  rw [← replay_append, early] at late
  have first := (packed before).backToBack
  have whole := (packed (before ++ after)).backToBack
  rw [early] at first
  rw [late] at whole
  obtain ⟨middle, toMiddle, fromMiddle⟩ := whole.of_append
  -- The regions until then determine where they end, so both ways of adding them up meet there.
  obtain rfl : middle = (replay start before).builder.allocation :=
    toMiddle.finish_eq.trans first.finish_eq.symm
  have insideCovered : ∀ region ∈ inside,
      region.offset + region.length ≤ (replay start before).builder.allocation :=
    fun region member => (toMiddle.bounds member).2
  refine ⟨⟨inside, behind, insidePlaced, behindPlaced, late, insideCovered, ?_⟩, ?_, ?_⟩
  · exact fun region member => (fromMiddle.bounds member).1
  · rw [late, List.forall_mem_append, and_iff_right insideCovered]
    exact fromMiddle.covered_iff
  · rw [← behindPlaced]
    exact fromMiddle.finish_eq_start_iff

/-! ## The memory of a module -/

/-- **What the declared memory covers.** In a finished session whose module has one allocation among
its operations, the module declares a single memory, whose size is that of the data region when the
allocation is through. What has been registered by then, in any place, lies inside of the memory,
and what is registered later lies behind it. So the memory covers all of it, and has the size of the
data region at the end, exactly if all that is registered later is empty. -/
theorem memory_covers_iff {location : String} {options : LayoutOptions} {actions : List Action}
    {past future moment : List Event} {body : List Item} {text : String}
    (builds : BuildsModule (.create location options) actions past body future)
    (only : Item.OnlyOperations (fun _ => True) body)
    (once : Item.sizings (opened (.create location options) past) body = [moment])
    (finished : (builderAfter location options actions).finish = .ok text) :
    let start := State.create location options
    let nodes := bodyNodes start past body
    let before := past ++ .module true :: moment
    let size := (replay start before).builder.allocation
    .ofGroup ["module"] nodes ∈ (builderAfter location options actions).items ∧
      (Node.formsAll nodes).filter (·.isMemory) = [.memory (sigil "memory") (toString size)] ∧
      ∃ after, Action.logAll start actions = before ++ after ∧
        SizeTells (builderAfter location options actions) before after size := by
  intro start nodes before size
  have tells := sizesTell_body body (opened start past) only
  obtain ⟨between, inBody⟩ := tells.within moment (once ▸ List.mem_singleton_self moment)
  obtain ⟨rest, log⟩ := builds.log_eq
  have whole : Action.logAll start actions = before ++ (between ++ .close nodes :: rest) := by
    rw [log, bodyLog, ← inBody, List.append_assoc, List.append_assoc, List.cons_append,
      List.append_assoc]
    rfl
  refine ⟨builds.mem_items, ?_, between ++ .close nodes :: rest, whole, ?_⟩
  · have sized : replay (opened start past) moment = replay start before := by
      rw [opened, replay_append]
      rfl
    have memories := tells.memories
    rw [once, List.map_singleton, List.perm_singleton, memoryAt, sized] at memories
    exact memories
  · have accepted := (accepted_of_finished finished).1
    rw [whole] at accepted
    rw [builder_eq_replay, whole]
    exact sizeTells rfl accepted

/-- A text before the allocation and one in it, and empty bytes after it. -/
def coveredBody : List Item :=
  [.expression (.function "main" [] [.expression (.string "a")]),
    .expression (.allocate [.expression (.string "hi")]), .expression (.data [])]

/-- A text in a function before the allocation, one in the allocation and empty bytes after it are
all covered by a memory of five bytes. -/
theorem memory_covers_iff_five :
    let builder := builderAfter "m" {} [.module coveredBody]
    (Node.formsAll (bodyNodes (.create "m" {}) [] coveredBody)).filter (·.isMemory) =
        [.memory "$memory" "5"] ∧
      builder.allocation = 5 ∧
      ∀ region ∈ builder.layout.regions, region.offset + region.length ≤ 5 := by
  have builds : BuildsModule (.create "m" {}) [.module coveredBody] [] coveredBody [] := ⟨rfl, rfl⟩
  have only : Item.OnlyOperations (fun _ => True) coveredBody := by
    simp only [coveredBody, Item.OnlyOperations, Expression.OnlyOperations, and_true]
  have once : Item.sizings (opened (.create "m" {}) []) coveredBody =
      [[.register 2, .register 3]] := rfl
  have finished : ∃ text, (builderAfter "m" {} [.module coveredBody]).finish = .ok text :=
    ⟨_, rfl⟩
  obtain ⟨text, finished⟩ := finished
  obtain ⟨-, memories, after, -, tells⟩ := memory_covers_iff builds only once finished
  have allocation : (builderAfter "m" {} [.module coveredBody]).allocation = 5 := by decide
  exact ⟨memories, allocation, tells.covers_iff.mpr allocation⟩

/-- A text in the allocation, and one right behind it. -/
def lateBody : List Item :=
  [.expression (.allocate [.expression (.string "hi")]), .expression (.string "bye")]

/-- **A literal behind the allocation is not covered.** The module can be finished, and the memory
that it declares ends where the literal starts. -/
theorem memory_too_small :
    let builder := builderAfter "m" {} [.module lateBody]
    Item.OnlyOperations (fun _ => True) lateBody ∧
      BuildsModule (.create "m" {}) [.module lateBody] [] lateBody [] ∧
      Item.sizings (opened (.create "m" {}) []) lateBody = [[.register 3]] ∧
      builder.finish = .ok
        ("(module\n (data (i32.const 0) \"\\68\\69\\00\")\n (memory $memory 3)\n" ++
          " (export \"memory\" (memory $memory))\n" ++
          " (data (i32.const 3) \"\\62\\79\\65\\00\")\n)\n") ∧
      (Node.formsAll (bodyNodes (.create "m" {}) [] lateBody)).filter (·.isMemory) =
        [.memory "$memory" "3"] ∧
      builder.layout.regions = [⟨0, 3⟩, ⟨3, 4⟩] ∧ builder.allocation = 7 ∧
      ¬ ∀ region ∈ builder.layout.regions, region.offset + region.length ≤ 3 := by
  refine ⟨?_, ⟨rfl, rfl⟩, rfl, by decide, by decide, by decide, by decide, by decide⟩
  simp only [lateBody, Item.OnlyOperations, Expression.OnlyOperations, and_true]

end Session

end WasmWorkshop
