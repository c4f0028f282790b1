import Mathlib.Data.List.Infix
import WasmWorkshop.Proofs.ItemWalks
import WasmWorkshop.Proofs.ScopeHistory

/-!
# Blocks on a stack of scopes

A run of calls is balanced if it closes just the scopes that it opens (`Balanced`). Between the push
of a scope and its pop, such a run works on top of the stack that was there before, which it
reaches in one way only: by a local that is declared while no function of the block is open
(`afterCalls_onTop`). So the whole block is as good as the definitions of those locals
(`afterCalls_block`). A function leaves nothing behind. A block or a loop leaves its locals, and
since locals and labels are kept apart (`SameLabels`), no answer about labels changes.
-/

set_option autoImplicit false

namespace WasmWorkshop

open ScopeCall (opened closed)

/-- A run that closes the scopes it opens, and no other. -/
def Balanced (run : List ScopeCall) : Prop := StaysAbove run ∧ closed run = opened run

/-- A run in a scope of its own. -/
def blockOf (scope : Scope) (run : List ScopeCall) : List ScopeCall :=
  .push scope :: (run ++ [.pop])

instance (run : List ScopeCall) : Decidable (StaysAbove run) :=
  decidable_of_iff (∀ part ∈ run.inits, closed part ≤ opened part) <| by
    simp only [List.mem_inits, StaysAbove]

instance (run : List ScopeCall) : Decidable (Balanced run) := inferInstanceAs (Decidable (_ ∧ _))

theorem StaysAbove.take {run : List ScopeCall} (above : StaysAbove run) (moment : Nat) :
    StaysAbove (run.take moment) :=
  fun part within => above part (within.trans (List.take_prefix moment run))

/-! ## The number of open scopes -/

/-- A push opens one scope, and a pop closes one if there is one. -/
theorem length_scopes_afterCall (stack : ScopeStack) (call : ScopeCall)
    (held : call.isPop = true → 0 < stack.scopes.length) :
    (stack.afterCall call).scopes.length + (if call.isPop then 1 else 0) =
      stack.scopes.length + if call.isPush then 1 else 0 := by
  cases call with
  | push scope => rfl
  | pop =>
      rw [ScopeStack.afterCall, ScopeStack.scopes_pop, List.length_tail]
      exact Nat.sub_add_cancel (held rfl)
  | defineLocal name =>
      rw [ScopeStack.afterCall, ScopeStack.scopes_defineLocal]
      rfl
  | defineLabel name =>
      rw [ScopeStack.afterCall, ScopeStack.scopes_defineLabel]
      rfl

theorem length_scopes_afterCalls (stack : ScopeStack) {run : List ScopeCall}
    (above : StaysAbove run) :
    (stack.afterCalls run).scopes.length + closed run = stack.scopes.length + opened run := by
  induction run using List.reverseRecOn with
  | nil => rfl
  | append_singleton earlier call ih =>
      obtain ⟨above, enough⟩ := staysAbove_append_singleton.mp above
      have before := ih above
      rw [opened_append_singleton, closed_append_singleton] at enough ⊢
      have held : call.isPop = true → 0 < (stack.afterCalls earlier).scopes.length := by
        intro pops
        have noPush : call.isPush = false := by
          cases call with
          | pop => rfl
          | push _ | defineLocal _ | defineLabel _ => cases pops
        simp only [pops, noPush, if_true, Bool.false_eq_true, if_false] at enough
        omega
      have step := length_scopes_afterCall (stack.afterCalls earlier) call held
      rw [ScopeStack.afterCalls_append]
      change ((stack.afterCalls earlier).afterCall call).scopes.length + _ = _
      omega

/-! ## A stack on top of another one -/

namespace ScopeStack

/-- The frames of one stack on top of those of another. -/
def onTop (inner outer : ScopeStack) : ScopeStack := ⟨inner.frames ++ outer.frames⟩

theorem pop_onTop {inner : ScopeStack} (held : inner.frames ≠ []) (outer : ScopeStack) :
    (inner.onTop outer).pop = inner.pop.onTop outer := by
  rw [onTop, onTop, pop, pop, List.tail_append_of_ne_nil held]

theorem defineLabel_onTop {inner : ScopeStack} (held : inner.frames ≠ []) (outer : ScopeStack)
    (name : String) :
    ((inner.onTop outer).defineLabel name).2 = (inner.defineLabel name).2.onTop outer := by
  obtain ⟨frame, frames, same⟩ := List.exists_cons_of_ne_nil held
  rw [defineLabel_snd, defineLabel_snd, onTop, onTop, same]
  by_cases known : name ∈ frame.labels <;> simp [addLabel?, known]

theorem addLocal?_append (name : String) (inner outer : List Frame) :
    addLocal? name (inner ++ outer) =
      if (innermostFunction inner).isSome then (addLocal? name inner).map (· ++ outer)
      else (addLocal? name outer).map (inner ++ ·) := by
  induction inner with
  | nil => simp [innermostFunction]
  | cons frame rest ih =>
      obtain ⟨scope, locals, labels⟩ := frame
      cases scope with
      | function function =>
          by_cases known : name ∈ locals <;>
            simp [addLocal?, innermostFunction, Frame.isFunction, known]
      | label =>
          simp only [List.cons_append, addLocal?, innermostFunction, Frame.isFunction,
            Bool.false_eq_true, if_false, ih]
          split <;> simp [Function.comp_def]

/-- A local lands below only if no function is open above. -/
theorem defineLocal_onTop (inner outer : ScopeStack) (name : String) :
    ((inner.onTop outer).defineLocal name).2 =
      if inner.currentFunction = none then inner.onTop (outer.defineLocal name).2
      else (inner.defineLocal name).2.onTop outer := by
  simp only [defineLocal_snd, onTop, addLocal?_append, currentFunction]
  cases innermostFunction inner.frames with
  | none => cases addLocal? name outer.frames <;> simp
  | some function => cases addLocal? name inner.frames <;> simp

/-- Without a function there is nothing to declare a local in. -/
theorem defineLocal_eq_self {stack : ScopeStack} (outside : stack.currentFunction = none)
    (name : String) : (stack.defineLocal name).2 = stack := by
  have refused : addLocal? name stack.frames = none := by
    cases found : addLocal? name stack.frames with
    | none => rfl
    | some frames =>
        have declared : (stack.defineLocal name).1 = true := by
          rw [defineLocal_fst, found, Option.isSome_some]
        have inFunction := function_of_defineLocal declared
        rw [outside] at inFunction
        cases inFunction
  rw [defineLocal_snd, refused, Option.getD_none]

end ScopeStack

/-- The locals that a run declares while no function is open, from a stack on. -/
def ownLocals (stack : ScopeStack) : List ScopeCall → List String
  | [] => []
  | .defineLocal name :: rest =>
    (if stack.currentFunction = none then [name] else []) ++
      ownLocals (stack.afterCall (.defineLocal name)) rest
  | call :: rest => ownLocals (stack.afterCall call) rest

/-- **A run on top of a stack reaches it by its own locals only.** -/
theorem afterCalls_onTop {run : List ScopeCall} (inner outer : ScopeStack)
    (held : ∀ part, part <+: run → (inner.afterCalls part).frames ≠ []) :
    (inner.onTop outer).afterCalls run =
      (inner.afterCalls run).onTop
        (outer.afterCalls ((ownLocals inner run).map .defineLocal)) := by
  -- From the front, since a call of the run is judged by what the calls before it left open.
  induction run generalizing inner outer with
  | nil => rfl
  | cons call rest ih =>
      have heldNow : inner.frames ≠ [] := held [] List.nil_prefix
      have heldLater : ∀ part, part <+: rest →
          ((inner.afterCall call).afterCalls part).frames ≠ [] := by
        intro part within
        exact held (call :: part) (List.cons_prefix_cons.mpr ⟨rfl, within⟩)
      have ih := fun outer => ih (inner.afterCall call) outer heldLater
      change ((inner.onTop outer).afterCall call).afterCalls rest =
        ((inner.afterCall call).afterCalls rest).onTop _
      cases call with
      | push scope => exact ih outer
      | pop =>
          rw [ScopeStack.afterCall, ScopeStack.pop_onTop heldNow]
          exact ih outer
      | defineLabel name =>
          rw [ScopeStack.afterCall, ScopeStack.defineLabel_onTop heldNow]
          exact ih outer
      | defineLocal name =>
          rw [ScopeStack.afterCall, ScopeStack.defineLocal_onTop, ownLocals]
          by_cases outside : inner.currentFunction = none
          · have same : inner.afterCall (.defineLocal name) = inner :=
              ScopeStack.defineLocal_eq_self outside name
            rw [if_pos outside, if_pos outside]
            rw [same] at ih ⊢
            exact ih _
          · rw [if_neg outside, if_neg outside]
            exact ih outer

theorem mem_ownLocals {name : String} {run : List ScopeCall} {stack : ScopeStack} :
    name ∈ ownLocals stack run ↔
      ∃ moment, run[moment]? = some (.defineLocal name) ∧
        (stack.afterCalls (run.take moment)).currentFunction = none := by
  induction run generalizing stack with
  | nil => simp [ownLocals]
  | cons call rest ih =>
      have later : (∃ moment, (call :: rest)[moment]? = some (.defineLocal name) ∧
          (stack.afterCalls ((call :: rest).take moment)).currentFunction = none) ↔
          (call = .defineLocal name ∧ stack.currentFunction = none) ∨
            name ∈ ownLocals (stack.afterCall call) rest := by
        rw [ih]
        constructor
        · rintro ⟨moment | moment, there, outside⟩
          · exact .inl ⟨Option.some.inj there, outside⟩
          · exact .inr ⟨moment, there, outside⟩
        · rintro (⟨rfl, outside⟩ | ⟨moment, there, outside⟩)
          · exact ⟨0, rfl, outside⟩
          · exact ⟨moment + 1, there, outside⟩
      rw [later]
      cases call with
      | push _ | pop | defineLabel _ => simp [ownLocals]
      | defineLocal other =>
          rw [ownLocals, List.mem_append]
          refine or_congr_left ?_
          by_cases outside : stack.currentFunction = none <;> simp [outside, eq_comm]

/-! ## A whole block -/

section Block

variable (stack : ScopeStack) (scope : Scope) {run : List ScopeCall}

theorem length_scopes_inside (above : StaysAbove run) :
    ((ScopeStack.empty.push scope).afterCalls run).scopes.length + closed run = 1 + opened run :=
  length_scopes_afterCalls (ScopeStack.empty.push scope) above

/-- The stack just before a block is closed. -/
theorem afterCalls_push (above : StaysAbove run) :
    stack.afterCalls (.push scope :: run) =
      ((ScopeStack.empty.push scope).afterCalls run).onTop
        (stack.afterCalls ((ownLocals (ScopeStack.empty.push scope) run).map .defineLocal)) := by
  refine afterCalls_onTop (ScopeStack.empty.push scope) stack fun part within nothing => ?_
  have abovePart : StaysAbove part := fun inner before => above inner (before.trans within)
  have counted := length_scopes_inside scope abovePart
  have enough := abovePart.closed_le
  rw [ScopeStack.scopes, nothing, List.map_nil, List.length_nil] at counted
  omega

/-- **A block is as good as the definitions of its own locals.** -/
theorem afterCalls_block (balanced : Balanced run) :
    stack.afterCalls (blockOf scope run) =
      stack.afterCalls ((ownLocals (ScopeStack.empty.push scope) run).map .defineLocal) := by
  obtain ⟨above, even⟩ := balanced
  have oneScope : ((ScopeStack.empty.push scope).afterCalls run).scopes.length = 1 := by
    have counted := length_scopes_inside scope above
    omega
  have held : ((ScopeStack.empty.push scope).afterCalls run).frames ≠ [] := by
    intro nothing
    rw [ScopeStack.scopes, nothing] at oneScope
    cases oneScope
  have nothingLeft : ((ScopeStack.empty.push scope).afterCalls run).pop = .empty := by
    refine ScopeStack.eq_empty_of_scopes (List.eq_nil_of_length_eq_zero ?_)
    rw [ScopeStack.scopes_pop, List.length_tail, oneScope]
  calc stack.afterCalls (blockOf scope run)
      = (stack.afterCalls (.push scope :: run)).pop := by
        rw [blockOf, ← List.cons_append, ScopeStack.afterCalls_append]
        rfl
    _ = _ := by
        rw [afterCalls_push stack scope above, ScopeStack.pop_onTop held, nothingLeft]
        rfl

end Block

/-! ### What is open inside -/

theorem isOpen_push_zero {outer scope : Scope} {run : List ScopeCall} :
    IsOpen (.push outer :: run) 0 scope ↔ outer = scope ∧ StaysAbove run := by
  simp [IsOpen]

theorem isOpen_push_succ {outer scope : Scope} {run : List ScopeCall} {position : Nat} :
    IsOpen (.push outer :: run) (position + 1) scope ↔ IsOpen run position scope := by
  simp [IsOpen]

/-- In the scope of a function there is always a function open. -/
theorem ownLocals_function (function : String) {run : List ScopeCall} (above : StaysAbove run) :
    ownLocals (ScopeStack.empty.push (.function function)) run = [] := by
  refine List.eq_nil_iff_forall_not_mem.mpr fun name member => ?_
  obtain ⟨moment, -, outside⟩ := mem_ownLocals.mp member
  have nothingOpen := (currentFunction_afterCalls_eq_none
    (.push (.function function) :: run.take moment)).mp outside
  exact nothingOpen 0 function (isOpen_push_zero.mpr ⟨rfl, above.take moment⟩)

/-- In a block or a loop those locals are its own that are not declared in a function inside. -/
theorem mem_ownLocals_label {run : List ScopeCall} {name : String} :
    name ∈ ownLocals (ScopeStack.empty.push .label) run ↔
      ∃ moment, run[moment]? = some (.defineLocal name) ∧
        ∀ position function, ¬ IsOpen (run.take moment) position (.function function) := by
  rw [mem_ownLocals]
  refine exists_congr fun moment => and_congr_right fun _ => ?_
  refine (currentFunction_afterCalls_eq_none (.push .label :: run.take moment)).trans ?_
  constructor
  · intro nothingOpen position function isOpen
    exact nothingOpen (position + 1) function (isOpen_push_succ.mpr isOpen)
  · rintro nothingOpen (_ | position) function isOpen
    · cases (isOpen_push_zero.mp isOpen).1
    · exact nothingOpen position function (isOpen_push_succ.mp isOpen)

/-! ## Locals and labels apart -/

/-- A frame without its locals. -/
def Frame.withoutLocals (frame : Frame) : Frame := { frame with locals := [] }

namespace ScopeStack

/-- The stack without its locals. -/
def withoutLocals (stack : ScopeStack) : ScopeStack := ⟨stack.frames.map Frame.withoutLocals⟩

theorem hasLabel_withoutLocals (stack : ScopeStack) (name : String) :
    stack.withoutLocals.hasLabel name = stack.hasLabel name := by
  obtain ⟨frames⟩ := stack
  simp only [hasLabel, visible, withoutLocals]
  induction frames with
  | nil => rfl
  | cons frame rest ih =>
      obtain ⟨scope, locals, labels⟩ := frame
      cases scope <;> simp [upToFunction, Frame.isFunction, Frame.withoutLocals, ← ih]

theorem currentFunction_withoutLocals (stack : ScopeStack) :
    stack.withoutLocals.currentFunction = stack.currentFunction := by
  obtain ⟨frames⟩ := stack
  simp only [currentFunction, withoutLocals]
  induction frames with
  | nil => rfl
  | cons frame rest ih =>
      obtain ⟨scope, locals, labels⟩ := frame
      cases scope <;> simp [innermostFunction, Frame.withoutLocals, ← ih]

theorem withoutLocals_defineLabel (stack : ScopeStack) (name : String) :
    stack.withoutLocals.defineLabel name =
      ((stack.defineLabel name).1, (stack.defineLabel name).2.withoutLocals) := by
  obtain ⟨frames⟩ := stack
  cases frames with
  | nil => rfl
  | cons frame rest =>
      by_cases known : name ∈ frame.labels <;>
        simp [defineLabel, addLabel?, withoutLocals, Frame.withoutLocals, known]

theorem getD_addLocal?_cons (name : String) (frame : Frame) (rest : List Frame) :
    (addLocal? name (frame :: rest)).getD (frame :: rest) =
      if frame.isFunction then { frame with locals := frame.locals.insert name } :: rest
      else frame :: (addLocal? name rest).getD rest := by
  rw [addLocal?]
  split
  · by_cases known : name ∈ frame.locals <;> simp [known]
  · cases addLocal? name rest <;> rfl

theorem withoutLocals_defineLocal (stack : ScopeStack) (name : String) :
    (stack.defineLocal name).2.withoutLocals = stack.withoutLocals := by
  obtain ⟨frames⟩ := stack
  simp only [defineLocal_snd, withoutLocals, ScopeStack.mk.injEq]
  induction frames with
  | nil => rfl
  | cons frame rest ih =>
      rw [getD_addLocal?_cons]
      split
      · rfl
      · rw [List.map_cons, List.map_cons, ih]

theorem hasLocal_defineLocal (stack : ScopeStack) (name other : String) :
    (stack.defineLocal name).2.hasLocal other = true ↔
      stack.hasLocal other = true ∨ (stack.currentFunction.isSome = true ∧ other = name) := by
  obtain ⟨frames⟩ := stack
  simp only [defineLocal_snd, hasLocal, visible, currentFunction]
  induction frames with
  | nil => simp [addLocal?, innermostFunction, upToFunction]
  | cons frame rest ih =>
      obtain ⟨scope, locals, labels⟩ := frame
      rw [getD_addLocal?_cons]
      cases scope with
      | function function =>
          simp [Frame.isFunction, upToFunction, innermostFunction, or_comm]
      | label => simpa [Frame.isFunction, upToFunction, innermostFunction] using ih

/-- Definitions of locals add them to the function, if there is one, and do nothing else. -/
theorem afterCalls_defineLocal (stack : ScopeStack) (names : List String) :
    (stack.afterCalls (names.map .defineLocal)).withoutLocals = stack.withoutLocals ∧
      ∀ name, (stack.afterCalls (names.map .defineLocal)).hasLocal name = true ↔
        stack.hasLocal name = true ∨ (stack.currentFunction.isSome = true ∧ name ∈ names) := by
  induction names generalizing stack with
  | nil => exact ⟨rfl, fun name => by simp [afterCalls]⟩
  | cons first rest ih =>
      obtain ⟨labels, locals⟩ := ih (stack.defineLocal first).2
      rw [withoutLocals_defineLocal] at labels
      refine ⟨labels, fun name => (locals name).trans ?_⟩
      rw [hasLocal_defineLocal, ← currentFunction_withoutLocals (stack.defineLocal first).2,
        withoutLocals_defineLocal, currentFunction_withoutLocals, List.mem_cons, or_assoc,
        ← and_or_left]

end ScopeStack

/-- Two stacks that give the same answers about labels. -/
structure SameLabels (left right : ScopeStack) : Prop where
  hasLabel : ∀ name, left.hasLabel name = right.hasLabel name
  defineLabel : ∀ name, (left.defineLabel name).1 = (right.defineLabel name).1

theorem SameLabels.of_withoutLocals {left right : ScopeStack}
    (same : left.withoutLocals = right.withoutLocals) : SameLabels left right where
  hasLabel name := by
    rw [← left.hasLabel_withoutLocals, same, right.hasLabel_withoutLocals]
  defineLabel name := by
    have answer (stack : ScopeStack) :
        (stack.withoutLocals.defineLabel name).1 = (stack.defineLabel name).1 := by
      rw [ScopeStack.withoutLocals_defineLabel]
    rw [← answer left, same, answer right]

/-- A call leaves stacks alike that differ in their locals only. -/
theorem withoutLocals_afterCall_congr {left right : ScopeStack}
    (same : left.withoutLocals = right.withoutLocals) (call : ScopeCall) :
    (left.afterCall call).withoutLocals = (right.afterCall call).withoutLocals := by
  cases call with
  | push scope => exact congrArg (ScopeStack.push · scope) same
  | pop =>
      have closedBelow (stack : ScopeStack) :
          stack.pop.withoutLocals = stack.withoutLocals.pop :=
        congrArg ScopeStack.mk List.map_tail
      exact (closedBelow left).trans (same ▸ (closedBelow right).symm)
  | defineLocal name =>
      exact (left.withoutLocals_defineLocal name).trans
        (same.trans (right.withoutLocals_defineLocal name).symm)
  | defineLabel name =>
      have landed (stack : ScopeStack) : (stack.defineLabel name).2.withoutLocals =
          (stack.withoutLocals.defineLabel name).2 := by
        rw [ScopeStack.withoutLocals_defineLabel]
      exact (landed left).trans (same ▸ (landed right).symm)

theorem withoutLocals_afterCalls_congr {left right : ScopeStack}
    (same : left.withoutLocals = right.withoutLocals) (later : List ScopeCall) :
    (left.afterCalls later).withoutLocals = (right.afterCalls later).withoutLocals := by
  induction later generalizing left right with
  | nil => exact same
  | cons call rest ih => exact ih (withoutLocals_afterCall_congr same call)

/-! ## The whole account -/

/-- **A stack of scopes answers by its history, and a block that is closed again changes no later
answer but those about its own locals.** The block of a function changes none at all. -/
theorem scopeStack_answers (calls : List ScopeCall) :
    AnswersByHistory calls (ScopeStack.empty.afterCalls calls) ∧
      ∀ run, Balanced run →
        (∀ function later,
          ScopeStack.empty.afterCalls (calls ++ blockOf (.function function) run ++ later) =
            ScopeStack.empty.afterCalls (calls ++ later)) ∧
        (∀ later, SameLabels
          (ScopeStack.empty.afterCalls (calls ++ blockOf .label run ++ later))
          (ScopeStack.empty.afterCalls (calls ++ later))) ∧
        ∀ name,
          (ScopeStack.empty.afterCalls (calls ++ blockOf .label run)).hasLocal name = true ↔
            (ScopeStack.empty.afterCalls calls).hasLocal name = true ∨
              ((ScopeStack.empty.afterCalls calls).currentFunction.isSome = true ∧
                ∃ moment, run[moment]? = some (.defineLocal name) ∧ ∀ position function,
                  ¬ IsOpen (run.take moment) position (.function function)) := by
  refine ⟨answersByHistory calls, fun run balanced => ⟨fun function later => ?_, fun later => ?_,
    fun name => ?_⟩⟩
  · rw [ScopeStack.afterCalls_append, ScopeStack.afterCalls_append,
      afterCalls_block _ _ balanced, ownLocals_function function balanced.1,
      ScopeStack.afterCalls_append]
    rfl
  · rw [ScopeStack.afterCalls_append, ScopeStack.afterCalls_append,
      afterCalls_block _ _ balanced, ScopeStack.afterCalls_append]
    exact .of_withoutLocals (withoutLocals_afterCalls_congr
      (ScopeStack.afterCalls_defineLocal _ _).1 later)
  · rw [ScopeStack.afterCalls_append, afterCalls_block _ _ balanced,
      (ScopeStack.afterCalls_defineLocal _ _).2, mem_ownLocals_label]

/-- A function inside of a block declares a local of its own, then the block declares one. -/
def functionInBlock : List ScopeCall :=
  [.push (.function "inner"), .defineLocal "x", .defineLabel "again", .pop, .defineLocal "y"]

theorem scopeStack_answers_functionInBlock :
    Balanced functionInBlock ∧
      let calls : List ScopeCall := [.push (.function "outer"), .defineLabel "again"]
      let after := ScopeStack.empty.afterCalls (calls ++ blockOf .label functionInBlock)
      after.hasLocal "y" = true ∧ after.hasLocal "x" = false ∧ after.hasLabel "again" = true := by
  have balanced : Balanced functionInBlock := by decide
  obtain ⟨-, blocks⟩ :=
    scopeStack_answers [.push (.function "outer"), .defineLabel "again"]
  obtain ⟨-, labels, locals⟩ := blocks functionInBlock balanced
  have noFunction : ∀ position function,
      ¬ IsOpen (functionInBlock.take 4) position (.function function) := by
    rintro position function ⟨pushed, above⟩
    match position with
    | 0 => exact absurd above (by decide)
    | 1 | 2 | 3 | _ + 4 => cases pushed
  refine ⟨balanced, (locals "y").mpr (.inr ⟨rfl, 4, rfl, noFunction⟩), by decide, ?_⟩
  exact ((labels []).hasLabel "again").trans (by decide)

end WasmWorkshop
