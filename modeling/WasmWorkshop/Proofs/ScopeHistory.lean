import WasmWorkshop.Proofs.SymbolRules

/-!
# A stack of scopes answers by its history

A stack of scopes goes through calls: scopes are pushed and popped, locals and labels are defined
(`ScopeCall`). What it answers afterwards can be told from the calls alone. A scope is known by the
position of the call that pushed it, since two scopes may have one name. It is open as long as the
calls after its push have at no moment closed more scopes than they opened (`IsOpen`); the innermost
one of all is the open scope with the last position (`IsTop`), and the innermost function is the
open function with the last position (`IsInnermostFunction`).

A local is visible if it was defined while the present innermost function was the innermost one; a
label is visible if it was defined on top of a scope that is still open and is not outside of that
function (`answersByHistory`). A pop without an open scope does nothing, so the calls need not be
restricted.

The scopes that are open after some calls, each placed by its position, and the definitions, each
with the scopes around it, are what `stackAfter` asks for. So the stack is again a function of its
history (`afterCalls_eq_stackAfter`).
-/

set_option autoImplicit false

namespace WasmWorkshop

/-! ## Calls -/

/-- A call on a stack of scopes. -/
inductive ScopeCall where
  | push (scope : Scope)
  | pop
  | defineLocal (name : String)
  | defineLabel (name : String)
  deriving DecidableEq

/-- The stack after a call. -/
def ScopeStack.afterCall (stack : ScopeStack) : ScopeCall → ScopeStack
  | .push scope => stack.push scope
  | .pop => stack.pop
  | .defineLocal name => (stack.defineLocal name).2
  | .defineLabel name => (stack.defineLabel name).2

/-- The stack after calls. -/
def ScopeStack.afterCalls (stack : ScopeStack) (calls : List ScopeCall) : ScopeStack :=
  calls.foldl ScopeStack.afterCall stack

theorem ScopeStack.afterCalls_append (stack : ScopeStack) (first second : List ScopeCall) :
    stack.afterCalls (first ++ second) = (stack.afterCalls first).afterCalls second :=
  List.foldl_append

namespace ScopeCall

/-- Whether the call opens a scope. -/
def isPush : ScopeCall → Bool
  | .push _ => true
  | _ => false

/-- Whether the call closes a scope. -/
def isPop : ScopeCall → Bool
  | .pop => true
  | _ => false

/-- The number of scopes that a run opens. -/
def opened (run : List ScopeCall) : Nat := run.countP isPush

/-- The number of scopes that a run closes. -/
def closed (run : List ScopeCall) : Nat := run.countP isPop

end ScopeCall

open ScopeCall (opened closed)

/-! ## Scopes by position -/

/-- At no moment of the run have more scopes been closed than opened. So whatever was open before is
still open. -/
def StaysAbove (run : List ScopeCall) : Prop := ∀ part, part <+: run → closed part ≤ opened part

/-- The scope pushed by the call at the position is still open. -/
def IsOpen (calls : List ScopeCall) (position : Nat) (scope : Scope) : Prop :=
  calls[position]? = some (.push scope) ∧ StaysAbove (calls.drop (position + 1))

/-- The innermost open scope. -/
def IsTop (calls : List ScopeCall) (position : Nat) (scope : Scope) : Prop :=
  IsOpen calls position scope ∧
    ∀ other otherScope, IsOpen calls other otherScope → other ≤ position

/-- The innermost open function, by the position of its push and by its name. -/
def IsInnermostFunction (calls : List ScopeCall) (position : Nat) (name : String) : Prop :=
  IsOpen calls position (.function name) ∧
    ∀ other otherName, IsOpen calls other (.function otherName) → other ≤ position

/-- What a stack answers after calls on a new one. -/
structure AnswersByHistory (calls : List ScopeCall) (stack : ScopeStack) : Prop where
  currentFunction : ∀ name, stack.currentFunction = some name ↔
    ∃ position, IsInnermostFunction calls position name
  /-- A local is visible if it was defined while the function that is innermost now was so. -/
  hasLocal : ∀ name, stack.hasLocal name = true ↔
    ∃ position function, IsInnermostFunction calls position function ∧
      ∃ moment, calls[moment]? = some (.defineLocal name) ∧
        IsInnermostFunction (calls.take moment) position function
  /-- A label is visible if it was defined on top of a scope that is open still and does not lie
  outside of the innermost function. -/
  hasLabel : ∀ name, stack.hasLabel name = true ↔
    ∃ position scope, IsOpen calls position scope ∧
      (∀ limit function, IsInnermostFunction calls limit function → limit ≤ position) ∧
      ∃ moment, calls[moment]? = some (.defineLabel name) ∧
        IsTop (calls.take moment) position scope
  /-- A local is new if there is a function to hold it that does not. -/
  defineLocal : ∀ name, (stack.defineLocal name).1 = true ↔
    (∃ position function, IsInnermostFunction calls position function) ∧
      stack.hasLocal name = false
  /-- A label is new if it was not defined yet on top of the scope that is innermost now. -/
  defineLabel : ∀ name, (stack.defineLabel name).1 = true ↔
    ∃ position scope, IsTop calls position scope ∧
      ¬ ∃ moment, calls[moment]? = some (.defineLabel name) ∧
        IsTop (calls.take moment) position scope

/-! ## One more call -/

theorem opened_append_singleton (run : List ScopeCall) (call : ScopeCall) :
    opened (run ++ [call]) = opened run + if call.isPush then 1 else 0 := by
  simp [opened]

theorem closed_append_singleton (run : List ScopeCall) (call : ScopeCall) :
    closed (run ++ [call]) = closed run + if call.isPop then 1 else 0 := by
  simp [closed]

theorem StaysAbove.closed_le {run : List ScopeCall} (above : StaysAbove run) :
    closed run ≤ opened run :=
  above run (List.prefix_refl run)

theorem staysAbove_append_singleton {run : List ScopeCall} {call : ScopeCall} :
    StaysAbove (run ++ [call]) ↔
      StaysAbove run ∧ closed (run ++ [call]) ≤ opened (run ++ [call]) := by
  constructor
  · intro above
    refine ⟨fun part within => ?_, above.closed_le⟩
    exact above part (within.trans (List.prefix_append run [call]))
  · rintro ⟨above, whole⟩ part within
    rcases List.prefix_concat_iff.mp within with rfl | within
    · exact whole
    · exact above part within

theorem IsOpen.lt_length {calls : List ScopeCall} {position : Nat} {scope : Scope}
    (isOpen : IsOpen calls position scope) : position < calls.length :=
  (List.getElem?_eq_some_iff.mp isOpen.1).1

/-- The scope is open, and so many scopes are open inside of it. -/
def IsOpenBelow (calls : List ScopeCall) (level position : Nat) (scope : Scope) : Prop :=
  IsOpen calls position scope ∧
    opened (calls.drop (position + 1)) = closed (calls.drop (position + 1)) + level

section OneMoreCall

variable {calls : List ScopeCall} {level position : Nat} {scope : Scope}

/-- Of the scopes that were open before a call, those stay open that have enough scopes inside; a
push opens its own. -/
theorem isOpenBelow_append_singleton {call : ScopeCall} :
    IsOpenBelow (calls ++ [call]) level position scope ↔
      (position = calls.length ∧ call = .push scope ∧ level = 0) ∨
      (IsOpen calls position scope ∧
        opened (calls.drop (position + 1) ++ [call]) =
          closed (calls.drop (position + 1) ++ [call]) + level) := by
  rw [IsOpenBelow, IsOpen]
  -- The push of the scope is an earlier call, or this one, or there is none.
  rcases Nat.lt_trichotomy position calls.length with earlier | rfl | later
  · rw [List.getElem?_append_left earlier,
      List.drop_append_of_le_length (show position + 1 ≤ _ from earlier),
      staysAbove_append_singleton]
    constructor
    · rintro ⟨⟨pushed, above, -⟩, same⟩
      exact .inr ⟨⟨pushed, above⟩, same⟩
    · rintro (⟨rfl, -⟩ | ⟨⟨pushed, above⟩, same⟩)
      · exact absurd earlier (Nat.lt_irrefl _)
      · exact ⟨⟨pushed, above, by omega⟩, same⟩
  · have nothingAfter : (calls ++ [call]).drop (calls.length + 1) = [] :=
      List.drop_eq_nil_of_le (by simp)
    have notBefore : ¬ IsOpen calls calls.length scope := by
      intro isOpen
      exact Nat.lt_irrefl _ isOpen.lt_length
    have nothing : StaysAbove [] := by
      intro part within
      rw [List.prefix_nil.mp within]
      exact Nat.le_refl _
    rw [nothingAfter, List.getElem?_concat_length]
    simp only [notBefore, false_and, or_false, true_and, nothing, and_true, Option.some.injEq]
    exact and_congr_right fun _ => by simp [opened, closed, eq_comm]
  · have noCall : (calls ++ [call])[position]? = none :=
      List.getElem?_eq_none (by rwa [List.length_append, List.length_singleton])
    have notBefore : ¬ IsOpen calls position scope := by
      intro isOpen
      exact Nat.lt_asymm later isOpen.lt_length
    simp [noCall, notBefore, Nat.ne_of_gt later]

theorem isOpenBelow_append_push {pushed : Scope} :
    IsOpenBelow (calls ++ [.push pushed]) level position scope ↔
      (level = 0 ∧ position = calls.length ∧ scope = pushed) ∨
      ∃ inner, level = inner + 1 ∧ IsOpenBelow calls inner position scope := by
  simp only [isOpenBelow_append_singleton, opened_append_singleton, closed_append_singleton,
    ScopeCall.isPush, ScopeCall.isPop, if_true, Bool.false_eq_true, if_false]
  constructor
  · rintro (⟨rfl, same, rfl⟩ | ⟨isOpen, same⟩)
    · exact .inl ⟨rfl, rfl, (ScopeCall.push.inj same).symm⟩
    · have enough := isOpen.2.closed_le
      exact .inr ⟨level - 1, by omega, isOpen, by omega⟩
  · rintro (⟨rfl, rfl, rfl⟩ | ⟨inner, rfl, isOpen, same⟩)
    · exact .inl ⟨rfl, rfl, rfl⟩
    · exact .inr ⟨isOpen, by omega⟩

theorem isOpenBelow_append_pop :
    IsOpenBelow (calls ++ [.pop]) level position scope ↔
      IsOpenBelow calls (level + 1) position scope := by
  rw [isOpenBelow_append_singleton, opened_append_singleton, closed_append_singleton, IsOpenBelow]
  simp only [ScopeCall.isPush, ScopeCall.isPop, if_true, Bool.false_eq_true, if_false,
    reduceCtorEq, false_and, and_false, false_or]
  exact and_congr_right fun _ => by omega

/-- A call that neither pushes nor pops leaves open what is open. -/
theorem isOpenBelow_append_definition (call : ScopeCall) (noPush : call.isPush = false)
    (noPop : call.isPop = false) :
    IsOpenBelow (calls ++ [call]) level position scope ↔
      IsOpenBelow calls level position scope := by
  have notPushed : call ≠ .push scope := by
    rintro rfl
    cases noPush
  rw [isOpenBelow_append_singleton, opened_append_singleton, closed_append_singleton, IsOpenBelow]
  simp only [noPush, noPop, notPushed, Bool.false_eq_true, if_false, false_and, and_false,
    false_or, Nat.add_zero]

end OneMoreCall

/-! ## What the calls come to -/

/-- What a call declares, if it is a definition. -/
def ScopeCall.definition? : ScopeCall → Option SymbolUse
  | .defineLocal name => some (.declaring .localVariable name)
  | .defineLabel name => some (.declaring .label name)
  | .push _ | .pop => none

namespace ScopeCall

theorem definesLocal_iff (name : String) (call : ScopeCall) :
    (∃ symbol, call.definition? = some symbol ∧ symbol.Declares .localVariable name) ↔
      call = .defineLocal name := by
  cases call <;> simp [ScopeCall.definition?, SymbolUse.Declares, SymbolUse.declaring]

theorem definesLabel_iff (name : String) (call : ScopeCall) :
    (∃ symbol, call.definition? = some symbol ∧ symbol.Declares .label name) ↔
      call = .defineLabel name := by
  cases call <;> simp [ScopeCall.definition?, SymbolUse.Declares, SymbolUse.declaring]

end ScopeCall

/-- The position in the place of a scope that is known by the call that pushed it. -/
def PlacedScope.position (placed : PlacedScope) : Nat := placed.place.headD 0

theorem PlacedScope.position_eq {placed : PlacedScope} {position : Nat}
    (place : placed.place = [position]) : placed.position = position := by
  rw [PlacedScope.position, place, List.headD_cons]

/-- What calls come to. -/
structure ScopeRecord where
  /-- The position of the next call. -/
  position : Nat := 0
  /-- The open scopes, the innermost first, each placed by the position of its push. -/
  scopes : List PlacedScope := []
  /-- The definitions, each with the scopes that were open then. -/
  definitions : List Occurrence := []

namespace ScopeRecord

/-- The record after one more call. -/
def next (record : ScopeRecord) (call : ScopeCall) : ScopeRecord where
  position := record.position + 1
  scopes :=
    match call with
    | .push scope => ⟨[record.position], scope⟩ :: record.scopes
    | .pop => record.scopes.tail
    | .defineLocal _ | .defineLabel _ => record.scopes
  definitions := record.definitions ++ (call.definition?.map (⟨record.scopes, ·⟩)).toList

/-- The record of calls on a new stack. -/
def of (calls : List ScopeCall) : ScopeRecord := calls.foldl next {}

theorem of_append_singleton (calls : List ScopeCall) (call : ScopeCall) :
    of (calls ++ [call]) = (of calls).next call := by
  rw [of, of, List.foldl_append]
  rfl

@[simp] theorem position_of (calls : List ScopeCall) : (of calls).position = calls.length := by
  induction calls using List.reverseRecOn with
  | nil => rfl
  | append_singleton earlier call ih => simp [of_append_singleton, next, ih]

/-- The scopes in the record are the open ones, each at its level. -/
theorem getElem?_scopes (calls : List ScopeCall) (level : Nat) (placed : PlacedScope) :
    (of calls).scopes[level]? = some placed ↔
      ∃ position, placed.place = [position] ∧
        IsOpenBelow calls level position placed.scope := by
  induction calls using List.reverseRecOn generalizing level with
  | nil =>
      constructor
      · intro found
        cases found
      · rintro ⟨position, -, isOpen, -⟩
        exact absurd isOpen.lt_length (Nat.not_lt_zero _)
  | append_singleton earlier call ih =>
      obtain ⟨place, scope⟩ := placed
      simp only [of_append_singleton, next]
      cases call with
      | push pushed =>
          simp only [position_of, isOpenBelow_append_push]
          cases level with
          -- The new scope is at level zero and every other one a level further out.
          | zero => simp [PlacedScope.mk.injEq, eq_comm]
          | succ inner => simp [ih]
      | pop => simpa only [List.getElem?_tail, isOpenBelow_append_pop] using ih (level + 1)
      | defineLocal name =>
          simpa only [isOpenBelow_append_definition (.defineLocal name) rfl rfl]
            using ih level
      | defineLabel name =>
          simpa only [isOpenBelow_append_definition (.defineLabel name) rfl rfl]
            using ih level

theorem mem_scopes {calls : List ScopeCall} {placed : PlacedScope} :
    placed ∈ (of calls).scopes ↔
      ∃ position, placed.place = [position] ∧ IsOpen calls position placed.scope := by
  simp only [List.mem_iff_getElem?, getElem?_scopes]
  constructor
  · rintro ⟨level, position, place, isOpen, -⟩
    exact ⟨position, place, isOpen⟩
  · rintro ⟨position, place, isOpen⟩
    have enough := isOpen.2.closed_le
    exact ⟨opened (calls.drop (position + 1)) - closed (calls.drop (position + 1)), position,
      place, isOpen, by omega⟩

@[simp] theorem mk_mem_scopes {calls : List ScopeCall} {position : Nat} {scope : Scope} :
    ⟨[position], scope⟩ ∈ (of calls).scopes ↔ IsOpen calls position scope := by
  simp [mem_scopes]

/-- An inner scope was pushed after the scopes around it. -/
theorem pairwise_scopes (calls : List ScopeCall) :
    (of calls).scopes.Pairwise fun inner outer => outer.position < inner.position := by
  induction calls using List.reverseRecOn with
  | nil => exact .nil
  | append_singleton earlier call ih =>
      simp only [of_append_singleton, next]
      cases call with
      | push scope =>
          refine List.pairwise_cons.mpr ⟨fun outer member => ?_, ih⟩
          obtain ⟨position, place, isOpen⟩ := mem_scopes.mp member
          rw [PlacedScope.position_eq place, PlacedScope.position_eq rfl, position_of]
          exact isOpen.lt_length
      | pop => exact ih.tail
      | defineLocal _ | defineLabel _ => exact ih

theorem nodup_scopes (calls : List ScopeCall) : (of calls).scopes.Nodup := by
  refine (pairwise_scopes calls).imp ?_
  rintro inner outer before rfl
  exact Nat.lt_irrefl _ before

/-- The definitions in the record are those among the calls, each with the scopes of the calls
before it. -/
theorem mem_definitions {calls : List ScopeCall} {definition : Occurrence} :
    definition ∈ (of calls).definitions ↔
      ∃ moment call, calls[moment]? = some call ∧ call.definition? = some definition.symbol ∧
        definition.scopes = (of (calls.take moment)).scopes := by
  obtain ⟨scopes, symbol⟩ := definition
  induction calls using List.reverseRecOn with
  | nil => simp [of]
  | append_singleton earlier last ih =>
      simp only [of_append_singleton, next]
      simp only [List.mem_append, ih, Option.mem_toList, Option.map_eq_some_iff,
        Occurrence.mk.injEq]
      constructor
      · rintro (⟨moment, call, there, defines, around⟩ | ⟨_, defines, around, rfl⟩)
        · have before := (List.getElem?_eq_some_iff.mp there).1
          refine ⟨moment, call, ?_, defines, ?_⟩
          · rwa [List.getElem?_append_left before]
          · rwa [List.take_append_of_le_length (Nat.le_of_lt before)]
        · exact ⟨earlier.length, last, List.getElem?_concat_length, defines,
            by rw [List.take_left, ← around]⟩
      · rintro ⟨moment, call, there, defines, around⟩
        rcases Nat.lt_trichotomy moment earlier.length with before | rfl | after
        · rw [List.getElem?_append_left before] at there
          rw [List.take_append_of_le_length (Nat.le_of_lt before)] at around
          exact .inl ⟨moment, call, there, defines, around⟩
        · rw [List.getElem?_concat_length] at there
          rw [List.take_left] at around
          cases there
          exact .inr ⟨symbol, defines, around.symm, rfl⟩
        · rw [List.getElem?_eq_none (by rwa [List.length_append, List.length_singleton])] at there
          cases there

/-- No definition was made in the scope of a call that is still to come. -/
theorem unvisited_position (calls : List ScopeCall) :
    Unvisited [(of calls).position] ((of calls).definitions.flatMap Occurrence.scopes) := by
  intro placed inside within
  obtain ⟨definition, member, inside⟩ := List.mem_flatMap.mp inside
  obtain ⟨moment, call, there, -, around⟩ := mem_definitions.mp member
  rw [around, mem_scopes] at inside
  obtain ⟨position, place, isOpen⟩ := inside
  have earlier : position < calls.length :=
    Nat.lt_of_lt_of_le isOpen.lt_length (List.length_take_le' moment calls)
  have same : position = calls.length := by simpa [place, eq_comm] using within
  exact Nat.ne_of_lt earlier same

end ScopeRecord

/-! ## Which scopes a lookup meets -/

/-- In scopes of which each was pushed after those around it, the first one that passes a test is
the last one that was pushed. -/
theorem find?_eq_some_iff_latest {scopes : List PlacedScope}
    (ordered : scopes.Pairwise fun inner outer => outer.position < inner.position)
    {test : PlacedScope → Bool} {placed : PlacedScope} :
    scopes.find? test = some placed ↔
      placed ∈ scopes ∧ test placed = true ∧
        ∀ other ∈ scopes, test other = true → other.position ≤ placed.position := by
  induction scopes with
  | nil => simp
  | cons first rest ih =>
      obtain ⟨before, ordered⟩ := List.pairwise_cons.mp ordered
      cases passes : test first with
      | true =>
          simp only [List.find?_cons, passes, Option.some.injEq]
          constructor
          · rintro rfl
            refine ⟨List.mem_cons_self, passes, fun other member _ => ?_⟩
            rcases List.mem_cons.mp member with rfl | member
            · exact Nat.le_refl _
            · exact Nat.le_of_lt (before other member)
          · rintro ⟨member, -, latest⟩
            rcases List.mem_cons.mp member with rfl | member
            · rfl
            · exact absurd (before placed member)
                (Nat.not_lt.mpr (latest first List.mem_cons_self passes))
      | false =>
          have notFirst {other : PlacedScope} (passesToo : test other = true) : other ≠ first := by
            rintro rfl
            rw [passes] at passesToo
            cases passesToo
          simp only [List.find?_cons, passes, ih ordered, List.mem_cons]
          constructor
          · rintro ⟨member, passesToo, latest⟩
            refine ⟨.inr member, passesToo, fun other there passesToo => ?_⟩
            exact latest other (there.resolve_left (notFirst passesToo)) passesToo
          · rintro ⟨member, passesToo, latest⟩
            exact ⟨member.resolve_left (notFirst passesToo), passesToo,
              fun other there => latest other (.inr there)⟩

/-- A lookup of labels meets the scopes from the innermost function on. -/
theorem mem_withinFunction {scopes : List PlacedScope}
    (ordered : scopes.Pairwise fun inner outer => outer.position < inner.position)
    {placed : PlacedScope} :
    placed ∈ withinFunction scopes ↔
      placed ∈ scopes ∧
        ∀ function, scopes.find? PlacedScope.isFunction = some function →
          function.position ≤ placed.position := by
  induction scopes with
  | nil => simp [withinFunction]
  | cons first rest ih =>
      obtain ⟨before, ordered⟩ := List.pairwise_cons.mp ordered
      cases isFunction : first.isFunction with
      | true =>
          simp only [withinFunction, isFunction, if_true, List.mem_singleton, List.find?_cons,
            Option.some.injEq, forall_eq']
          constructor
          · rintro rfl
            exact ⟨List.mem_cons_self, Nat.le_refl _⟩
          · rintro ⟨member, inside⟩
            rcases List.mem_cons.mp member with same | member
            · exact same
            · exact absurd (before placed member) (Nat.not_lt.mpr inside)
      | false =>
          simp only [withinFunction, isFunction, Bool.false_eq_true, if_false, List.find?_cons,
            List.mem_cons, ih ordered, or_and_right]
          refine or_congr_left (iff_self_and.mpr ?_)
          rintro rfl function found
          exact Nat.le_of_lt (before function (List.mem_of_find?_eq_some found))

namespace ScopeRecord

variable {calls : List ScopeCall}

/-- The first scope in the record that passes a test is the last open one that does. -/
theorem find?_scopes {test : PlacedScope → Bool} {placed : PlacedScope} :
    (of calls).scopes.find? test = some placed ↔
      ∃ position, placed.place = [position] ∧ IsOpen calls position placed.scope ∧
        test placed = true ∧ ∀ other scope, IsOpen calls other scope →
          test ⟨[other], scope⟩ = true → other ≤ position := by
  rw [find?_eq_some_iff_latest (pairwise_scopes calls), mem_scopes]
  constructor
  · rintro ⟨⟨position, place, isOpen⟩, passes, latest⟩
    refine ⟨position, place, isOpen, passes, fun other scope otherOpen passesToo => ?_⟩
    have notAfter := latest ⟨[other], scope⟩ (mk_mem_scopes.mpr otherOpen) passesToo
    rwa [PlacedScope.position_eq place, PlacedScope.position_eq rfl] at notAfter
  · rintro ⟨position, place, isOpen, passes, latest⟩
    refine ⟨⟨position, place, isOpen⟩, passes, fun other member passesToo => ?_⟩
    obtain ⟨otherPosition, otherPlace, otherOpen⟩ := mem_scopes.mp member
    rw [PlacedScope.position_eq place, PlacedScope.position_eq otherPlace]
    refine latest otherPosition other.scope otherOpen ?_
    rwa [← otherPlace]

theorem head?_scopes {placed : PlacedScope} :
    (of calls).scopes.head? = some placed ↔
      ∃ position, placed.place = [position] ∧ IsTop calls position placed.scope := by
  have asSearch : (of calls).scopes.head? = (of calls).scopes.find? fun _ => true := by
    cases (of calls).scopes <;> rfl
  simp only [asSearch, find?_scopes, IsTop, true_and, forall_const]

theorem head?_scopes_eq_mk {position : Nat} {scope : Scope} :
    (of calls).scopes.head? = some ⟨[position], scope⟩ ↔ IsTop calls position scope := by
  simp [head?_scopes]

theorem innermostFunction_scopes {placed : PlacedScope} :
    (of calls).scopes.find? PlacedScope.isFunction = some placed ↔
      ∃ position name, placed = ⟨[position], .function name⟩ ∧
        IsInnermostFunction calls position name := by
  obtain ⟨place, scope⟩ := placed
  rw [find?_scopes]
  cases scope with
  | label => simp [PlacedScope.isFunction]
  | function name =>
      constructor
      · rintro ⟨position, rfl, isOpen, -, latest⟩
        exact ⟨position, name, rfl, isOpen, fun other otherName otherOpen =>
          latest other _ otherOpen rfl⟩
      · rintro ⟨position, name, same, isOpen, latest⟩
        cases same
        refine ⟨position, rfl, isOpen, rfl, fun other scope otherOpen isFunction => ?_⟩
        cases scope with
        | label => cases isFunction
        | function otherName => exact latest other otherName otherOpen

theorem innermostFunction_scopes_eq_mk {position : Nat} {name : String} :
    (of calls).scopes.find? PlacedScope.isFunction = some ⟨[position], .function name⟩ ↔
      IsInnermostFunction calls position name := by
  simp [innermostFunction_scopes]

/-- Definitions of a name in scopes with some property, and the calls that make them. -/
theorem exists_definition (calls : List ScopeCall) {call : ScopeCall} {space : Namespace}
    {name : String}
    (defines : ∀ other : ScopeCall,
      (∃ symbol, other.definition? = some symbol ∧ symbol.Declares space name) ↔ other = call)
    (around : List PlacedScope → Prop) :
    (∃ definition ∈ (of calls).definitions, definition.symbol.Declares space name ∧
        around definition.scopes) ↔
      ∃ moment, calls[moment]? = some call ∧ around (of (calls.take moment)).scopes := by
  constructor
  · rintro ⟨definition, member, declares, inside⟩
    obtain ⟨moment, other, there, found, scopes⟩ := mem_definitions.mp member
    rw [(defines other).mp ⟨_, found, declares⟩] at there
    exact ⟨moment, there, scopes ▸ inside⟩
  · rintro ⟨moment, there, inside⟩
    obtain ⟨symbol, found, declares⟩ := (defines call).mpr rfl
    exact ⟨⟨_, symbol⟩, mem_definitions.mpr ⟨moment, call, there, found, rfl⟩, declares, inside⟩

end ScopeRecord

/-! ## The stack -/

/-- **A stack is a function of its history.** -/
theorem afterCalls_eq_stackAfter (calls : List ScopeCall) :
    ScopeStack.empty.afterCalls calls =
      stackAfter (ScopeRecord.of calls).definitions (ScopeRecord.of calls).scopes := by
  induction calls using List.reverseRecOn with
  | nil => rfl
  | append_singleton earlier call ih =>
      have oneMore : ScopeStack.empty.afterCalls (earlier ++ [call]) =
          (ScopeStack.empty.afterCalls earlier).afterCall call :=
        ScopeStack.afterCalls_append _ earlier [call]
      have distinct := ScopeRecord.nodup_scopes earlier
      simp only [oneMore, ih, ScopeRecord.of_append_singleton, ScopeRecord.next]
      cases call with
      | push scope =>
          simpa [ScopeCall.definition?, ScopeStack.afterCall] using
            stackAfter_push (ScopeRecord.unvisited_position earlier) scope _
      | pop => simp [ScopeStack.afterCall, ScopeStack.pop, stackAfter, ScopeCall.definition?]
      | defineLocal name =>
          exact stackAfter_afterUse _ distinct (.declaring .localVariable name)
      | defineLabel name => exact stackAfter_afterUse _ distinct (.declaring .label name)

/-! ## What it answers -/

/-- A local that can be declared has a function to land in. -/
theorem ScopeStack.function_of_defineLocal {stack : ScopeStack} {name : String}
    (declared : (stack.defineLocal name).1 = true) : stack.currentFunction.isSome = true := by
  obtain ⟨frames⟩ := stack
  rw [defineLocal_fst] at declared
  rw [currentFunction]
  induction frames with
  | nil => cases declared
  | cons frame rest ih =>
      obtain ⟨scope, locals, labels⟩ := frame
      cases scope with
      | function function => rfl
      | label => exact ih (by simpa [addLocal?, Frame.isFunction] using declared)

section Answers

variable (calls : List ScopeCall) (name : String)

theorem currentFunction_afterCalls :
    (ScopeStack.empty.afterCalls calls).currentFunction = some name ↔
      ∃ position, IsInnermostFunction calls position name := by
  rw [afterCalls_eq_stackAfter, ScopeStack.currentFunction, stackAfter, innermostFunction_map,
    Option.bind_eq_some_iff]
  simp only [ScopeRecord.innermostFunction_scopes]
  constructor
  · rintro ⟨_, ⟨position, function, rfl, innermost⟩, same⟩
    cases same
    exact ⟨position, innermost⟩
  · rintro ⟨position, innermost⟩
    exact ⟨⟨[position], .function name⟩, ⟨position, name, rfl, innermost⟩, rfl⟩

/-- Of open functions one is the innermost. -/
theorem exists_innermostFunction {calls : List ScopeCall} {position : Nat} {name : String}
    (isOpen : IsOpen calls position (.function name)) :
    ∃ position name, IsInnermostFunction calls position name := by
  have found : ((ScopeRecord.of calls).scopes.find? PlacedScope.isFunction).isSome = true :=
    List.find?_isSome.mpr ⟨_, ScopeRecord.mk_mem_scopes.mpr isOpen, rfl⟩
  obtain ⟨placed, found⟩ := Option.isSome_iff_exists.mp found
  obtain ⟨position, name, -, innermost⟩ := ScopeRecord.innermostFunction_scopes.mp found
  exact ⟨position, name, innermost⟩

theorem currentFunction_afterCalls_eq_none :
    (ScopeStack.empty.afterCalls calls).currentFunction = none ↔
      ∀ position name, ¬ IsOpen calls position (.function name) := by
  rw [Option.eq_none_iff_forall_not_mem]
  constructor
  · intro none position name isOpen
    obtain ⟨innermost, function, isInnermost⟩ := exists_innermostFunction isOpen
    exact none function ((currentFunction_afterCalls calls function).mpr ⟨innermost, isInnermost⟩)
  · intro none name found
    obtain ⟨position, innermost⟩ := (currentFunction_afterCalls calls name).mp found
    exact none position name innermost.1

theorem hasLocal_afterCalls :
    (ScopeStack.empty.afterCalls calls).hasLocal name = true ↔
      ∃ position function, IsInnermostFunction calls position function ∧
        ∃ moment, calls[moment]? = some (.defineLocal name) ∧
          IsInnermostFunction (calls.take moment) position function := by
  rw [afterCalls_eq_stackAfter]
  refine (hasLocal_stackAfter (ScopeRecord.of calls).definitions
    ⟨(ScopeRecord.of calls).scopes, .referring .localVariable name⟩).trans ?_
  have made (function? : Option PlacedScope) :=
    ScopeRecord.exists_definition calls (ScopeCall.definesLocal_iff name)
      fun scopes => scopes.find? PlacedScope.isFunction = function?
  constructor
  · rintro ⟨within, defined⟩
    obtain ⟨placed, nearest⟩ := Option.isSome_iff_exists.mp within
    obtain ⟨position, function, rfl, innermost⟩ :=
      ScopeRecord.innermostFunction_scopes.mp nearest
    rw [nearest] at defined
    obtain ⟨moment, there, same⟩ := (made _).mp defined
    exact ⟨position, function, innermost, moment, there,
      ScopeRecord.innermostFunction_scopes_eq_mk.mp same⟩
  · rintro ⟨position, function, innermost, moment, there, same⟩
    have nearest := ScopeRecord.innermostFunction_scopes_eq_mk.mpr innermost
    refine ⟨Option.isSome_iff_exists.mpr ⟨_, nearest⟩, (made _).mpr ⟨moment, there, ?_⟩⟩
    exact (ScopeRecord.innermostFunction_scopes_eq_mk.mpr same).trans nearest.symm

theorem hasLabel_afterCalls :
    (ScopeStack.empty.afterCalls calls).hasLabel name = true ↔
      ∃ position scope, IsOpen calls position scope ∧
        (∀ limit function, IsInnermostFunction calls limit function →
          limit ≤ position) ∧
        ∃ moment, calls[moment]? = some (.defineLabel name) ∧
          IsTop (calls.take moment) position scope := by
  rw [afterCalls_eq_stackAfter]
  refine (hasLabel_stackAfter (ScopeRecord.of calls).definitions
    ⟨(ScopeRecord.of calls).scopes, .referring .label name⟩).trans ?_
  have made (placed : PlacedScope) :=
    ScopeRecord.exists_definition calls (ScopeCall.definesLabel_iff name)
      fun scopes => scopes.head? = some placed
  simp only [Occurrence.LabelDeclared, mem_withinFunction (ScopeRecord.pairwise_scopes calls)]
  constructor
  · rintro ⟨⟨place, scope⟩, ⟨member, inside⟩, defined⟩
    obtain ⟨position, rfl, isOpen⟩ := ScopeRecord.mem_scopes.mp member
    obtain ⟨moment, there, top⟩ := (made _).mp defined
    refine ⟨position, scope, isOpen, fun limit function innermost => ?_, moment, there,
      ScopeRecord.head?_scopes_eq_mk.mp top⟩
    exact inside _ (ScopeRecord.innermostFunction_scopes_eq_mk.mpr innermost)
  · rintro ⟨position, scope, isOpen, inside, moment, there, top⟩
    refine ⟨⟨[position], scope⟩, ⟨ScopeRecord.mk_mem_scopes.mpr isOpen, fun placed nearest => ?_⟩,
      (made _).mpr ⟨moment, there, ScopeRecord.head?_scopes_eq_mk.mpr top⟩⟩
    obtain ⟨limit, function, rfl, innermost⟩ :=
      ScopeRecord.innermostFunction_scopes.mp nearest
    exact inside limit function innermost

theorem defineLocal_afterCalls :
    ((ScopeStack.empty.afterCalls calls).defineLocal name).1 = true ↔
      (∃ position function, IsInnermostFunction calls position function) ∧
        (ScopeStack.empty.afterCalls calls).hasLocal name = false := by
  have function_iff : (ScopeStack.empty.afterCalls calls).currentFunction.isSome = true ↔
      ∃ position function, IsInnermostFunction calls position function := by
    simp only [Option.isSome_iff_exists, currentFunction_afterCalls]
    exact exists_comm
  rw [← function_iff, ← ScopeStack.refused_local_iff]
  constructor
  · intro declared
    exact ⟨ScopeStack.function_of_defineLocal declared, by simp [declared]⟩
  · rintro ⟨inFunction, notRefused⟩
    simpa [inFunction] using notRefused

theorem defineLabel_afterCalls :
    ((ScopeStack.empty.afterCalls calls).defineLabel name).1 = true ↔
      ∃ position scope, IsTop calls position scope ∧
        ¬ ∃ moment, calls[moment]? = some (.defineLabel name) ∧
          IsTop (calls.take moment) position scope := by
  have made (placed : PlacedScope) :=
    ScopeRecord.exists_definition calls (ScopeCall.definesLabel_iff name)
      fun scopes => scopes.head? = some placed
  have lands : ((ScopeStack.empty.afterCalls calls).defineLabel name).1 = true ↔
      ∃ placed, (ScopeRecord.of calls).scopes.head? = some placed ∧
        name ∉ (Frame.ofHistory (ScopeRecord.of calls).definitions placed).labels := by
    rw [afterCalls_eq_stackAfter, stackAfter, ScopeStack.defineLabel]
    cases (ScopeRecord.of calls).scopes with
    | nil => simp [ScopeStack.addLabel?]
    | cons first rest =>
        by_cases known :
            name ∈ (Frame.ofHistory (ScopeRecord.of calls).definitions first).labels <;>
          simp [ScopeStack.addLabel?, known]
  rw [lands]
  constructor
  · rintro ⟨⟨place, scope⟩, top, unknown⟩
    obtain ⟨position, rfl, isTop⟩ := ScopeRecord.head?_scopes.mp top
    refine ⟨position, scope, isTop, ?_⟩
    rintro ⟨moment, there, before⟩
    exact unknown (Frame.mem_labels.mpr
      ((made _).mpr ⟨moment, there, ScopeRecord.head?_scopes_eq_mk.mpr before⟩))
  · rintro ⟨position, scope, isTop, unknown⟩
    refine ⟨⟨[position], scope⟩, ScopeRecord.head?_scopes_eq_mk.mpr isTop, fun known => ?_⟩
    obtain ⟨moment, there, before⟩ := (made _).mp (Frame.mem_labels.mp known)
    exact unknown ⟨moment, there, ScopeRecord.head?_scopes_eq_mk.mp before⟩

end Answers

/-- **A stack of scopes answers by its history.** -/
theorem answersByHistory (calls : List ScopeCall) :
    AnswersByHistory calls (ScopeStack.empty.afterCalls calls) where
  currentFunction := currentFunction_afterCalls calls
  hasLocal := hasLocal_afterCalls calls
  hasLabel := hasLabel_afterCalls calls
  defineLocal := defineLocal_afterCalls calls
  defineLabel := defineLabel_afterCalls calls

/-- A function of the same name is another function. -/
example : (ScopeStack.empty.afterCalls
    [.push (.function "f"), .defineLocal "x", .push (.function "f")]).hasLocal "x" = false := by
  decide

end WasmWorkshop
