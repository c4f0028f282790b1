import WasmWorkshop.Proofs.Traversal

/-!
# The log of a session

What happens to the builder in the course of a session is a list of events, in the order in which
they happen (`Action.log`): calls for the module, the return of its body, nodes that are added,
stretches of the data region, and questions. The log says when a body runs: what its parts do stands
between the call for the module and its return, and nothing stands in its place where the call is
ignored.

The session is nothing but its log (`Records`, `records_performAll`). Replaying the events from the
state at the start gives the state at the end, with all answers. Every event fits where it stands
(`Event.Fits`): a body runs only before there is a module, only a body that runs returns, and an
answer tells what the builder is like at the time. Lastly, a whole part of a session leaves the
phase as it was, or takes an unopened builder to a closed one.
-/

set_option autoImplicit false

namespace WasmWorkshop.Session

/-! ## Events -/

/-- Something that happens in a session. -/
inductive Event where
  /-- A call for the module, whose body runs or is ignored. -/
  | module (runs : Bool)
  /-- The body of the module returns. -/
  | close (body : List Node)
  /-- A top-level node is added. -/
  | emit (node : Node)
  /-- A literal or a reservation asks for a stretch of the data region. -/
  | register (length : Nat)
  /-- The session looks at the builder. -/
  | ask (question : ModuleBuilder → Answer)

/-- The session after an event. -/
def Event.apply (state : State) : Event → State
  | .module true => state.change (·.openModule)
  | .module false => state
  | .close body => state.change (·.closeModule body)
  | .emit node => state.change (·.append node)
  | .register length => state.change (·.reserve length)
  | .ask question => state.answer question

/-- The session after some events. -/
def replay (state : State) (events : List Event) : State := events.foldl Event.apply state

@[simp] theorem replay_nil (state : State) : replay state [] = state := rfl

@[simp] theorem replay_cons (state : State) (event : Event) (rest : List Event) :
    replay state (event :: rest) = replay (event.apply state) rest := rfl

theorem replay_append (state : State) (first second : List Event) :
    replay state (first ++ second) = replay (replay state first) second :=
  List.foldl_append

/-- An answer that tells what the builder is like. -/
def Answer.TellsOf (builder : ModuleBuilder) : Answer → Prop
  | .module _ now count size =>
    now = builder.phase ∧ count = builder.items.length ∧ size = builder.allocation
  | .emit count size => count = builder.items.length ∧ size = builder.allocation
  | .build _ size => size = builder.allocation
  | .reserve _ size overflowed =>
    size = builder.allocation ∧ overflowed = builder.layout.overflowed
  | .render text => text = builder.render
  | .check verdict => verdict = builder.check
  | .finish outcome => outcome = builder.finish
  | .phase now => now = builder.phase
  | .allocation size => size = builder.allocation
  | .location place => place = builder.location
  | .indentWidth width => width = builder.options.indentWidth
  | .items nodes => nodes = builder.items.map fun node => (node.head?, node.groupCount)
  | .run _ => True

/-- An event that may happen now: a body runs exactly before there is a module, only the body that
is running returns, and a question is answered by what the builder is like. -/
def Event.Fits (state : State) : Event → Prop
  | .module runs => runs = true ↔ state.builder.phase = .unopened
  | .close _ => state.builder.phase = .building
  | .emit _ => True
  | .register _ => True
  | .ask question => (question state.builder).TellsOf state.builder

/-- Events each of which may happen after those before it. -/
def AllFit (state : State) : List Event → Prop
  | [] => True
  | event :: rest => event.Fits state ∧ AllFit (event.apply state) rest

theorem allFit_append (state : State) (first second : List Event) :
    AllFit state (first ++ second) ↔ AllFit state first ∧ AllFit (replay state first) second := by
  induction first generalizing state with
  | nil => simp [AllFit]
  | cons event rest ih => simp [AllFit, ih, and_assoc]

/-! ## The log -/

/-- The session after a program. -/
def stateAfter {α : Type} (program : SessionM α) (state : State) : State := (program.run state).2

mutual

/-- What happens while an expression is made: its parts are made one after another, and then a
literal is placed. -/
def Expression.log (state : State) : Expression → List Event
  | .binary _ left right | .store _ _ left right =>
    left.log state ++ right.log (stateAfter left.make state)
  | .unary _ operand | .convert _ _ operand | .setVariable _ _ operand | .load _ _ operand
  | .memoryGrow operand | .breakIf _ operand | .returnValue operand | .drop operand
  | .elements operand _ | .withSymbol operand _ | .withScope operand _ => operand.log state
  | .constant _ _ | .declareLocal _ _ | .getVariable _ _ | .memorySize | .breakTo _
  | .returnVoid | .importFunction _ _ _ _ | .table _ _ _ | .start _ | .rawLeaf _
  | .rawForm _ => []
  | .declareGlobal _ _ _ initial => Expression.logOptional state initial
  | .string text => [.register (terminated text).length]
  | .data bytes => [.register bytes.length]
  | .allocate body | .block _ body | .call _ body | .function _ _ body | .rawGroup _ body
  | .rawFragment body => Item.logAll state body
  | .ifThen _ condition consequent alternative =>
    condition.log state ++
      (Item.logAll (stateAfter condition.make state) consequent ++
        Item.logOptional
          (stateAfter (Item.makeAll consequent) (stateAfter condition.make state)) alternative)
  | .loopWhile _ condition body =>
    condition.log state ++ Item.logAll (stateAfter condition.make state) body
  | .select first second condition =>
    first.log state ++
      (second.log (stateAfter first.make state) ++
        condition.log (stateAfter second.make (stateAfter first.make state)))

/-- What happens while an expression is made that may be missing. -/
def Expression.logOptional (state : State) : Option Expression → List Event
  | none => []
  | some expression => expression.log state

/-- What happens in a body. -/
def Item.logAll (state : State) : List Item → List Event
  | [] => []
  | .expression expression :: rest =>
    expression.log state ++ Item.logAll (stateAfter expression.make state) rest
  | .action action :: rest =>
    action.log state ++ Item.logAll (stateAfter action.perform state) rest

/-- What happens in a body that may be missing. -/
def Item.logOptional (state : State) : Option (List Item) → List Event
  | none => []
  | some body => Item.logAll state body

/-- What happens while an action is performed. -/
def Action.log (state : State) : Action → List Event
  | .module body =>
    if state.builder.phase = .unopened then
      .module true ::
        (Item.logAll (state.change (·.openModule)) body ++
          [.close ((Item.makeAll body).run (state.change (·.openModule))).1,
            .ask fun builder =>
              .module true builder.phase builder.items.length builder.allocation])
    else
      [.module false,
        .ask fun builder => .module false builder.phase builder.items.length builder.allocation]
  | .emit node =>
    node.log state ++
      [.emit (node.make.run state).1,
        .ask fun builder => .emit builder.items.length builder.allocation]
  | .build node =>
    node.log state ++
      [.ask fun builder => .build (node.make.run state).1.head? builder.allocation]
  | .reserve length =>
    [.register length,
      .ask fun builder =>
        .reserve state.builder.allocation builder.allocation builder.layout.overflowed]
  | .render => [.ask fun builder => .render builder.render]
  | .check => [.ask fun builder => .check builder.check]
  | .finish => [.ask fun builder => .finish builder.finish]
  | .phase => [.ask fun builder => .phase builder.phase]
  | .allocation => [.ask fun builder => .allocation builder.allocation]
  | .location => [.ask fun builder => .location builder.location]
  | .indentWidth => [.ask fun builder => .indentWidth builder.options.indentWidth]
  | .items =>
    [.ask fun builder =>
      .items (builder.items.map fun node => (node.head?, node.groupCount))]
  | .run toolchain directories =>
    [.ask fun builder => .run (Handoff.rehearseRun builder toolchain directories)]

end

/-- What happens in a whole session. -/
def Action.logAll (state : State) : List Action → List Event
  | [] => []
  | action :: rest => action.log state ++ Action.logAll (stateAfter action.perform state) rest

/-! ## A program and its events -/

/-- The program does these events to the session, and nothing else. -/
structure Records {α : Type} (program : SessionM α) (state : State) (events : List Event) :
    Prop where
  replays : stateAfter program state = replay state events
  fits : AllFit state events
  /-- The module is not left open: what is opened is closed. -/
  returns : (stateAfter program state).builder.phase = state.builder.phase ∨
    state.builder.phase = .unopened ∧ (stateAfter program state).builder.phase = .closed

namespace Records

variable {α β : Type} {state : State}

theorem pure (value : α) : Records (pure value) state [] := ⟨rfl, trivial, .inl rfl⟩

theorem bind {program : SessionM α} {next : α → SessionM β} {events more : List Event}
    (first : Records program state events)
    (rest : Records (next (program.run state).1) (stateAfter program state) more) :
    Records (program >>= next) state (events ++ more) := by
  have composed : stateAfter (program >>= next) state =
      stateAfter (next (program.run state).1) (stateAfter program state) := rfl
  refine ⟨?_, ?_, ?_⟩
  · rw [composed, rest.replays, first.replays, replay_append]
  · rw [allFit_append, ← first.replays]
    exact ⟨first.fits, rest.fits⟩
  · rw [composed]
    rcases first.returns with same | ⟨unopened, closed⟩
    · rw [← same]
      exact rest.returns
    · rcases rest.returns with still | ⟨reopened, -⟩
      · exact .inr ⟨unopened, still.trans closed⟩
      · rw [closed] at reopened
        cases reopened

/-- What comes after the program does nothing to the session. -/
theorem andThen {program : SessionM α} {next : α → SessionM β} {events : List Event}
    (first : Records program state events)
    (rest : ∀ value, Records (next value) (stateAfter program state) []) :
    Records (program >>= next) state events := by
  have both := first.bind (rest _)
  rwa [List.append_nil] at both

theorem yield {program : SessionM α} {events : List Event} (first : Records program state events)
    (result : α → β) : Records (program >>= fun value => Pure.pure (result value)) state events :=
  first.andThen fun _ => pure _

theorem reply {question : ModuleBuilder → Answer}
    (tells : ∀ builder, (question builder).TellsOf builder) :
    Records (Session.reply question) state [.ask question] :=
  ⟨rfl, ⟨tells _, trivial⟩, .inl rfl⟩

theorem placeLiteral (bytes : List UInt8) :
    Records (Session.placeLiteral bytes) state [.register bytes.length] :=
  ⟨rfl, ⟨trivial, trivial⟩, .inl rfl⟩

theorem emit {program : SessionM Node} {events : List Event}
    (first : Records program state events) {question : ModuleBuilder → Answer}
    (tells : ∀ builder, (question builder).TellsOf builder) :
    Records (do
        let node ← program
        modify (·.change (·.append node))
        Session.reply question) state
      (events ++ [.emit (program.run state).1, .ask question]) :=
  first.bind ⟨rfl, ⟨trivial, tells _, trivial⟩, .inl rfl⟩

/-- The module, from what happens in its body. Inside of the body the builder is open, so it is
still open when the body returns. -/
theorem module {body : List Item} {events : List Event}
    (unopened : state.builder.phase = .unopened)
    (inside : Records (Item.makeAll body) (state.change (·.openModule)) events) :
    Records (Action.module body).perform state
      (.module true :: (events ++
        [.close ((Item.makeAll body).run (state.change (·.openModule))).1,
          .ask fun builder =>
            .module true builder.phase builder.items.length builder.allocation])) := by
  have stillOpen : (replay (state.change (·.openModule)) events).builder.phase = .building := by
    rw [← inside.replays]
    rcases inside.returns with same | ⟨closed, -⟩
    · exact same
    · cases closed
  have program : stateAfter (Action.module body).perform state =
      ((stateAfter (Item.makeAll body) (state.change (·.openModule))).change
        (·.closeModule ((Item.makeAll body).run (state.change (·.openModule))).1)).answer
          fun builder => .module true builder.phase builder.items.length builder.allocation := by
    rw [Action.perform]
    change stateAfter (if state.builder.phase = .unopened then _ else _) state = _
    rw [if_pos unopened]
    rfl
  refine ⟨?_, ⟨by simp [Event.Fits, unopened], ?_⟩, .inr ⟨unopened, ?_⟩⟩
  · rw [program, inside.replays, replay_cons, replay_append]
    rfl
  · rw [allFit_append]
    exact ⟨inside.fits, stillOpen, ⟨rfl, rfl, rfl⟩, trivial⟩
  · rw [program]
    rfl

/-- A call for the module once there is one, or while its body runs. -/
theorem ignored (body : List Item) (notUnopened : state.builder.phase ≠ .unopened) :
    Records (Action.module body).perform state
      [.module false,
        .ask fun builder =>
          .module false builder.phase builder.items.length builder.allocation] := by
  have program : stateAfter (Action.module body).perform state = state.answer fun builder =>
      .module false builder.phase builder.items.length builder.allocation := by
    rw [Action.perform]
    change stateAfter (if state.builder.phase = .unopened then _ else _) state = _
    rw [if_neg notUnopened]
    rfl
  refine ⟨program, ⟨by simp [Event.Fits, notUnopened], ⟨rfl, rfl, rfl⟩, trivial⟩, .inl ?_⟩
  rw [program]
  rfl

end Records

/-! ## The log of a recipe -/

/-- What happens while a recipe is followed. -/
def Recipe.log (state : State) : Recipe → List Event
  | .node _ => []
  | .operand expression next =>
    expression.log state ++
      Recipe.log (stateAfter expression.make state) (next (expression.make.run state).1)
  | .body items next =>
    Item.logAll state items ++
      Recipe.log (stateAfter (Item.makeAll items) state) (next ((Item.makeAll items).run state).1)
  | .literal bytes => [.register bytes.length]
  | .memory items => Item.logAll state items

/-- The log of an expression is that of its recipe. -/
theorem Expression.log_eq_recipe (expression : Expression) (state : State) :
    expression.log state = expression.recipe.log state := by
  cases expression with
  | declareGlobal isMutable name type initial =>
      cases initial <;> simp [Expression.log, Expression.logOptional, recipe, Recipe.log,
        Recipe.ofOperand]
  | ifThen result condition consequent alternative =>
      cases alternative <;> simp [Expression.log, Item.logOptional, recipe, Recipe.log,
        Recipe.ofBody]
  | _ => simp [Expression.log, recipe, Recipe.log, Recipe.ofOperand, Recipe.ofBody]

/-- Following a recipe is what its log says, if making its parts is. -/
theorem Records.ofRecipe {recipe : Recipe}
    (each : recipe.Each
      (fun expression => ∀ state, Records expression.make state (expression.log state))
      (fun body => ∀ state, Records (Item.makeAll body) state (Item.logAll state body)))
    (state : State) : Records recipe.make state (recipe.log state) := by
  induction recipe generalizing state with
  | node result => exact .pure result
  | operand expression next ih =>
      obtain ⟨first, rest⟩ := each
      exact (first state).bind (ih _ (rest _) _)
  | body items next ih =>
      obtain ⟨first, rest⟩ := each
      exact (first state).bind (ih _ (rest _) _)
  | literal bytes => exact .placeLiteral bytes
  | memory items => exact (each state).andThen fun _ => ⟨rfl, trivial, .inl rfl⟩

/-- That doing something is what its log says, is inherited. -/
theorem inherited_records : Inherited
    (fun expression => ∀ state, Records expression.make state (expression.log state))
    (fun body => ∀ state, Records (Item.makeAll body) state (Item.logAll state body))
    (fun action => ∀ state, Records action.perform state (action.log state)) where
  expression expression each state := by
    rw [expression.make_eq_recipe, expression.log_eq_recipe]
    exact .ofRecipe each state
  nil _ := .pure []
  expressionItem _ _ first rest state := (first state).bind ((rest _).yield _)
  actionItem _ _ first rest state := (first state).bind (rest _)
  action
    | .module body, inside, state => by
        by_cases unopened : state.builder.phase = .unopened
        · rw [Action.log, if_pos unopened]
          exact (inside _).module unopened
        · rw [Action.log, if_neg unopened]
          exact .ignored body unopened
    | .emit _, made, state => (made state).emit fun _ => ⟨rfl, rfl⟩
    | .build _, made, state => (made state).bind (.reply fun _ => rfl)
    | .reserve _, _, _ => ⟨rfl, ⟨trivial, ⟨rfl, rfl⟩, trivial⟩, .inl rfl⟩
    | .render, _, _ | .check, _, _ | .finish, _, _ | .phase, _, _ | .allocation, _, _
    | .location, _, _ | .indentWidth, _, _ | .items, _, _ => .reply fun _ => rfl
    | .run _ _, _, _ => .reply fun _ => trivial

/-- **Making an expression is what its log says.** -/
theorem records_expression (state : State) (expression : Expression) :
    Records expression.make state (expression.log state) :=
  inherited_records.ofExpression expression state

/-- **What a body does is what its log says.** -/
theorem records_body (state : State) (body : List Item) :
    Records (Item.makeAll body) state (Item.logAll state body) :=
  inherited_records.ofBody body state

/-- **What an action does is what its log says.** -/
theorem records_action (state : State) (action : Action) :
    Records action.perform state (action.log state) :=
  inherited_records.ofAction action state

/-- **What a session does is what its log says.** -/
theorem records_performAll (state : State) (actions : List Action) :
    Records (performAll actions) state (Action.logAll state actions) := by
  induction actions generalizing state with
  | nil => exact .pure ()
  | cons action rest ih => exact (records_action state action).bind (ih _)

end WasmWorkshop.Session
