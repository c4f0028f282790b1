import WasmWorkshop.Proofs.ScopeBlocks

/-!
# A walk changes two frames at most

The second reading of the symbol check walks through a tree with a stack of scopes, which may hold
anything when the walk begins. The walk closes the scopes that it opens and no other
(`popsOwn_trail`), so at its end the stack has the frames that it had. What it has added to them is
told by the tree alone: some of the symbols in the tree work outside of it (`Node.outward`), and the
stack after the walk is the one after just these (`afterAll_trail`). Nothing works outside of a
function, and only locals work outside of a block or a loop.

A use adds its name to the locals of the innermost function or to the labels of the frame on top,
and so do many uses one after another (`frames_afterUses`).
-/

set_option autoImplicit false

namespace WasmWorkshop

/-! ## What works outside of a tree -/

/-- A declaration of a local. -/
def SymbolUse.DeclaresLocal (symbol : SymbolUse) : Prop :=
  symbol.role = .declare ∧ symbol.space = .localVariable

instance (symbol : SymbolUse) : Decidable symbol.DeclaresLocal :=
  inferInstanceAs (Decidable (_ ∧ _))

/-- The symbols in a scope that work outside of it: none in a function, only the declarations of
locals in a block or a loop. -/
def Marks.outward (marks : Marks) (symbols : List SymbolUse) : List SymbolUse :=
  match marks.scope with
  | none => symbols
  | some .label => symbols.filter (·.DeclaresLocal)
  | some (.function _) => []

mutual

/-- The symbols in a tree that work outside of it, in pre-order. -/
def Node.outward : Node → List SymbolUse
  | .leaf _ marks | .form _ marks => marks.outward marks.symbols
  | .group _ children marks | .fragment children marks =>
      marks.outward (marks.symbols ++ Node.outwards children)

/-- The symbols in a list of trees that work outside of their trees. -/
def Node.outwards : List Node → List SymbolUse
  | [] => []
  | node :: rest => node.outward ++ Node.outwards rest

end

theorem Node.outward_eq (node : Node) :
    node.outward = node.marks.outward (node.marks.symbols ++ Node.outwards node.children) := by
  cases node <;> simp [Node.outward, Node.marks, Node.children, Node.outwards]

/-! ## Uses on top of a stack -/

namespace ScopeStack

/-- The open scopes after a sequence of uses. -/
def afterUses (stack : ScopeStack) (symbols : List SymbolUse) : ScopeStack :=
  symbols.foldl afterUse stack

theorem afterUses_append (stack : ScopeStack) (first second : List SymbolUse) :
    stack.afterUses (first ++ second) = (stack.afterUses first).afterUses second :=
  List.foldl_append

theorem afterAll_uses (stack : ScopeStack) (symbols : List SymbolUse) :
    stack.afterAll (symbols.map .use) = stack.afterUses symbols :=
  List.foldl_map

theorem scopes_afterUses (stack : ScopeStack) (symbols : List SymbolUse) :
    (stack.afterUses symbols).scopes = stack.scopes := by
  rw [← afterAll_uses]
  exact KeepsScopes.uses symbols stack

theorem currentFunction_eq (stack : ScopeStack) :
    stack.currentFunction = stack.scopes.findSome? fun scope =>
      match scope with
      | .function name => some name
      | .label => none := by
  obtain ⟨frames⟩ := stack
  rw [currentFunction, scopes]
  induction frames with
  | nil => rfl
  | cons frame rest ih =>
      obtain ⟨scope, locals, labels⟩ := frame
      cases scope with
      | function name => rfl
      | label => exact ih

theorem currentFunction_afterUse (stack : ScopeStack) (symbol : SymbolUse) :
    (stack.afterUse symbol).currentFunction = stack.currentFunction := by
  rw [currentFunction_eq, currentFunction_eq, scopes_afterUse]

theorem frames_ne_nil_of_scopes {stack other : ScopeStack} (same : other.scopes = stack.scopes)
    (held : stack.frames ≠ []) : other.frames ≠ [] := by
  intro nothing
  rw [scopes, nothing] at same
  exact held (List.map_eq_nil_iff.mp same.symm)

/-- A use on top of a stack reaches it only as the declaration of a local for which there is no
function on top. -/
theorem afterUse_onTop {inner : ScopeStack} (held : inner.frames ≠ []) (outer : ScopeStack)
    (symbol : SymbolUse) :
    (inner.onTop outer).afterUse symbol =
      (inner.afterUse symbol).onTop
        (if inner.currentFunction = none ∧ symbol.DeclaresLocal then outer.afterUse symbol
          else outer) := by
  obtain ⟨role, space, name, arity⟩ := symbol
  cases role with
  | reference => cases space <;> simp [afterUse, SymbolUse.DeclaresLocal]
  | declare =>
      cases space with
      | function | global | table => simp [afterUse, SymbolUse.DeclaresLocal]
      | label => simp [afterUse, SymbolUse.DeclaresLocal, defineLabel_onTop held]
      | localVariable =>
          by_cases outside : inner.currentFunction = none
          · simp [afterUse, SymbolUse.DeclaresLocal, defineLocal_onTop, outside,
              defineLocal_eq_self outside]
          · simp [afterUse, defineLocal_onTop, outside]

theorem afterUses_onTop {inner : ScopeStack} (held : inner.frames ≠ []) (outer : ScopeStack)
    (symbols : List SymbolUse) :
    (inner.onTop outer).afterUses symbols =
      (inner.afterUses symbols).onTop
        (outer.afterUses
          (if inner.currentFunction = none then symbols.filter (·.DeclaresLocal) else [])) := by
  induction symbols generalizing inner outer with
  | nil => simp [afterUses]
  | cons symbol rest ih =>
      have later := ih (frames_ne_nil_of_scopes (inner.scopes_afterUse symbol) held)
      rw [currentFunction_afterUse] at later
      change ((inner.onTop outer).afterUse symbol).afterUses rest =
        ((inner.afterUse symbol).afterUses rest).onTop _
      rw [afterUse_onTop held, later]
      congr 1
      by_cases outside : inner.currentFunction = none
      · by_cases isLocal : symbol.DeclaresLocal <;> simp [outside, isLocal, afterUses]
      · simp [outside]

/-- **A scope around uses is as good as those of them that work outside.** -/
theorem pop_afterUses_push (stack : ScopeStack) {marks : Marks} {scope : Scope}
    (opens : marks.scope = some scope) (symbols : List SymbolUse) :
    ((stack.push scope).afterUses symbols).pop = stack.afterUses (marks.outward symbols) := by
  -- The scope is a stack of its own, which lies on top of the others until it is popped.
  have held : (empty.push scope).frames ≠ [] := List.cons_ne_nil _ _
  have inside := (empty.push scope).scopes_afterUses symbols
  have heldAfter := frames_ne_nil_of_scopes inside held
  have closed : ((empty.push scope).afterUses symbols).pop = empty := by
    refine eq_empty_of_scopes ?_
    rw [scopes_pop, inside]
    rfl
  calc ((stack.push scope).afterUses symbols).pop
      = (((empty.push scope).onTop stack).afterUses symbols).pop := rfl
    _ = stack.afterUses _ := by
        rw [afterUses_onTop held, pop_onTop heldAfter, closed]
        rfl
    _ = stack.afterUses (marks.outward symbols) := by
        cases scope <;> simp [Marks.outward, opens, currentFunction, push, empty, innermostFunction]

end ScopeStack

/-- The walk of a node is that of its inside, as far as it works outside of the node. -/
theorem afterAll_enclose (stack : ScopeStack) (marks : Marks) {inner : List TrailStep}
    {symbols : List SymbolUse}
    (inside : ∀ stack : ScopeStack, stack.afterAll inner = stack.afterUses symbols) :
    stack.afterAll (marks.enclose inner) =
      stack.afterUses (marks.outward (marks.symbols ++ symbols)) := by
  have own (stack : ScopeStack) : stack.afterAll (marks.symbols.map .use ++ inner) =
      stack.afterUses (marks.symbols ++ symbols) := by
    rw [ScopeStack.afterAll_append, ScopeStack.afterAll_uses, inside, ScopeStack.afterUses_append]
  rw [Marks.enclose]
  cases opens : marks.scope with
  | none => simpa [Marks.outward, opens] using own stack
  | some scope =>
      change (stack.push scope).afterAll (marks.symbols.map .use ++ inner ++ [.leave]) = _
      rw [ScopeStack.afterAll_append, own, ← ScopeStack.pop_afterUses_push stack opens]
      rfl

mutual

/-- **A walk through a tree does what the symbols do that work outside of it.** -/
theorem afterAll_trail (stack : ScopeStack) : ∀ node : Node,
    stack.afterAll node.trail = stack.afterUses node.outward
  | .leaf _ marks | .form _ marks => by
      have nothing (stack : ScopeStack) : stack.afterAll [] = stack.afterUses [] := rfl
      have walk := afterAll_enclose stack marks nothing
      rwa [List.append_nil] at walk
  | .group _ children marks | .fragment children marks =>
      afterAll_enclose stack marks fun stack => afterAll_trails stack children

theorem afterAll_trails (stack : ScopeStack) : ∀ nodes : List Node,
    stack.afterAll (Node.trails nodes) = stack.afterUses (Node.outwards nodes)
  | [] => rfl
  | node :: rest => by
      rw [Node.trails_cons, ScopeStack.afterAll_append, afterAll_trail stack node,
        afterAll_trails _ rest, Node.outwards, ScopeStack.afterUses_append]

end

/-! ## The frames after uses -/

/-- The frame with names added to it. -/
def Frame.adding (locals labels : List String) (frame : Frame) : Frame :=
  { frame with locals := locals ∪ frame.locals, labels := labels ∪ frame.labels }

theorem Frame.adding_nil : Frame.adding [] [] = id := rfl

theorem Frame.adding_adding (frame : Frame) (locals moreLocals labels moreLabels : List String) :
    (frame.adding locals labels).adding moreLocals moreLabels =
      frame.adding (moreLocals ++ locals) (moreLabels ++ labels) := by
  simp only [Frame.adding, List.union_def, List.foldr_append]

namespace ScopeStack

/-- The place of the innermost function among the frames. It is behind all frames if there is no
function. -/
def functionPlace (stack : ScopeStack) : Nat := stack.frames.findIdx Frame.isFunction

theorem functionPlace_eq (stack : ScopeStack) :
    stack.functionPlace = stack.scopes.findIdx fun scope =>
      match scope with
      | .function _ => true
      | .label => false := by
  rw [scopes, List.findIdx_map]
  rfl

theorem frames_defineLocal (stack : ScopeStack) (name : String) :
    (stack.defineLocal name).2.frames =
      stack.frames.modify stack.functionPlace (Frame.adding [name] []) := by
  obtain ⟨frames⟩ := stack
  simp only [defineLocal_snd, functionPlace]
  induction frames with
  | nil => rfl
  | cons frame rest ih =>
      rw [getD_addLocal?_cons, List.findIdx_cons]
      cases isFunction : frame.isFunction with
      | true => rfl
      | false => simp [ih]

theorem frames_defineLabel (stack : ScopeStack) (name : String) :
    (stack.defineLabel name).2.frames = stack.frames.modify 0 (Frame.adding [] [name]) := by
  obtain ⟨frames⟩ := stack
  rw [defineLabel_snd]
  cases frames with
  | nil => rfl
  | cons frame rest =>
      by_cases known : name ∈ frame.labels <;> simp [addLabel?, known, Frame.adding]

/-- The locals that uses add to the frame at a place. -/
def localsAt (stack : ScopeStack) (symbols : List SymbolUse) (place : Nat) : List String :=
  if stack.functionPlace = place then declaredNames .localVariable symbols else []

/-- The labels that uses add to the frame at a place. -/
def labelsAt (symbols : List SymbolUse) (place : Nat) : List String :=
  if place = 0 then declaredNames .label symbols else []

theorem localsAt_cons (stack : ScopeStack) (symbol : SymbolUse) (rest : List SymbolUse)
    (place : Nat) :
    stack.localsAt (symbol :: rest) place =
      stack.localsAt [symbol] place ++ stack.localsAt rest place := by
  rw [localsAt, localsAt, localsAt, ← List.singleton_append, declaredNames_append]
  split <;> rfl

theorem labelsAt_cons (symbol : SymbolUse) (rest : List SymbolUse) (place : Nat) :
    labelsAt (symbol :: rest) place = labelsAt [symbol] place ++ labelsAt rest place := by
  rw [labelsAt, labelsAt, labelsAt, ← List.singleton_append, declaredNames_append]
  split <;> rfl

/-- A use adds its name to one frame at most. -/
theorem frames_afterUse (stack : ScopeStack) (symbol : SymbolUse) (place : Nat) :
    (stack.afterUse symbol).frames[place]? =
      stack.frames[place]?.map
        (Frame.adding (stack.localsAt [symbol] place).reverse
          (labelsAt [symbol] place).reverse) := by
  obtain ⟨role, space, name, arity⟩ := symbol
  cases role with
  | reference =>
      cases space <;> simp [afterUse, localsAt, labelsAt, declaredNames, Frame.adding_nil]
  | declare =>
      cases space with
      | function | global | table =>
          simp [afterUse, localsAt, labelsAt, declaredNames, Frame.adding_nil]
      | localVariable =>
          simp only [afterUse, frames_defineLocal, List.getElem?_modify]
          by_cases here : stack.functionPlace = place <;>
            simp [localsAt, labelsAt, declaredNames, here, Frame.adding_nil]
      | label =>
          simp only [afterUse, frames_defineLabel, List.getElem?_modify]
          by_cases here : place = 0 <;>
            simp [localsAt, labelsAt, declaredNames, here, Ne.symm, Frame.adding_nil]

/-- **Uses add the locals that they declare to the innermost function, and the labels to the frame
on top.** -/
theorem frames_afterUses (stack : ScopeStack) (symbols : List SymbolUse) (place : Nat) :
    (stack.afterUses symbols).frames[place]? =
      stack.frames[place]?.map
        (Frame.adding (stack.localsAt symbols place).reverse (labelsAt symbols place).reverse) := by
  induction symbols generalizing stack with
  | nil => simp [afterUses, localsAt, labelsAt, declaredNames, Frame.adding_nil]
  | cons symbol rest ih =>
      have samePlace : (stack.afterUse symbol).functionPlace = stack.functionPlace := by
        rw [functionPlace_eq, functionPlace_eq, scopes_afterUse]
      have sameLocals :
          (stack.afterUse symbol).localsAt rest place = stack.localsAt rest place := by
        rw [localsAt, localsAt, samePlace]
      change ((stack.afterUse symbol).afterUses rest).frames[place]? = _
      rw [ih, frames_afterUse, Option.map_map, sameLocals, localsAt_cons stack symbol rest,
        labelsAt_cons symbol rest, List.reverse_append, List.reverse_append]
      exact congrArg (Option.map · _) (funext fun frame => frame.adding_adding _ _ _ _)

end ScopeStack

/-! ## Closing scopes -/

/-- On the trail no scope is closed but one that the trail opened: there is one above those that
were open before. -/
def PopsOwn (trail : List TrailStep) : Prop :=
  ∀ (stack : ScopeStack) (part : List TrailStep), part ++ [.leave] <+: trail →
    ∃ scope opened, (stack.afterAll part).scopes = scope :: (opened ++ stack.scopes)

namespace PopsOwn

theorem nil : PopsOwn [] := by
  intro stack part within
  exact absurd (List.prefix_nil.mp within) (List.append_ne_nil_of_right_ne_nil part
    (List.cons_ne_nil _ _))

theorem append {first second : List TrailStep} (left : PopsOwn first) (keeps : KeepsScopes first)
    (right : PopsOwn second) : PopsOwn (first ++ second) := by
  intro stack part within
  rcases List.prefix_or_prefix_of_prefix within (List.prefix_append first second) with
    inFirst | beyond
  · exact left stack part inFirst
  -- The second trail begins where the first one ends, with the scopes from before.
  · rcases List.prefix_concat_iff.mp beyond with same | ⟨more, rfl⟩
    · exact left stack part (same ▸ List.prefix_refl _)
    · rw [List.append_assoc, List.prefix_append_right_inj] at within
      obtain ⟨scope, opened, same⟩ := right (stack.afterAll first) more within
      rw [ScopeStack.afterAll_append, same, keeps]
      exact ⟨scope, opened, rfl⟩

theorem uses (symbols : List SymbolUse) : PopsOwn (symbols.map .use) := by
  intro stack part within
  have member : TrailStep.leave ∈ symbols.map .use :=
    within.subset (List.mem_append_right part List.mem_cons_self)
  obtain ⟨symbol, -, same⟩ := List.mem_map.mp member
  cases same

theorem enclose {inner : List TrailStep} (pops : PopsOwn inner) (keeps : KeepsScopes inner)
    (marks : Marks) : PopsOwn (marks.enclose inner) := by
  have own : PopsOwn (marks.symbols.map .use ++ inner) :=
    (uses marks.symbols).append (KeepsScopes.uses marks.symbols) pops
  have ownKeeps : KeepsScopes (marks.symbols.map .use ++ inner) :=
    (KeepsScopes.uses marks.symbols).append keeps
  rw [Marks.enclose]
  cases marks.scope with
  | none => exact own
  | some scope =>
      intro stack part within
      change part ++ [.leave] <+:
        .enter scope :: (marks.symbols.map .use ++ inner ++ [.leave]) at within
      cases part with
      | nil => cases (List.cons_prefix_cons.mp within).1
      | cons step part =>
          obtain ⟨rfl, behind⟩ := List.cons_prefix_cons.mp within
          change ∃ top opened, ((stack.push scope).afterAll part).scopes = _
          rcases List.prefix_concat_iff.mp behind with whole | inside
          · obtain rfl := List.append_cancel_right whole
            exact ⟨scope, [], ownKeeps (stack.push scope)⟩
          · obtain ⟨top, opened, same⟩ := own (stack.push scope) part inside
            refine ⟨top, opened ++ [scope], ?_⟩
            rw [same, ScopeStack.scopes_push, List.append_assoc, List.singleton_append]

end PopsOwn

mutual

/-- **A tree closes only scopes that it opened.** -/
theorem popsOwn_trail : ∀ node : Node, PopsOwn node.trail
  | .leaf _ marks | .form _ marks => PopsOwn.nil.enclose .nil marks
  | .group _ children marks | .fragment children marks =>
      (popsOwn_trails children).enclose (keepsScopes_trails children) marks

theorem popsOwn_trails : ∀ nodes : List Node, PopsOwn (Node.trails nodes)
  | [] => .nil
  | node :: rest =>
      (popsOwn_trail node).append (keepsScopes_trail node) (popsOwn_trails rest)

end

/-! ## All that a walk does -/

/-- What a trail does to the frames of a stack, given the uses on the trail that work outside of its
scopes. -/
structure KeepsFrames (stack : ScopeStack) (trail : List TrailStep) (outward : List SymbolUse) :
    Prop where
  /-- Whenever a scope is closed, one is open above those from before. -/
  pops : ∀ part, part ++ [.leave] <+: trail →
    ∃ scope opened, (stack.afterAll part).scopes = scope :: (opened ++ stack.scopes)
  /-- At the end the scopes are open that were open before. -/
  scopes : (stack.afterAll trail).scopes = stack.scopes
  /-- The locals of the innermost function get the names that are declared. All other locals stay
  what they are. -/
  locals : ∀ place before after, stack.frames[place]? = some before →
    (stack.afterAll trail).frames[place]? = some after → ∀ name, name ∈ after.locals ↔
      name ∈ before.locals ∨
        (stack.functionPlace = place ∧ name ∈ declaredNames .localVariable outward)
  /-- The labels of the frame on top get the names that are declared. All other labels stay what
  they are. -/
  labels : ∀ place before after, stack.frames[place]? = some before →
    (stack.afterAll trail).frames[place]? = some after → ∀ name, name ∈ after.labels ↔
      name ∈ before.labels ∨ (place = 0 ∧ name ∈ declaredNames .label outward)

theorem keepsFrames_of_afterUses {trail : List TrailStep} {outward : List SymbolUse}
    (pops : PopsOwn trail) (keeps : KeepsScopes trail) {stack : ScopeStack}
    (walk : stack.afterAll trail = stack.afterUses outward) :
    KeepsFrames stack trail outward := by
  have grown {place : Nat} {before after : Frame} (first : stack.frames[place]? = some before)
      (second : (stack.afterAll trail).frames[place]? = some after) :
      after = before.adding (stack.localsAt outward place).reverse
        (ScopeStack.labelsAt outward place).reverse := by
    rw [walk, ScopeStack.frames_afterUses, first] at second
    exact (Option.some.inj second).symm
  refine ⟨pops stack, keeps stack, fun place before after first second name => ?_,
    fun place before after first second name => ?_⟩
  · rw [grown first second, Frame.adding, List.mem_union_iff, List.mem_reverse, or_comm,
      ScopeStack.localsAt]
    split <;> simp [*]
  · rw [grown first second, Frame.adding, List.mem_union_iff, List.mem_reverse, or_comm,
      ScopeStack.labelsAt]
    split <;> simp [*]

/-- Declarations of locals change no label. -/
theorem labels_afterUses (stack : ScopeStack) {symbols : List SymbolUse}
    (locals : declaredNames .label symbols = []) :
    (stack.afterUses symbols).frames.map Frame.labels = stack.frames.map Frame.labels := by
  have none (place : Nat) : ScopeStack.labelsAt symbols place = [] := by
    rw [ScopeStack.labelsAt, locals, ite_self]
  refine List.ext_getElem? fun place => ?_
  rw [List.getElem?_map, List.getElem?_map, ScopeStack.frames_afterUses, none, Option.map_map]
  rfl

theorem Node.outward_function {node : Node} {name : String}
    (opens : node.marks.scope = some (.function name)) : node.outward = [] := by
  rw [node.outward_eq, Marks.outward, opens]

theorem Node.declaredNames_outward_label {node : Node} (opens : node.marks.scope = some .label) :
    declaredNames .label node.outward = [] := by
  rw [node.outward_eq, Marks.outward, opens]
  refine List.eq_nil_iff_forall_not_mem.mpr fun name declared => ?_
  obtain ⟨symbol, member, -, isLabel, -⟩ := mem_declaredNames.mp declared
  have isLocal : symbol.DeclaresLocal := by simpa using (List.mem_filter.mp member).2
  rw [isLocal.2] at isLabel
  cases isLabel

/-- **A walk keeps the frames of every stack.** It closes its own scopes only, adds names to the
locals of the innermost function and to the labels of the frame on top, and takes no name away. A
function changes nothing at all, and a block or a loop changes no label. The empty stack is empty
again after any list of items. -/
theorem walks_keep_frames :
    (∀ (stack : ScopeStack) (node : Node),
      KeepsFrames stack node.trail node.outward ∧
        (∀ name, node.marks.scope = some (.function name) → stack.afterAll node.trail = stack) ∧
        (node.marks.scope = some .label →
          (stack.afterAll node.trail).frames.map Frame.labels = stack.frames.map Frame.labels)) ∧
    (∀ (stack : ScopeStack) (nodes : List Node),
      KeepsFrames stack (Node.trails nodes) (Node.outwards nodes)) ∧
    ∀ nodes : List Node, ScopeStack.empty.afterAll (Node.trails nodes) = .empty := by
  refine ⟨fun stack node => ⟨?_, fun name opens => ?_, fun opens => ?_⟩, fun stack nodes => ?_,
    fun nodes => (keepsScopes_trails nodes).afterAll_empty⟩
  · exact keepsFrames_of_afterUses (popsOwn_trail node) (keepsScopes_trail node)
      (afterAll_trail stack node)
  · rw [afterAll_trail, Node.outward_function opens]
    rfl
  · rw [afterAll_trail]
    exact labels_afterUses stack (Node.declaredNames_outward_label opens)
  · exact keepsFrames_of_afterUses (popsOwn_trails nodes) (keepsScopes_trails nodes)
      (afterAll_trails stack nodes)

/-- A block that declares a label and holds the declaration of a local. -/
def declaringBlock : Node :=
  ((Node.ofGroup ["block"] [(Node.ofText "nop").declaring .localVariable "y"]).declaring
    .label "inner").withScope .label

/-- In a loop of a function, the local of the block goes to the function and its label nowhere. -/
theorem walks_keep_frames_block :
    let stack : ScopeStack := ⟨[⟨.label, [], ["outer"]⟩, ⟨.function "main", ["x"], []⟩]⟩
    (stack.afterAll declaringBlock.trail).frames.map Frame.labels = [["outer"], []] ∧
      ∀ after, (stack.afterAll declaringBlock.trail).frames[1]? = some after →
        ∀ name, name ∈ after.locals ↔ name ∈ ["x"] ∨ name = "y" := by
  intro stack
  obtain ⟨keeps, -, labels⟩ := walks_keep_frames.1 stack declaringBlock
  have declared : declaredNames .localVariable declaringBlock.outward = ["y"] := by decide
  have place : stack.functionPlace = 1 := by decide
  refine ⟨labels rfl, fun after same name => ?_⟩
  rw [keeps.locals 1 _ after rfl same name, declared]
  simp only [place, true_and, List.mem_singleton]

end WasmWorkshop
