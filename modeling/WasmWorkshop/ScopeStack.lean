import WasmWorkshop.Symbol

/-!
# The stack of open scopes

Each open function and each open block or loop has a frame. A local always lands in the frame of
the innermost open function, from however deep inside its blocks it is declared; a label lands in
the innermost frame of all. Looking up goes outwards and stops at the frame of the innermost
function, which is the last one looked at (`ScopeStack.visible`). Hence a local lives as long as its
function, a label as long as its block, and nothing of an outer function is seen from an inner
one.
-/

set_option autoImplicit false

namespace WasmWorkshop

/-- The names of one open scope. -/
structure Frame where
  scope : Scope
  locals : List String := []
  labels : List String := []
  deriving DecidableEq

/-- Whether the frame is that of a function. -/
def Frame.isFunction (frame : Frame) : Bool :=
  match frame.scope with
  | .function _ => true
  | .label => false

/-- The open scopes, the innermost first. -/
structure ScopeStack where
  frames : List Frame := []
  deriving DecidableEq

namespace ScopeStack

/-- No open scope. -/
def empty : ScopeStack := {}

/-- Opens a scope. -/
def push (stack : ScopeStack) (scope : Scope) : ScopeStack :=
  ⟨{ scope := scope } :: stack.frames⟩

/-- Closes the innermost scope. -/
def pop (stack : ScopeStack) : ScopeStack := ⟨stack.frames.tail⟩

/-- The frames from the innermost one outwards to that of the innermost function, which is
included. -/
def upToFunction : List Frame → List Frame
  | [] => []
  | frame :: rest => if frame.isFunction then [frame] else frame :: upToFunction rest

/-- The frames in which a name is looked up. -/
def visible (stack : ScopeStack) : List Frame := upToFunction stack.frames

/-- The name of the innermost open function among the frames. -/
def innermostFunction : List Frame → Option String
  | [] => none
  | frame :: rest =>
    match frame.scope with
    | .function name => some name
    | .label => innermostFunction rest

/-- The name of the innermost open function. -/
def currentFunction (stack : ScopeStack) : Option String := innermostFunction stack.frames

/-- The frames with a local added to the innermost function, unless there is no function or it
has that local. -/
def addLocal? (name : String) : List Frame → Option (List Frame)
  | [] => none
  | frame :: rest =>
    if frame.isFunction then
      if name ∈ frame.locals then none
      else some ({ frame with locals := name :: frame.locals } :: rest)
    else (addLocal? name rest).map (frame :: ·)

/-- The frames with a label added to the innermost one, unless there is none or it has that
label. -/
def addLabel? (name : String) : List Frame → Option (List Frame)
  | [] => none
  | frame :: rest =>
    if name ∈ frame.labels then none
    else some ({ frame with labels := name :: frame.labels } :: rest)

/-- Declares a local, and says whether it is new. -/
def defineLocal (stack : ScopeStack) (name : String) : Bool × ScopeStack :=
  match addLocal? name stack.frames with
  | some frames => (true, ⟨frames⟩)
  | none => (false, stack)

/-- Declares a label, and says whether it is new. -/
def defineLabel (stack : ScopeStack) (name : String) : Bool × ScopeStack :=
  match addLabel? name stack.frames with
  | some frames => (true, ⟨frames⟩)
  | none => (false, stack)

/-- Whether a local is declared in the innermost function. -/
def hasLocal (stack : ScopeStack) (name : String) : Bool :=
  stack.visible.any fun frame => frame.isFunction && decide (name ∈ frame.locals)

/-- Whether a jump to a label reaches it from here. -/
def hasLabel (stack : ScopeStack) (name : String) : Bool :=
  stack.visible.any fun frame => decide (name ∈ frame.labels)

end ScopeStack

end WasmWorkshop
