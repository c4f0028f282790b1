import WasmWorkshop.Symbol

/-!
# The node tree

A module is a tree of nodes before it is text. A node is a bare line, a form on one line, a group
with an opening and a closing line around its children, or a fragment, which stands for its
children alone. Every node carries marks, which the symbol check reads and the text never shows.

The tree has two readings that the rest of the library is stated on. `Node.groupCount` counts the
groups, hence the opening lines. `Node.trail` lists, in pre-order, what the symbol check meets: the
scopes entered and left and the symbols between, a node's own before those of its children. The
trail of a list of nodes is the concatenation of their trails, so the check of a tree is a pass
over a flat list.
-/

set_option autoImplicit false

namespace WasmWorkshop

/-- One node of the tree. -/
inductive Node where
  /-- A bare line. -/
  | leaf (text : String) (marks : Marks)
  /-- A form on one line, from its header tokens. -/
  | form (header : List String) (marks : Marks)
  /-- An opening line, the children one level deeper, and a closing line. -/
  | group (header : List String) (children : List Node) (marks : Marks)
  /-- The children at the depth of the fragment itself. -/
  | fragment (children : List Node) (marks : Marks)

namespace Node

/-! ## Parts of a node -/

/-- A bare line without marks. -/
def ofText (text : String) : Node := .leaf text {}

/-- A form without marks. -/
def ofHeader (header : List String) : Node := .form header {}

/-- A group without marks. -/
def ofGroup (header : List String) (children : List Node) : Node := .group header children {}

/-- A fragment without marks. -/
def ofNodes (children : List Node) : Node := .fragment children {}

/-- The marks of a node. -/
def marks : Node → Marks
  | .leaf _ marks => marks
  | .form _ marks => marks
  | .group _ _ marks => marks
  | .fragment _ marks => marks

/-- The node with its marks changed. -/
def mapMarks (change : Marks → Marks) : Node → Node
  | .leaf text marks => .leaf text (change marks)
  | .form header marks => .form header (change marks)
  | .group header children marks => .group header children (change marks)
  | .fragment children marks => .fragment children (change marks)

/-- The node with one more symbol. -/
def withSymbol (node : Node) (symbol : SymbolUse) : Node :=
  node.mapMarks (·.withSymbol symbol)

/-- The node with a scope of its own. -/
def withScope (node : Node) (scope : Scope) : Node :=
  node.mapMarks (·.withScope scope)

/-- The node with a declaration of `name`. -/
def declaring (node : Node) (space : Namespace) (name : String) : Node :=
  node.withSymbol (.declaring space name)

/-- The node with a reference to `name`. -/
def referring (node : Node) (space : Namespace) (name : String) : Node :=
  node.withSymbol (.referring space name)

/-- The header tokens of a form or a group. -/
def header? : Node → Option (List String)
  | .form header _ => some header
  | .group header _ _ => some header
  | .leaf _ _ => none
  | .fragment _ _ => none

/-- The nodes nested in a group or a fragment. -/
def children : Node → List Node
  | .group _ children _ => children
  | .fragment children _ => children
  | .leaf _ _ => []
  | .form _ _ => []

/-- The first header token, or the text of a bare line. -/
def head? : Node → Option String
  | .leaf text _ => some text
  | .form header _ => header.head?
  | .group header _ _ => header.head?
  | .fragment _ _ => none

/-! ## Counting groups -/

mutual

/-- The number of groups in a tree, its root included. -/
def groupCount : Node → Nat
  | .leaf _ _ => 0
  | .form _ _ => 0
  | .group _ children _ => 1 + groupCounts children
  | .fragment children _ => groupCounts children

/-- The number of groups in a list of trees. -/
def groupCounts : List Node → Nat
  | [] => 0
  | node :: rest => node.groupCount + groupCounts rest

end

end Node

/-! ## The trail of a tree -/

/-- What the symbol check meets on its way through a tree. -/
inductive TrailStep where
  | enter (scope : Scope)
  | use (symbol : SymbolUse)
  | leave
  deriving DecidableEq

/-- The trail of a node with the given marks, from the trail of its children: the node's scope
holds its own symbols as well as all that its children do. -/
def Marks.enclose (marks : Marks) (inner : List TrailStep) : List TrailStep :=
  let steps := marks.symbols.map .use ++ inner
  match marks.scope with
  | none => steps
  | some scope => .enter scope :: (steps ++ [.leave])

mutual

/-- Scopes and symbols of a tree in pre-order. -/
def Node.trail : Node → List TrailStep
  | .leaf _ marks => marks.enclose []
  | .form _ marks => marks.enclose []
  | .group _ children marks => marks.enclose (Node.trails children)
  | .fragment children marks => marks.enclose (Node.trails children)

/-- Scopes and symbols of a list of trees in pre-order. -/
def Node.trails : List Node → List TrailStep
  | [] => []
  | node :: rest => node.trail ++ Node.trails rest

end

/-- The symbol that a step of the trail uses. -/
def TrailStep.symbol? : TrailStep → Option SymbolUse
  | .use symbol => some symbol
  | .enter _ => none
  | .leave => none

end WasmWorkshop
