import WasmWorkshop.Node

/-!
# Writing a tree as indented lines

A bare line and a form take one line, a group takes an opening line, its children one level deeper
and a closing line, a fragment takes no line of its own. The writer carries the text so far, the
depth, and how many groups it has opened and closed. The depth is the number of groups that are
open, so after any number of whole trees it is zero again.
-/

set_option autoImplicit false

namespace WasmWorkshop

/-- How a tree is laid out. -/
structure LayoutOptions where
  /-- Spaces for each level of nesting. -/
  indentWidth : Nat := 1
  deriving DecidableEq

/-- A text that grows by lines. -/
structure LineWriter where
  options : LayoutOptions
  text : String := ""
  depth : Nat := 0
  opened : Nat := 0
  closed : Nat := 0
  deriving DecidableEq

namespace LineWriter

/-- A writer that has written nothing. -/
def empty (options : LayoutOptions) : LineWriter := { options := options }

/-- Writes one line at the current depth. -/
def line (writer : LineWriter) (text : String) : LineWriter :=
  { writer with
    text := writer.text.pushn ' ' (writer.depth * writer.options.indentWidth) ++ text ++ "\n" }

/-- Writes the opening line of a group, and goes one level deeper. -/
def openGroup (writer : LineWriter) (header : List String) : LineWriter :=
  let writer := writer.line ("(" ++ " ".intercalate header)
  { writer with opened := writer.opened + 1, depth := writer.depth + 1 }

/-- Goes back one level, and writes the closing line of a group. -/
def closeGroup (writer : LineWriter) : LineWriter :=
  let writer := { writer with depth := writer.depth - 1, closed := writer.closed + 1 }
  writer.line ")"

/-- Writes a form. -/
def form (writer : LineWriter) (header : List String) : LineWriter :=
  writer.line ("(" ++ " ".intercalate header ++ ")")

mutual

/-- Writes a tree. -/
def node (writer : LineWriter) : Node → LineWriter
  | .leaf text _ => writer.line text
  | .form header _ => writer.form header
  | .group header children _ => ((writer.openGroup header).nodes children).closeGroup
  | .fragment children _ => writer.nodes children

/-- Writes a list of trees. -/
def nodes (writer : LineWriter) : List Node → LineWriter
  | [] => writer
  | first :: rest => (writer.node first).nodes rest

end

/-- Writes a header: on its own as a form, or with children as a group. -/
def headed (writer : LineWriter) (header : List String) : Option (List Node) → LineWriter
  | none => writer.form header
  | some children => ((writer.openGroup header).nodes children).closeGroup

end LineWriter

/-- The text of a list of nodes. -/
def Node.render (nodes : List Node) (options : LayoutOptions) : String :=
  ((LineWriter.empty options).nodes nodes).text

end WasmWorkshop
