import WasmWorkshop.LineWriter

/-!
# What a writer writes, line by line

The lines of a tree are known before anything is written (`Node.written`): each has a depth and a
kind, a group has an opening and a closing one, and a fragment has none. Writing a tree writes these
lines after the text so far, counts the openings and closings among them, and leaves the depth as it
was (`LineWriter.node_eq`). So a rendering is nothing but its lines (`toList_render`).
-/

set_option autoImplicit false

namespace WasmWorkshop

/-! ## Lines -/

/-- The kinds of lines, with what there is to read on them. -/
inductive LineKind where
  | bare (text : String)
  | form (header : String)
  | opening (header : String)
  | closing
  deriving DecidableEq

/-- The line without its indentation. -/
def LineKind.content : LineKind → String
  | .bare text => text
  | .form header => "(" ++ header ++ ")"
  | .opening header => "(" ++ header
  | .closing => ")"

/-- A line of a given kind at a given depth. -/
structure WrittenLine where
  depth : Nat
  kind : LineKind
  deriving DecidableEq

/-- The characters of a line, its end included. -/
def WrittenLine.characters (options : LayoutOptions) (line : WrittenLine) : List Char :=
  List.replicate (line.depth * options.indentWidth) ' ' ++ line.kind.content.toList ++ ['\n']

/-- A header as it is written. -/
def joined (header : List String) : String := " ".intercalate header

mutual

/-- The lines of a node at a depth. -/
def Node.written (depth : Nat) : Node → List WrittenLine
  | .leaf text _ => [⟨depth, .bare text⟩]
  | .form header _ => [⟨depth, .form (joined header)⟩]
  | .group header children _ =>
    ⟨depth, .opening (joined header)⟩ ::
      (Node.writtenAll (depth + 1) children ++ [⟨depth, .closing⟩])
  | .fragment children _ => Node.writtenAll depth children

/-- The lines of a list of nodes at a depth. -/
def Node.writtenAll (depth : Nat) : List Node → List WrittenLine
  | [] => []
  | node :: rest => node.written depth ++ Node.writtenAll depth rest

end

/-! ## Writing lines -/

/-- Whether a line opens a group. -/
def LineKind.isOpening : LineKind → Bool
  | .opening _ => true
  | _ => false

/-- Whether a line closes a group. -/
def LineKind.isClosing : LineKind → Bool
  | .closing => true
  | _ => false

namespace LineWriter

/-- The writer with lines after its text. -/
def extend (writer : LineWriter) (lines : List WrittenLine) : LineWriter :=
  { writer with
    text := writer.text ++ String.ofList (lines.flatMap (·.characters writer.options))
    opened := writer.opened + lines.countP (·.kind.isOpening)
    closed := writer.closed + lines.countP (·.kind.isClosing) }

@[simp] theorem options_extend (writer : LineWriter) (lines : List WrittenLine) :
    (writer.extend lines).options = writer.options := rfl

@[simp] theorem depth_extend (writer : LineWriter) (lines : List WrittenLine) :
    (writer.extend lines).depth = writer.depth := rfl

theorem extend_nil (writer : LineWriter) : writer.extend [] = writer := by
  simp [extend]

theorem extend_append (writer : LineWriter) (first second : List WrittenLine) :
    writer.extend (first ++ second) = (writer.extend first).extend second := by
  simp [extend, String.append_assoc, Nat.add_assoc]

theorem pushn_eq_append (text : String) (character : Char) (count : Nat) :
    text.pushn character count = text ++ String.ofList (List.replicate count character) := by
  rw [String.pushn_eq_repeat_push]
  induction count with
  | zero => simp [Nat.repeat]
  | succ count ih =>
      rw [Nat.repeat, ih, ← String.toList_inj]
      simp [List.replicate_succ']

/-- A line that is neither an opening nor a closing one. -/
theorem line_eq_extend (writer : LineWriter) (kind : LineKind) (noOpening : kind.isOpening = false)
    (noClosing : kind.isClosing = false) :
    writer.line kind.content = writer.extend [⟨writer.depth, kind⟩] := by
  have text : (writer.line kind.content).text = writer.text ++
      String.ofList (WrittenLine.characters writer.options ⟨writer.depth, kind⟩) := by
    rw [← String.toList_inj]
    simp [line, pushn_eq_append, WrittenLine.characters]
  simp only [extend, List.flatMap_singleton, ← text]
  simp [line, noOpening, noClosing]

/-- A group writes its opening line, what is inside one level deeper, and its closing line. -/
theorem group_eq_extend (writer : LineWriter) (header : List String)
    (inside : LineWriter → LineWriter) {lines : List WrittenLine}
    (insideEq : ∀ deeper : LineWriter, deeper.depth = writer.depth + 1 →
      inside deeper = deeper.extend lines) :
    (inside (writer.openGroup header)).closeGroup =
      writer.extend (⟨writer.depth, .opening (joined header)⟩ ::
        (lines ++ [⟨writer.depth, .closing⟩])) := by
  rw [insideEq _ rfl]
  have text : ((writer.openGroup header).extend lines).closeGroup.text =
      writer.text ++ String.ofList
        ((⟨writer.depth, .opening (joined header)⟩ :: (lines ++ [⟨writer.depth, .closing⟩]) :
          List WrittenLine).flatMap (·.characters writer.options)) := by
    rw [← String.toList_inj]
    simp [extend, openGroup, closeGroup, line, pushn_eq_append, WrittenLine.characters,
      LineKind.content, joined]
  conv =>
    rhs
    rw [extend, ← text]
  simp [extend, openGroup, closeGroup, line, LineKind.isOpening, LineKind.isClosing]
  omega

mutual

/-- **Writing a tree writes its lines.** -/
theorem node_eq (writer : LineWriter) : ∀ node : Node,
    writer.node node = writer.extend (node.written writer.depth)
  | .leaf text _ => writer.line_eq_extend (.bare text) rfl rfl
  | .form header _ => writer.line_eq_extend (.form (joined header)) rfl rfl
  | .group header children _ =>
      writer.group_eq_extend header (fun deeper => deeper.nodes children)
        fun deeper below => below ▸ deeper.nodes_eq children
  | .fragment children _ => writer.nodes_eq children

theorem nodes_eq (writer : LineWriter) : ∀ nodes : List Node,
    writer.nodes nodes = writer.extend (Node.writtenAll writer.depth nodes)
  | [] => writer.extend_nil.symm
  | node :: rest => by
      rw [nodes, node_eq, nodes_eq, Node.writtenAll, extend_append, depth_extend]

end

end LineWriter

/-- **A rendering is made of the lines of its nodes.** -/
theorem toList_render (nodes : List Node) (options : LayoutOptions) :
    (Node.render nodes options).toList =
      (Node.writtenAll 0 nodes).flatMap (·.characters options) := by
  rw [Node.render, LineWriter.nodes_eq]
  simp [LineWriter.extend, LineWriter.empty]

theorem writtenAll_append (depth : Nat) (first second : List Node) :
    Node.writtenAll depth (first ++ second) =
      Node.writtenAll depth first ++ Node.writtenAll depth second := by
  induction first with
  | nil => rfl
  | cons node rest ih =>
      rw [List.cons_append, Node.writtenAll, Node.writtenAll, ih, List.append_assoc]

/-- Lists of nodes are rendered one after another. -/
theorem render_append (first second : List Node) (options : LayoutOptions) :
    Node.render (first ++ second) options =
      Node.render first options ++ Node.render second options := by
  rw [← String.toList_inj, String.toList_append, toList_render, toList_render, toList_render,
    writtenAll_append, List.flatMap_append]

end WasmWorkshop
