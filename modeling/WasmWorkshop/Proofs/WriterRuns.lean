import Mathlib.Algebra.Ring.Nat
import Mathlib.Data.List.Induction
import WasmWorkshop.Proofs.WrittenLines

/-!
# Runs of a writer

What a node adds to the text can be told without a writer: its lines in pre-order, each with the
nodes around it (`Node.visits`). A line stands as deep as there are groups among these nodes, and
nothing else about them matters. Among the lines there are as many that open a group as there are
groups, and as many that close one (`countP_written`).

A call on a writer is the writing of one node, whichever call it is (`WriterCall.apply_eq`). So a
writer is back at depth zero after any calls, has closed what it opened, and its text is made of the
texts that the calls write on their own (`runTells`).
-/

set_option autoImplicit false

namespace WasmWorkshop

/-! ## Lines and the nodes around them -/

/-- Whether the node is a group. -/
def Node.isGroup : Node → Bool
  | .group _ _ _ => true
  | _ => false

/-- A line, and the nodes around it, the innermost first. -/
structure Visit where
  around : List Node
  kind : LineKind

/-- The number of groups around a line. -/
def Visit.level (visit : Visit) : Nat := visit.around.countP Node.isGroup

mutual

/-- The lines of a node in pre-order: one for a bare line and for a form, two for a group, with
those of its children between them, and none for a fragment. -/
def Node.visits (around : List Node) : Node → List Visit
  | .leaf text _ => [⟨around, .bare text⟩]
  | .form header _ => [⟨around, .form (joined header)⟩]
  | .group header children marks =>
    ⟨around, .opening (joined header)⟩ ::
      (Node.visitsOf (.group header children marks :: around) children ++ [⟨around, .closing⟩])
  | .fragment children marks => Node.visitsOf (.fragment children marks :: around) children

/-- The lines of a list of nodes in pre-order. -/
def Node.visitsOf (around : List Node) : List Node → List Visit
  | [] => []
  | node :: rest => node.visits around ++ Node.visitsOf around rest

end

/-- The line at its depth, when the outermost nodes stand at the depth `start`. -/
def Visit.written (start : Nat) (visit : Visit) : WrittenLine := ⟨start + visit.level, visit.kind⟩

mutual

/-- **A line stands as deep as there are groups around it.** -/
theorem written_eq_visits (start : Nat) (around : List Node) : ∀ node : Node,
    node.written (start + around.countP Node.isGroup) =
      (node.visits around).map (Visit.written start)
  | .leaf _ _ => rfl
  | .form _ _ => rfl
  | .group header children marks => by
      have deeper : (Node.group header children marks :: around).countP Node.isGroup =
          around.countP Node.isGroup + 1 := List.countP_cons_of_pos rfl
      have below := writtenAll_eq_visitsOf start (.group header children marks :: around) children
      rw [deeper, ← Nat.add_assoc] at below
      rw [Node.written, below, Node.visits, List.map_cons, List.map_append]
      rfl
  | .fragment children marks => by
      have same : (Node.fragment children marks :: around).countP Node.isGroup =
          around.countP Node.isGroup := List.countP_cons_of_neg Bool.false_ne_true
      have below := writtenAll_eq_visitsOf start (.fragment children marks :: around) children
      rw [same] at below
      exact below

theorem writtenAll_eq_visitsOf (start : Nat) (around : List Node) : ∀ nodes : List Node,
    Node.writtenAll (start + around.countP Node.isGroup) nodes =
      (Node.visitsOf around nodes).map (Visit.written start)
  | [] => rfl
  | node :: rest => by
      rw [Node.writtenAll, Node.visitsOf, List.map_append, written_eq_visits start around node,
        writtenAll_eq_visitsOf start around rest]

end

/-! ## Counting groups -/

/-- A choice of lines that has one of the two lines of each group, and no other. -/
structure ChoosesGroups (chosen : LineKind → Bool) : Prop where
  bare : ∀ text, chosen (.bare text) = false
  form : ∀ header, chosen (.form header) = false
  once : ∀ header, chosen .closing = !chosen (.opening header)

theorem choosesGroups_isOpening : ChoosesGroups LineKind.isOpening :=
  ⟨fun _ => rfl, fun _ => rfl, fun _ => rfl⟩

theorem choosesGroups_isClosing : ChoosesGroups LineKind.isClosing :=
  ⟨fun _ => rfl, fun _ => rfl, fun _ => rfl⟩

mutual

/-- **The lines of a node open, and close, as many groups as it has.** -/
theorem countP_written {chosen : LineKind → Bool} (choice : ChoosesGroups chosen) (depth : Nat) :
    ∀ node : Node, (node.written depth).countP (chosen ·.kind) = node.groupCount
  | .leaf text _ => List.countP_cons_of_neg (by simp [choice.bare text])
  | .form header _ => List.countP_cons_of_neg (by simp [choice.form (joined header)])
  | .group header children _ => by
      have below := countP_writtenAll choice (depth + 1) children
      have once := choice.once (joined header)
      rw [Node.written, List.countP_cons, List.countP_append, List.countP_singleton, below,
        Node.groupCount]
      -- Whichever of the two lines is chosen counts the group itself.
      cases opening : chosen (.opening (joined header)) with
      | true => simp [once, opening, Nat.add_comm]
      | false => simp [once, opening, Nat.add_comm]
  | .fragment children _ => countP_writtenAll choice depth children

theorem countP_writtenAll {chosen : LineKind → Bool} (choice : ChoosesGroups chosen)
    (depth : Nat) : ∀ nodes : List Node,
    (Node.writtenAll depth nodes).countP (chosen ·.kind) = Node.groupCounts nodes
  | [] => rfl
  | node :: rest => by
      rw [Node.writtenAll, List.countP_append, countP_written choice depth node,
        countP_writtenAll choice depth rest, Node.groupCounts]

end

/-! ## One node -/

/-- The text of one line, indented for the given depth. -/
def lineText (options : LayoutOptions) (depth : Nat) (content : String) : String :=
  "".pushn ' ' (depth * options.indentWidth) ++ content ++ "\n"

/-- What a writer does with a node. -/
structure NodeWritten (writer : LineWriter) (node : Node) : Prop where
  sameOptions : (writer.node node).options = writer.options
  depth : (writer.node node).depth = writer.depth
  opened : (writer.node node).opened = writer.opened + node.groupCount
  closed : (writer.node node).closed = writer.closed + node.groupCount
  /-- The text grows at the end, by the lines of the node in pre-order. -/
  text : (writer.node node).text = writer.text ++
    String.join ((node.visits []).map fun visit =>
      lineText writer.options (writer.depth + visit.level) visit.kind.content)

theorem lineText_eq (options : LayoutOptions) (line : WrittenLine) :
    lineText options line.depth line.kind.content = String.ofList (line.characters options) := by
  rw [← String.toList_inj]
  simp [lineText, LineWriter.pushn_eq_append, WrittenLine.characters]

theorem ofList_flatMap {α : Type} (pieces : List α) (characters : α → List Char) :
    String.ofList (pieces.flatMap characters) =
      String.join (pieces.map fun piece => String.ofList (characters piece)) := by
  rw [← String.toList_inj, String.toList_ofList, String.toList_join, List.flatMap_map]
  simp

/-- **Writing a node writes its lines**, wherever the writer stands. -/
theorem nodeWritten (writer : LineWriter) (node : Node) : NodeWritten writer node := by
  have whole := writer.node_eq node
  have lines := written_eq_visits writer.depth [] node
  rw [List.countP_nil, Nat.add_zero] at lines
  refine ⟨?_, ?_, ?_, ?_, ?_⟩
  · rw [whole, LineWriter.options_extend]
  · rw [whole, LineWriter.depth_extend]
  · rw [whole, ← countP_written choosesGroups_isOpening writer.depth node]
    rfl
  · rw [whole, ← countP_written choosesGroups_isClosing writer.depth node]
    rfl
  · rw [whole, LineWriter.extend, lines, ofList_flatMap, List.map_map]
    exact congrArg (writer.text ++ String.join ·)
      (List.map_congr_left fun visit _ => (lineText_eq writer.options (visit.written _)).symm)

/-! ## Calls one after another -/

/-- A call on a writer. -/
inductive WriterCall where
  | writeLine (text : String)
  | writeNode (node : Node)
  | writeHeaded (header : List String) (children : Option (List Node))

namespace WriterCall

/-- The writer after a call. -/
def apply (writer : LineWriter) : WriterCall → LineWriter
  | .writeLine text => writer.line text
  | .writeNode node => writer.node node
  | .writeHeaded header children => writer.headed header children

/-- The number of groups that a call writes. -/
def groupCount : WriterCall → Nat
  | .writeLine _ => 0
  | .writeNode node => node.groupCount
  | .writeHeaded _ none => 0
  | .writeHeaded _ (some children) => 1 + Node.groupCounts children

/-- The node that a call writes. -/
def asNode : WriterCall → Node
  | .writeLine text => .ofText text
  | .writeNode node => node
  | .writeHeaded header none => .ofHeader header
  | .writeHeaded header (some children) => .ofGroup header children

theorem apply_eq (writer : LineWriter) (call : WriterCall) :
    call.apply writer = writer.node call.asNode := by
  rcases call with text | node | ⟨header, children⟩
  · rfl
  · rfl
  · cases children <;> rfl

theorem groupCount_asNode (call : WriterCall) : call.asNode.groupCount = call.groupCount := by
  rcases call with text | node | ⟨header, children⟩
  · rfl
  · rfl
  · cases children <;> rfl

/-- The writer after calls on a new one. -/
def run (options : LayoutOptions) (calls : List WriterCall) : LineWriter :=
  calls.foldl apply (.empty options)

/-- The text that a call writes on its own. -/
def text (options : LayoutOptions) (call : WriterCall) : String :=
  (call.apply (.empty options)).text

end WriterCall

open WriterCall

theorem run_append_singleton (options : LayoutOptions) (calls : List WriterCall)
    (call : WriterCall) : run options (calls ++ [call]) = call.apply (run options calls) := by
  rw [run, List.foldl_append]
  rfl

/-- What a writer is like after calls on a new one. -/
structure RunTells (options : LayoutOptions) (calls : List WriterCall) (writer : LineWriter) :
    Prop where
  sameOptions : writer.options = options
  depth : writer.depth = 0
  opened : writer.opened = (calls.map WriterCall.groupCount).sum
  closed : writer.closed = (calls.map WriterCall.groupCount).sum
  text : writer.text = String.join (calls.map (WriterCall.text options))

/-- The text that a call adds depends on nothing but the options and the depth. -/
theorem text_apply {options : LayoutOptions} {writer : LineWriter}
    (sameOptions : writer.options = options) (atZero : writer.depth = 0) (call : WriterCall) :
    (call.apply writer).text = writer.text ++ call.text options := by
  have here := (nodeWritten writer call.asNode).text
  have alone := (nodeWritten (.empty options) call.asNode).text
  rw [sameOptions, atZero] at here
  rw [WriterCall.text, apply_eq, apply_eq, here, alone]
  simp [LineWriter.empty]

/-- **What any calls on a new writer lead to.** -/
theorem runTells (options : LayoutOptions) (calls : List WriterCall) :
    RunTells options calls (run options calls) := by
  induction calls using List.reverseRecOn with
  | nil => exact ⟨rfl, rfl, rfl, rfl, rfl⟩
  | append_singleton earlier call ih =>
      have step := nodeWritten (run options earlier) call.asNode
      have text := text_apply ih.sameOptions ih.depth call
      rw [run_append_singleton]
      refine ⟨?_, ?_, ?_, ?_, ?_⟩
      · rw [apply_eq, step.sameOptions, ih.sameOptions]
      · rw [apply_eq, step.depth, ih.depth]
      · rw [apply_eq, step.opened, groupCount_asNode, ih.opened]
        simp
      · rw [apply_eq, step.closed, groupCount_asNode, ih.closed]
        simp
      · rw [text, ih.text]
        simp [String.join_append]

/-- **Writers keep account.** A writer that has gone through any calls is at depth zero, has opened
and closed as many groups as it was given, and its text is made of what each call writes by itself.
Whatever its state is, a further node leaves the depth as it was, counts every group of it once as
opened and once as closed, and adds its lines in pre-order, each indented by the number of groups
around it. -/
theorem writer_keeps_account (options : LayoutOptions) (calls : List WriterCall) :
    RunTells options calls (run options calls) ∧
      ∀ (writer : LineWriter) (node : Node), NodeWritten writer node :=
  ⟨runTells options calls, nodeWritten⟩

end WasmWorkshop
