import WasmWorkshop.Proofs.WrittenLines

/-!
# Reading a rendering back

A rendering is read back in three steps. The text falls into lines, and the indentation of a line
gives its depth (`rawLines`). The kind of a line is read off what stands on it, with one exception:
a form and the opening line of a group may look alike, and are told apart by the line after them
(`RawLine.recognize`). The line after an opening line is inside of the group: it is one level
deeper, or it closes the group. No line after a form is either of these. The kinds then give the
nesting, with a stack of the groups that are still open (`ShapeReader.read`).

All of this undoes the writing of nodes that are safe on a line (`readLines_render`,
`readShapes_render`). So a rendering determines its nodes up to what the text never shows, which is
where fragments begin and end, how a header is divided into tokens, and the marks
(`render_recoverable`).
-/

set_option autoImplicit false

namespace WasmWorkshop

/-! ## Nodes that are safe on a line -/

/-- A text that stands on a line of its own and looks like no other line. -/
def IsBareText (text : String) : Prop :=
  '\n' ∉ text.toList ∧ (∀ first ∈ text.toList.head?, first ≠ ' ' ∧ first ≠ '(') ∧ text ≠ ")"

mutual

/-- No header token and no bare line in the tree breaks its line, and no bare line looks like
another kind of line. -/
def Node.IsLineSafe : Node → Prop
  | .leaf text _ => IsBareText text
  | .form header _ => ∀ token ∈ header, '\n' ∉ token.toList
  | .group header children _ =>
    (∀ token ∈ header, '\n' ∉ token.toList) ∧ Node.AreLineSafe children
  | .fragment children _ => Node.AreLineSafe children

/-- All trees of a list are safe on a line. -/
def Node.AreLineSafe : List Node → Prop
  | [] => True
  | node :: rest => node.IsLineSafe ∧ Node.AreLineSafe rest

end

/-- What is on the line is safe there. -/
def LineKind.IsSafe : LineKind → Prop
  | .bare text => IsBareText text
  | .form header => '\n' ∉ header.toList
  | .opening header => '\n' ∉ header.toList
  | .closing => True

theorem newline_not_mem_joined {header : List String}
    (safe : ∀ token ∈ header, '\n' ∉ token.toList) : '\n' ∉ (joined header).toList := by
  rw [joined, String.toList_intercalate]
  induction header with
  | nil => exact List.not_mem_nil
  | cons token rest ih =>
      obtain ⟨head, tail⟩ := List.forall_mem_cons.mp safe
      cases rest with
      | nil => simpa using head
      | cons next others =>
          have below := ih tail
          simp only [List.map_cons, List.intercalate_cons_cons, List.mem_append, not_or] at below ⊢
          exact ⟨⟨head, by decide⟩, below⟩

mutual

theorem isSafe_written (depth : Nat) : ∀ node : Node, node.IsLineSafe →
    ∀ line ∈ node.written depth, line.kind.IsSafe
  | .leaf _ _, safe => List.forall_mem_singleton.mpr safe
  | .form _ _, safe => List.forall_mem_singleton.mpr (newline_not_mem_joined safe)
  | .group _ children _, ⟨safe, childrenSafe⟩ =>
      List.forall_mem_cons.mpr ⟨newline_not_mem_joined safe,
        List.forall_mem_append.mpr ⟨isSafe_writtenAll (depth + 1) children childrenSafe,
          List.forall_mem_singleton.mpr trivial⟩⟩
  | .fragment children _, safe => isSafe_writtenAll depth children safe

theorem isSafe_writtenAll (depth : Nat) : ∀ nodes : List Node, Node.AreLineSafe nodes →
    ∀ line ∈ Node.writtenAll depth nodes, line.kind.IsSafe
  | [], _ => List.forall_mem_nil _
  | node :: rest, ⟨safe, others⟩ =>
      List.forall_mem_append.mpr ⟨isSafe_written depth node safe,
        isSafe_writtenAll depth rest others⟩

end

theorem LineKind.newline_not_mem_content {kind : LineKind} (safe : kind.IsSafe) :
    '\n' ∉ kind.content.toList := by
  cases kind with
  | bare text => exact safe.1
  | form header =>
      have noNewline : '\n' ∉ header.toList := safe
      simp [content, noNewline]
  | opening header =>
      have noNewline : '\n' ∉ header.toList := safe
      simp [content, noNewline]
  | closing => decide

theorem LineKind.head_content_ne_space {kind : LineKind} (safe : kind.IsSafe) :
    ∀ first ∈ kind.content.toList.head?, first ≠ ' ' := by
  cases kind with
  | bare text => exact fun first member => (safe.2.1 first member).1
  | form header => simp [content]
  | opening header => simp [content]
  | closing => simp [content]

theorem LineKind.content_ne_closing {kind : LineKind} (safe : kind.IsSafe)
    (noClosing : kind ≠ .closing) : kind.content.toList ≠ [')'] := by
  cases kind with
  | bare text =>
      intro same
      exact safe.2.2 (String.toList_inj.mp same)
  | form header => simp [content]
  | opening header => simp [content]
  | closing => exact absurd rfl noClosing

/-! ## Lines and their depths -/

/-- A line with its depth, and without its indentation. -/
structure RawLine where
  depth : Nat
  content : List Char
  deriving DecidableEq

/-- The line without its indentation. -/
def RawLine.ofCharacters (width : Nat) (characters : List Char) : RawLine where
  depth := (characters.takeWhile (· = ' ')).length / width
  content := characters.dropWhile (· = ' ')

/-- The lines of a text. Nothing stands after the end of the last one. -/
def rawLines (width : Nat) (text : String) : List RawLine :=
  (text.toList.splitOn '\n').dropLast.map (.ofCharacters width)

/-- What remains of a line when its indentation is read. -/
def WrittenLine.raw (line : WrittenLine) : RawLine := ⟨line.depth, line.kind.content.toList⟩

theorem splitOn_flatMap {lines : List (List Char)} (noNewline : ∀ line ∈ lines, '\n' ∉ line) :
    (lines.flatMap (· ++ ['\n'])).splitOn '\n' = lines ++ [[]] := by
  induction lines with
  | nil => simp
  | cons line rest ih =>
      obtain ⟨head, tail⟩ := List.forall_mem_cons.mp noNewline
      rw [List.flatMap_cons, List.append_assoc, List.singleton_append,
        List.splitOn_append_cons_self_of_not_mem head, ih tail, List.cons_append]

/-- The indentation is all the blanks at the front, since no safe line starts with one. -/
theorem ofCharacters_indented {width : Nat} (positive : 0 < width) {line : WrittenLine}
    (safe : line.kind.IsSafe) :
    RawLine.ofCharacters width
      (List.replicate (line.depth * width) ' ' ++ line.kind.content.toList) = line.raw := by
  have blanks : ∀ character ∈ List.replicate (line.depth * width) ' ',
      decide (character = ' ') = true := by simp
  have notBlank := LineKind.head_content_ne_space safe
  rw [RawLine.ofCharacters, List.takeWhile_append_of_pos blanks,
    List.dropWhile_append_of_pos blanks, WrittenLine.raw]
  cases content : line.kind.content.toList with
  | nil => simp [positive]
  | cons first rest =>
      have other : first ≠ ' ' := notBlank first (by rw [content]; rfl)
      simp [other, positive]

/-- **The lines and depths of a rendering are those of its nodes.** -/
theorem rawLines_render {options : LayoutOptions} (positive : 1 ≤ options.indentWidth)
    {nodes : List Node} (safe : Node.AreLineSafe nodes) :
    rawLines options.indentWidth (Node.render nodes options) =
      (Node.writtenAll 0 nodes).map WrittenLine.raw := by
  have linesSafe := isSafe_writtenAll 0 nodes safe
  have split : ((Node.writtenAll 0 nodes).flatMap (·.characters options)).splitOn '\n' =
      (Node.writtenAll 0 nodes).map (fun line =>
        List.replicate (line.depth * options.indentWidth) ' ' ++ line.kind.content.toList) ++
        [[]] := by
    rw [← splitOn_flatMap, List.flatMap_map]
    · rfl
    · intro characters member
      obtain ⟨line, inside, rfl⟩ := List.mem_map.mp member
      simp [LineKind.newline_not_mem_content (linesSafe line inside)]
  rw [rawLines, toList_render, split, List.dropLast_concat, List.map_map]
  exact List.map_congr_left fun line inside =>
    ofCharacters_indented positive (linesSafe line inside)

/-! ## Kinds of lines -/

/-- Whether a line comes right after the opening line of a group at the given depth. -/
def RawLine.isInside (depth : Nat) (raw : RawLine) : Bool :=
  raw.depth = depth + 1 || (raw.depth = depth && raw.content = [')'])

/-- The line with its kind, given the line after it. -/
def RawLine.recognize (raw : RawLine) (next : Option RawLine) : WrittenLine where
  depth := raw.depth
  kind :=
    if raw.content = [')'] then .closing
    else
      match raw.content with
      | '(' :: rest =>
        if next.any (·.isInside raw.depth) then .opening (String.ofList rest)
        else .form (String.ofList rest.dropLast)
      | content => .bare (String.ofList content)

/-- The lines with their kinds. -/
def recognizeAll : List RawLine → List WrittenLine
  | [] => []
  | raw :: rest => raw.recognize rest.head? :: recognizeAll rest

/-- The lines of a text, with the depth and the kind of each. -/
def readLines (width : Nat) (text : String) : List WrittenLine := recognizeAll (rawLines width text)

section Recognize

variable (depth : Nat) (next : Option RawLine)

theorem recognize_bare {text : String} (safe : IsBareText text) :
    (WrittenLine.raw ⟨depth, .bare text⟩).recognize next = ⟨depth, .bare text⟩ := by
  obtain ⟨-, first, notClosing⟩ := safe
  have notClosing : text.toList ≠ [')'] := fun same => notClosing (String.toList_inj.mp same)
  cases content : text.toList with
  | nil =>
      have empty : String.ofList [] = text := by rw [← content, String.ofList_toList]
      simp [RawLine.recognize, WrittenLine.raw, LineKind.content, content, empty]
  | cons character rest =>
      have noParenthesis : character ≠ '(' := (first character (by rw [content]; rfl)).2
      have whole : String.ofList (character :: rest) = text := by
        rw [← content, String.ofList_toList]
      rw [content] at notClosing
      simp [RawLine.recognize, WrittenLine.raw, LineKind.content, content, noParenthesis, whole,
        notClosing]

theorem recognize_form (header : String) (outside : next.any (·.isInside depth) = false) :
    (WrittenLine.raw ⟨depth, .form header⟩).recognize next = ⟨depth, .form header⟩ := by
  simp [RawLine.recognize, WrittenLine.raw, LineKind.content, outside]

theorem recognize_opening (header : String) (inside : next.any (·.isInside depth) = true) :
    (WrittenLine.raw ⟨depth, .opening header⟩).recognize next = ⟨depth, .opening header⟩ := by
  simp [RawLine.recognize, WrittenLine.raw, LineKind.content, inside]

theorem recognize_closing :
    (WrittenLine.raw ⟨depth, .closing⟩).recognize next = ⟨depth, .closing⟩ := by
  simp [RawLine.recognize, WrittenLine.raw, LineKind.content]

end Recognize

mutual

/-- The first line of a node is at the depth of the node, and closes nothing. -/
theorem head_written (depth : Nat) : ∀ node : Node, ∀ first ∈ (node.written depth).head?,
    first.depth = depth ∧ first.kind ≠ .closing
  | .leaf _ _, _, member | .form _ _, _, member | .group _ _ _, _, member => by
      obtain rfl := Option.mem_some_iff.mp member
      exact ⟨rfl, LineKind.noConfusion⟩
  | .fragment children _, first, member => head_writtenAll depth children first member

theorem head_writtenAll (depth : Nat) : ∀ nodes : List Node,
    ∀ first ∈ (Node.writtenAll depth nodes).head?, first.depth = depth ∧ first.kind ≠ .closing
  | [], _, member => absurd member (Option.not_mem_none _)
  | node :: rest, first, member => by
      rw [Node.writtenAll, List.head?_append, Option.mem_def, Option.or_eq_some_iff] at member
      rcases member with own | ⟨-, below⟩
      · exact head_written depth node first own
      · exact head_writtenAll depth rest first below

end

/-- No line after a whole node at some depth is inside of a group that was opened there. -/
def Outside (depth : Nat) (rest : List RawLine) : Prop :=
  ∀ next ∈ rest.head?, next.isInside depth = false

theorem outside_writtenAll {depth : Nat} {nodes : List Node} (safe : Node.AreLineSafe nodes)
    {rest : List RawLine} (outside : Outside depth rest) :
    Outside depth ((Node.writtenAll depth nodes).map WrittenLine.raw ++ rest) := by
  cases lines : Node.writtenAll depth nodes with
  | nil => exact outside
  | cons first others =>
      have member : first ∈ (Node.writtenAll depth nodes).head? := by rw [lines]; rfl
      obtain ⟨atDepth, noClosing⟩ := head_writtenAll depth nodes first member
      have content := LineKind.content_ne_closing
        (isSafe_writtenAll depth nodes safe first (List.mem_of_mem_head? member)) noClosing
      intro next same
      obtain rfl := Option.mem_some_iff.mp same
      simp [RawLine.isInside, WrittenLine.raw, atDepth, content]

/-- The line after an opening one is the first line inside, or the closing one. -/
theorem any_isInside (depth : Nat) (children : List Node) (rest : List RawLine) :
    ((Node.writtenAll (depth + 1) children ++ [WrittenLine.mk depth .closing]).map
      WrittenLine.raw ++ rest).head?.any (·.isInside depth) = true := by
  cases lines : Node.writtenAll (depth + 1) children with
  | nil => simp [WrittenLine.raw, RawLine.isInside, LineKind.content]
  | cons first others =>
      have member : first ∈ (Node.writtenAll (depth + 1) children).head? := by rw [lines]; rfl
      have deeper := (head_writtenAll (depth + 1) children first member).1
      simp [WrittenLine.raw, RawLine.isInside, deeper]

theorem outside_closing (depth : Nat) (rest : List RawLine) :
    Outside (depth + 1) (WrittenLine.raw ⟨depth, .closing⟩ :: rest) := by
  intro next same
  obtain rfl := Option.mem_some_iff.mp same
  have notDeeper : depth ≠ depth + 1 + 1 := by omega
  simp [RawLine.isInside, WrittenLine.raw, notDeeper]

mutual

/-- **The kinds of the lines of a node are recognized**, whatever comes after the node. -/
theorem recognizeAll_written (depth : Nat) {rest : List RawLine} (outside : Outside depth rest) :
    ∀ node : Node, node.IsLineSafe →
      recognizeAll ((node.written depth).map WrittenLine.raw ++ rest) =
        node.written depth ++ recognizeAll rest
  | .leaf _ _, safe => congrArg (· :: recognizeAll rest) (recognize_bare depth rest.head? safe)
  | .form header _, _ => by
      have noneInside : rest.head?.any (·.isInside depth) = false := by
        rw [Option.any_eq_false]
        exact outside
      exact congrArg (· :: recognizeAll rest)
        (recognize_form depth rest.head? (joined header) noneInside)
  | .group header children _, ⟨_, safe⟩ => by
      have opening := recognize_opening depth _ (joined header) (any_isInside depth children rest)
      have below := recognizeAll_writtenAll (depth + 1) (outside_closing depth rest) children safe
      have closing := recognize_closing depth rest.head?
      rw [Node.written, List.map_cons, List.cons_append, recognizeAll, opening, List.map_append,
        List.append_assoc, List.map_singleton, List.singleton_append, below, recognizeAll, closing]
      simp
  | .fragment children _, safe => recognizeAll_writtenAll depth outside children safe

theorem recognizeAll_writtenAll (depth : Nat) {rest : List RawLine}
    (outside : Outside depth rest) : ∀ nodes : List Node, Node.AreLineSafe nodes →
      recognizeAll ((Node.writtenAll depth nodes).map WrittenLine.raw ++ rest) =
        Node.writtenAll depth nodes ++ recognizeAll rest
  | [], _ => rfl
  | node :: others, ⟨safe, othersSafe⟩ => by
      rw [Node.writtenAll, List.map_append, List.append_assoc,
        recognizeAll_written depth (outside_writtenAll othersSafe outside) node safe,
        recognizeAll_writtenAll depth outside others othersSafe, List.append_assoc]

end

/-- **The lines of a rendering are read back**, each with its depth and its kind. -/
theorem readLines_render {options : LayoutOptions} (positive : 1 ≤ options.indentWidth)
    {nodes : List Node} (safe : Node.AreLineSafe nodes) :
    readLines options.indentWidth (Node.render nodes options) = Node.writtenAll 0 nodes := by
  have nothing : Outside 0 [] := fun _ member => absurd member (Option.not_mem_none _)
  have recognized := recognizeAll_writtenAll 0 nothing nodes safe
  rw [readLines, rawLines_render positive safe]
  simpa [recognizeAll] using recognized

/-! ## Shapes -/

/-- What the text shows of a tree: fragments stand for their children, and a header is one text. -/
inductive Shape where
  | line (text : String)
  | form (header : String)
  | group (header : String) (children : List Shape)

mutual

/-- The shapes that a node shows as. -/
def Node.shapes : Node → List Shape
  | .leaf text _ => [.line text]
  | .form header _ => [.form (joined header)]
  | .group header children _ => [.group (joined header) (Node.shapesOf children)]
  | .fragment children _ => Node.shapesOf children

/-- The shapes that a list of nodes shows as. -/
def Node.shapesOf : List Node → List Shape
  | [] => []
  | node :: rest => node.shapes ++ Node.shapesOf rest

end

/-- The shapes read so far: those of the innermost open group, the last one first, and for each
open group its header and the shapes before it. -/
structure ShapeReader where
  siblings : List Shape := []
  outer : List (String × List Shape) := []

namespace ShapeReader

/-- The shapes after one more line. -/
def read (reader : ShapeReader) : LineKind → ShapeReader
  | .bare text => { reader with siblings := .line text :: reader.siblings }
  | .form header => { reader with siblings := .form header :: reader.siblings }
  | .opening header => ⟨[], (header, reader.siblings) :: reader.outer⟩
  | .closing =>
    match reader.outer with
    | [] => reader
    | (header, before) :: outer => ⟨.group header reader.siblings.reverse :: before, outer⟩

/-- The shapes after some lines. -/
def readAll (reader : ShapeReader) (lines : List WrittenLine) : ShapeReader :=
  lines.foldl (fun reader line => reader.read line.kind) reader

theorem readAll_append (reader : ShapeReader) (first second : List WrittenLine) :
    reader.readAll (first ++ second) = (reader.readAll first).readAll second :=
  List.foldl_append

mutual

/-- **The lines of a node add its shapes**, and leave no group open. -/
theorem readAll_written (reader : ShapeReader) (depth : Nat) : ∀ node : Node,
    reader.readAll (node.written depth) =
      { reader with siblings := node.shapes.reverse ++ reader.siblings }
  | .leaf _ _ => rfl
  | .form _ _ => rfl
  | .group header children marks => by
      have below := readAll_writtenAll ⟨[], (joined header, reader.siblings) :: reader.outer⟩
        (depth + 1) children
      have opened : reader.readAll ((Node.group header children marks).written depth) =
          ((ShapeReader.mk [] ((joined header, reader.siblings) :: reader.outer)).readAll
            (Node.writtenAll (depth + 1) children)).read .closing := by
        rw [Node.written, readAll, List.foldl_cons]
        exact readAll_append _ _ [⟨depth, .closing⟩]
      rw [opened, below]
      simp [read, Node.shapes]
  | .fragment children _ => readAll_writtenAll reader depth children

theorem readAll_writtenAll (reader : ShapeReader) (depth : Nat) : ∀ nodes : List Node,
    reader.readAll (Node.writtenAll depth nodes) =
      { reader with siblings := (Node.shapesOf nodes).reverse ++ reader.siblings }
  | [] => rfl
  | node :: rest => by
      rw [Node.writtenAll, readAll_append, readAll_written, readAll_writtenAll, Node.shapesOf]
      simp

end

end ShapeReader

/-- The shapes in a text. -/
def readShapes (width : Nat) (text : String) : List Shape :=
  (ShapeReader.readAll {} (readLines width text)).siblings.reverse

/-- **The shapes of a rendering are read back.** -/
theorem readShapes_render {options : LayoutOptions} (positive : 1 ≤ options.indentWidth)
    {nodes : List Node} (safe : Node.AreLineSafe nodes) :
    readShapes options.indentWidth (Node.render nodes options) = Node.shapesOf nodes := by
  rw [readShapes, readLines_render positive safe, ShapeReader.readAll_writtenAll]
  simp

/-- What a rendering keeps, at any indentation: every line has its depth and its kind in the text,
lists that render alike show as the same shapes, and a form never renders like a group. -/
theorem render_recoverable (options : LayoutOptions) (positive : 1 ≤ options.indentWidth) :
    (∀ nodes : List Node, Node.AreLineSafe nodes →
      readLines options.indentWidth (Node.render nodes options) = Node.writtenAll 0 nodes) ∧
    (∀ first second : List Node, Node.AreLineSafe first → Node.AreLineSafe second →
      Node.render first options = Node.render second options →
        Node.shapesOf first = Node.shapesOf second) ∧
    ∀ (formHeader groupHeader : List String) (formMarks groupMarks : Marks) (children : List Node),
      (Node.form formHeader formMarks).IsLineSafe →
        (Node.group groupHeader children groupMarks).IsLineSafe →
          Node.render [.form formHeader formMarks] options ≠
            Node.render [.group groupHeader children groupMarks] options := by
  have injective : ∀ first second : List Node, Node.AreLineSafe first → Node.AreLineSafe second →
      Node.render first options = Node.render second options →
        Node.shapesOf first = Node.shapesOf second := by
    intro first second safeFirst safeSecond same
    calc
      Node.shapesOf first
        = readShapes options.indentWidth (Node.render first options) :=
          (readShapes_render positive safeFirst).symm
      _ = readShapes options.indentWidth (Node.render second options) := by rw [same]
      _ = Node.shapesOf second := readShapes_render positive safeSecond
  refine ⟨fun nodes safe => readLines_render positive safe, injective, ?_⟩
  intro formHeader groupHeader formMarks groupMarks children safeForm safeGroup same
  have shapes := injective [.form formHeader formMarks] [.group groupHeader children groupMarks]
    ⟨safeForm, trivial⟩ ⟨safeGroup, trivial⟩ same
  simp [Node.shapesOf, Node.shapes] at shapes

/-- An empty group whose header ends in a parenthesis, and the form that has the same first line. -/
theorem render_recoverable_parenthesis :
    1 ≤ ({} : LayoutOptions).indentWidth ∧
      Node.render [.form ["nop"] {}] {} ≠ Node.render [.group ["nop)"] [] {}] {} := by
  have formSafe : ∀ token ∈ ["nop"], '\n' ∉ token.toList := by decide
  have groupSafe : ∀ token ∈ ["nop)"], '\n' ∉ token.toList := by decide
  exact ⟨by decide, (render_recoverable {} (by decide)).2.2 ["nop"] ["nop)"] {} {} [] formSafe
    ⟨groupSafe, trivial⟩⟩

end WasmWorkshop
