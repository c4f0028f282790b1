import WasmWorkshop.Proofs.Trail
import WasmWorkshop.Proofs.WriterRuns

/-!
# Fragments without marks are not seen

A fragment that carries no symbols and opens no scope may be replaced by its children, wherever it
stands (`Spliced`). Nothing that is read off a tree tells the difference: the trail is the same, so
the check goes the same way with the same scopes open, and the lines are the same at every depth, so
every writer ends in the same state (`splicing_unseen`).

Both readings of a list of nodes are put together from those of its parts, and that of a node from
its own part and that of its children. So it is enough that a fragment by itself reads like its
children (`LooksLike.fragment_children`), and that looking alike is kept by what stands around
(`LooksLike.amid`, `LooksLike.inGroup`, `LooksLike.inFragment`).
-/

set_option autoImplicit false

namespace WasmWorkshop

/-- The second list of nodes is the first one with one fragment without marks replaced by its
children, on the top level or anywhere below. -/
inductive Spliced : List Node → List Node → Prop where
  | here (before children after : List Node) :
      Spliced (before ++ [.fragment children {}] ++ after) (before ++ children ++ after)
  | inGroup (before after : List Node) (header : List String) (marks : Marks)
      {first second : List Node} (below : Spliced first second) :
      Spliced (before ++ [.group header first marks] ++ after)
        (before ++ [.group header second marks] ++ after)
  | inFragment (before after : List Node) (marks : Marks) {first second : List Node}
      (below : Spliced first second) :
      Spliced (before ++ [.fragment first marks] ++ after)
        (before ++ [.fragment second marks] ++ after)

/-- Two lists of nodes in which the check meets the same and a writer writes the same. -/
structure LooksLike (first second : List Node) : Prop where
  trails : Node.trails first = Node.trails second
  lines : ∀ depth, Node.writtenAll depth first = Node.writtenAll depth second

namespace LooksLike

/-! ## What stands around -/

section Around

variable {first second : List Node}

theorem amid (alike : LooksLike first second) (before after : List Node) :
    LooksLike (before ++ first ++ after) (before ++ second ++ after) where
  trails := by simp only [Node.trails_append, alike.trails]
  lines := by
    intro depth
    simp only [writtenAll_append, alike.lines depth]

theorem inGroup (alike : LooksLike first second) (header : List String) (marks : Marks) :
    LooksLike [.group header first marks] [.group header second marks] where
  trails := by simp only [Node.trails_cons, Node.trail, alike.trails]
  lines := by
    intro depth
    simp only [Node.writtenAll, Node.written, alike.lines (depth + 1)]

theorem inFragment (alike : LooksLike first second) (marks : Marks) :
    LooksLike [.fragment first marks] [.fragment second marks] where
  trails := by simp only [Node.trails_cons, Node.trail, alike.trails]
  lines := by
    intro depth
    simp only [Node.writtenAll, Node.written, alike.lines depth]

end Around

/-- A fragment without marks adds nothing to its children. -/
theorem fragment_children (children : List Node) : LooksLike [.fragment children {}] children where
  trails := by
    rw [Node.trails_cons, Node.trails_nil, List.append_nil]
    rfl
  lines := by
    intro depth
    rw [Node.writtenAll, Node.writtenAll, List.append_nil, Node.written]

/-- **A list of nodes looks like the spliced one.** -/
theorem of_spliced {first second : List Node} (spliced : Spliced first second) :
    LooksLike first second := by
  induction spliced with
  | here before children after => exact (fragment_children children).amid before after
  | inGroup before after header marks _ ih => exact (ih.inGroup header marks).amid before after
  | inFragment before after marks _ ih => exact (ih.inFragment marks).amid before after

/-! ## What is read off -/

variable {first second : List Node}

theorem symbolErrors_eq (alike : LooksLike first second) :
    symbolErrors first = symbolErrors second := by
  simp only [symbolErrors, Node.uses, alike.trails]

theorem check_eq (alike : LooksLike first second) : checkSymbols first = checkSymbols second := by
  rw [checkSymbols, checkSymbols, alike.symbolErrors_eq]

/-- The groups are counted by their opening lines. -/
theorem groupCounts_eq (alike : LooksLike first second) :
    Node.groupCounts first = Node.groupCounts second := by
  rw [← countP_writtenAll choosesGroups_isOpening 0 first, alike.lines 0,
    countP_writtenAll choosesGroups_isOpening 0 second]

theorem nodes_eq (alike : LooksLike first second) (writer : LineWriter) :
    writer.nodes first = writer.nodes second := by
  rw [LineWriter.nodes_eq, LineWriter.nodes_eq, alike.lines]

theorem render_eq (alike : LooksLike first second) (options : LayoutOptions) :
    Node.render first options = Node.render second options := by
  rw [Node.render, Node.render, alike.nodes_eq]

end LooksLike

/-- **Nobody sees a fragment without marks.** With its children in its place the check finds the
same errors in the same order and ends with the same report, there are as many groups, the text is
the same for every width, and a writer in any state ends with the same text, the same depth and the
same numbers of opened and closed groups. -/
theorem splicing_unseen {first second : List Node} (spliced : Spliced first second) :
    symbolErrors first = symbolErrors second ∧
      checkSymbols first = checkSymbols second ∧
      Node.groupCounts first = Node.groupCounts second ∧
      (∀ options, Node.render first options = Node.render second options) ∧
      ∀ writer : LineWriter, writer.nodes first = writer.nodes second := by
  have alike := LooksLike.of_spliced spliced
  exact ⟨alike.symbolErrors_eq, alike.check_eq, alike.groupCounts_eq, alike.render_eq,
    alike.nodes_eq⟩

/-- A function with a loop around some nodes. -/
def loopAround (nodes : List Node) : List Node :=
  [.group ["func", "$f"]
    [.group ["loop", "$l"] nodes
      { symbols := [.declaring .label "l"], scope := some .label }]
    { symbols := [.declaring .function "f"], scope := some (.function "f") }]

/-- A local, and jumps to the loop and out of it. -/
def localAndJumps : List Node :=
  [(Node.ofHeader ["local", "$x", "i32"]).declaring .localVariable "x",
    (Node.ofText "br $l").referring .label "l", (Node.ofText "br $out").referring .label "out"]

/-- Inside of a loop a fragment keeps neither its local nor its jumps to itself. -/
theorem splicing_unseen_loop :
    Spliced (loopAround [.fragment localAndJumps {}]) (loopAround localAndJumps) ∧
      checkSymbols (loopAround [.fragment localAndJumps {}]) =
        checkSymbols (loopAround localAndJumps) ∧
      symbolErrors (loopAround [.fragment localAndJumps {}]) =
        [(Diagnostic.undeclared .label "out").inFunction "f"] := by
  have inLoop : Spliced [.fragment localAndJumps {}] localAndJumps := by
    have here := Spliced.here [] localAndJumps []
    rwa [List.append_nil] at here
  have spliced : Spliced (loopAround [.fragment localAndJumps {}]) (loopAround localAndJumps) :=
    .inGroup [] [] _ _ (.inGroup [] [] _ _ inLoop)
  obtain ⟨errors, check, -⟩ := splicing_unseen spliced
  exact ⟨spliced, check, errors.trans (by decide)⟩

/-- With a scope of its own a fragment is seen: a label that is declared in it ends with it. -/
example :
    let label := (Node.ofText "").declaring .label "l"
    let jump := (Node.ofText "br $l").referring .label "l"
    symbolErrors [.group ["block"] [label, jump] { scope := some .label }] = [] ∧
      symbolErrors [.group ["block"] [.fragment [label] { scope := some .label }, jump]
        { scope := some .label }] = [.undeclared .label "l"] := by
  decide

end WasmWorkshop
