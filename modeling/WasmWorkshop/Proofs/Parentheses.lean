import Mathlib.Data.List.Basic
import WasmWorkshop.Proofs.WrittenLines

/-!
# Balanced texts

A text is balanced if no prefix of it has more closing parentheses than opening ones, and the whole
has as many of the one as of the other (`IsBalanced`). Texts without parentheses are balanced
(`LacksParentheses.isBalanced`), balanced texts may follow each other (`IsBalanced.append`), and one
may be put into parentheses (`IsBalanced.enclosed`).

The opening line of a group is not balanced, and neither is its closing line. So the balance of a
rendering does not come line by line but tree by tree: if every bare line and every header token is
balanced (`Node.HasBalancedTexts`), then the lines of a tree are balanced as a whole, at any depth
and with any indentation (`isBalanced_written`).
-/

set_option autoImplicit false

namespace WasmWorkshop

/-! ## Balance -/

/-- A text whose parentheses are balanced. -/
structure IsBalanced (characters : List Char) : Prop where
  /-- Every prefix has at least as many opening parentheses as closing ones. -/
  covered : ∀ start, start <+: characters → start.count ')' ≤ start.count '('
  /-- The whole has as many of the one as of the other. -/
  equal : characters.count '(' = characters.count ')'

/-- A prefix of a whole ends in its first part, or goes beyond it. -/
theorem prefix_append_cases {first second start : List Char}
    (isPrefix : start <+: first ++ second) :
    start <+: first ∨ ∃ more, more <+: second ∧ start = first ++ more := by
  rcases List.prefix_or_prefix_of_prefix isPrefix (List.prefix_append first second) with
    within | ⟨more, rfl⟩
  · exact .inl within
  · exact .inr ⟨more, (List.prefix_append_right_inj first).mp isPrefix, rfl⟩

namespace IsBalanced

variable {characters first second inside : List Char}

theorem of_noParentheses
    (none : ∀ character ∈ characters, character ≠ '(' ∧ character ≠ ')') :
    IsBalanced characters where
  covered := by
    intro start isPrefix
    rw [List.count_eq_zero.mpr fun member => (none _ (isPrefix.subset member)).2 rfl]
    exact Nat.zero_le _
  equal := by
    rw [List.count_eq_zero.mpr fun member => (none _ member).1 rfl,
      List.count_eq_zero.mpr fun member => (none _ member).2 rfl]

theorem nil : IsBalanced [] := .of_noParentheses (List.forall_mem_nil _)

/-- **Balanced texts may follow each other.** -/
theorem append (firstBalanced : IsBalanced first) (secondBalanced : IsBalanced second) :
    IsBalanced (first ++ second) where
  covered := by
    intro start isPrefix
    rcases prefix_append_cases isPrefix with within | ⟨more, within, rfl⟩
    · exact firstBalanced.covered start within
    · rw [List.count_append, List.count_append, firstBalanced.equal]
      exact Nat.add_le_add_left (secondBalanced.covered more within) _
  equal := by
    rw [List.count_append, List.count_append, firstBalanced.equal, secondBalanced.equal]

/-- **A balanced text may be put into parentheses.** -/
theorem enclosed (balanced : IsBalanced inside) : IsBalanced ('(' :: (inside ++ [')'])) where
  covered := by
    intro start isPrefix
    rcases List.prefix_cons_iff.mp isPrefix with rfl | ⟨rest, rfl, restPrefix⟩
    · exact Nat.le_refl _
    rw [List.count_cons_self, List.count_cons_of_ne (by decide)]
    rcases prefix_append_cases restPrefix with within | ⟨more, within, rfl⟩
    · exact Nat.le_succ_of_le (balanced.covered rest within)
    · have atMost : more.count ')' ≤ 1 := within.sublist.count_le ')'
      rw [List.count_append, List.count_append, balanced.equal]
      omega
  equal := by
    rw [List.count_cons_self, List.count_cons_of_ne (by decide), List.count_append,
      List.count_append, balanced.equal]
    rfl

end IsBalanced

/-! ## Texts without parentheses -/

/-- No character of the text is a parenthesis. -/
def LacksParentheses (text : String) : Prop :=
  ∀ character ∈ text.toList, character ≠ '(' ∧ character ≠ ')'

instance (text : String) : Decidable (LacksParentheses text) := List.decidableBAll _ text.toList

theorem LacksParentheses.isBalanced {text : String} (lacks : LacksParentheses text) :
    IsBalanced text.toList := .of_noParentheses lacks

theorem lacksParentheses_append {first second : String} :
    LacksParentheses (first ++ second) ↔ LacksParentheses first ∧ LacksParentheses second := by
  rw [LacksParentheses, String.toList_append]
  exact List.forall_mem_append

/-- A text all of whose characters are found in one without parentheses. -/
theorem LacksParentheses.of_subset {text : String} (lacks : LacksParentheses text)
    {characters : List Char} (subset : characters ⊆ text.toList) :
    LacksParentheses (String.ofList characters) := by
  intro character member
  rw [String.toList_ofList] at member
  exact lacks character (subset member)

/-- A token that stands in parentheses. -/
theorem isBalanced_token {token : String} {inside : List Char} (balanced : IsBalanced inside)
    (shape : token.toList = '(' :: (inside ++ [')'])) : IsBalanced token.toList := by
  rw [shape]
  exact balanced.enclosed

theorem isBalanced_joined {header : List String}
    (balanced : ∀ token ∈ header, IsBalanced token.toList) :
    IsBalanced (joined header).toList := by
  have blank : LacksParentheses " " := by decide
  induction header with
  | nil => exact IsBalanced.nil
  | cons token rest ih =>
      obtain ⟨head, tail⟩ := List.forall_mem_cons.mp balanced
      cases rest with
      | nil => exact head
      | cons next others =>
          rw [joined, String.intercalate_cons_cons, String.toList_append, String.toList_append]
          exact (head.append blank.isBalanced).append (ih tail)

/-! ## Trees with balanced texts -/

/-- Every bare line and every header token in the tree is balanced. -/
inductive Node.HasBalancedTexts : Node → Prop where
  | leaf {text : String} {marks : Marks} (balanced : IsBalanced text.toList) :
      (Node.leaf text marks).HasBalancedTexts
  | form {header : List String} {marks : Marks}
      (balanced : ∀ token ∈ header, IsBalanced token.toList) :
      (Node.form header marks).HasBalancedTexts
  | group {header : List String} {children : List Node} {marks : Marks}
      (balanced : ∀ token ∈ header, IsBalanced token.toList)
      (inside : ∀ child ∈ children, child.HasBalancedTexts) :
      (Node.group header children marks).HasBalancedTexts
  | fragment {children : List Node} {marks : Marks}
      (inside : ∀ child ∈ children, child.HasBalancedTexts) :
      (Node.fragment children marks).HasBalancedTexts

namespace Node.HasBalancedTexts

variable {node : Node}

/-- Marks are no text. -/
theorem mapMarks (balanced : node.HasBalancedTexts) (change : Marks → Marks) :
    (node.mapMarks change).HasBalancedTexts := by
  cases balanced with
  | leaf balanced => exact .leaf balanced
  | form balanced => exact .form balanced
  | group balanced inside => exact .group balanced inside
  | fragment inside => exact .fragment inside

theorem withSymbol (balanced : node.HasBalancedTexts) (symbol : SymbolUse) :
    (node.withSymbol symbol).HasBalancedTexts := balanced.mapMarks _

theorem withScope (balanced : node.HasBalancedTexts) (scope : Scope) :
    (node.withScope scope).HasBalancedTexts := balanced.mapMarks _

theorem declaring (balanced : node.HasBalancedTexts) (space : Namespace) (name : String) :
    (node.declaring space name).HasBalancedTexts := balanced.mapMarks _

theorem referring (balanced : node.HasBalancedTexts) (space : Namespace) (name : String) :
    (node.referring space name).HasBalancedTexts := balanced.mapMarks _

end Node.HasBalancedTexts

/-- The characters of lines. -/
def charactersOf (options : LayoutOptions) (lines : List WrittenLine) : List Char :=
  lines.flatMap (·.characters options)

theorem charactersOf_append (options : LayoutOptions) (first second : List WrittenLine) :
    charactersOf options (first ++ second) =
      charactersOf options first ++ charactersOf options second := List.flatMap_append

theorem isBalanced_indentation (count : Nat) : IsBalanced (List.replicate count ' ') := by
  refine .of_noParentheses ?_
  intro character member
  rw [List.eq_of_mem_replicate member]
  decide

/-- A line with balanced content. -/
theorem isBalanced_line (options : LayoutOptions) (depth : Nat) {kind : LineKind}
    (balanced : IsBalanced kind.content.toList) :
    IsBalanced (charactersOf options [⟨depth, kind⟩]) := by
  have lineEnd : LacksParentheses "\n" := by decide
  rw [charactersOf, List.flatMap_singleton, WrittenLine.characters]
  exact ((isBalanced_indentation _).append balanced).append lineEnd.isBalanced

theorem isBalanced_writtenAll (options : LayoutOptions) {nodes : List Node}
    (each : ∀ node ∈ nodes, ∀ depth, IsBalanced (charactersOf options (node.written depth)))
    (depth : Nat) : IsBalanced (charactersOf options (Node.writtenAll depth nodes)) := by
  induction nodes with
  | nil => exact IsBalanced.nil
  | cons node nodes ih =>
      obtain ⟨head, tail⟩ := List.forall_mem_cons.mp each
      rw [Node.writtenAll, charactersOf_append]
      exact (head depth).append (ih tail)

/-- **The lines of a tree with balanced texts are balanced.** -/
theorem isBalanced_written (options : LayoutOptions) {node : Node}
    (balanced : node.HasBalancedTexts) (depth : Nat) :
    IsBalanced (charactersOf options (node.written depth)) := by
  induction balanced generalizing depth with
  | leaf balanced => exact isBalanced_line options depth balanced
  | form balanced =>
      refine isBalanced_line options depth ?_
      rw [LineKind.content, String.toList_append, String.toList_append]
      exact (isBalanced_joined balanced).enclosed
  | @group header children marks balanced inside ih =>
      have lineEnd : LacksParentheses "\n" := by decide
      have indentation := isBalanced_indentation (depth * options.indentWidth)
      have body := isBalanced_writtenAll options ih (depth + 1)
      -- The parentheses of the two outer lines enclose the header, the lines between and what
      -- stands before the last parenthesis.
      have enclosed := ((((isBalanced_joined balanced).append lineEnd.isBalanced).append
        body).append indentation).enclosed
      have whole := (indentation.append enclosed).append lineEnd.isBalanced
      have shape : charactersOf options ((Node.group header children marks).written depth) =
          List.replicate (depth * options.indentWidth) ' ' ++
            ('(' :: ((joined header).toList ++ "\n".toList ++
              charactersOf options (Node.writtenAll (depth + 1) children) ++
              List.replicate (depth * options.indentWidth) ' ' ++ [')'])) ++ "\n".toList := by
        simp [Node.written, charactersOf, WrittenLine.characters, LineKind.content]
      rwa [shape]
  | fragment inside ih =>
      rw [Node.written]
      exact isBalanced_writtenAll options ih depth

/-- **A rendering of trees with balanced texts is balanced**, whatever the indentation is. -/
theorem isBalanced_render {nodes : List Node} (balanced : ∀ node ∈ nodes, node.HasBalancedTexts)
    (options : LayoutOptions) : IsBalanced (Node.render nodes options).toList := by
  rw [toList_render]
  exact isBalanced_writtenAll options (fun node member => isBalanced_written options
    (balanced node member)) 0

end WasmWorkshop
