import Mathlib.Algebra.Ring.Nat
import WasmWorkshop.Proofs.Trail

/-!
# What a report says

A report is built by pushing diagnostics, one after another. It keeps the first ones up to its limit
and counts all of them, so it fails as soon as there was one, whether it was kept or not. Its text
has a heading with the count, one line for each diagnostic that is kept, and a last line for those
that are not.

The number in the last line is the one that is missing: together with the diagnostics in the list
it makes up the count (`RestTold`). This is so for any report (`text_tells`), also one whose count
was read from outside and is lower than the number of its diagnostics. There is no last line then,
and nothing is subtracted.
-/

set_option autoImplicit false

namespace WasmWorkshop

/-- The kinds of diagnostics. -/
def DiagnosticKind.all : List DiagnosticKind :=
  [.undeclaredSymbol, .duplicateDeclaration, .arityMismatch]

namespace Report

/-- Every diagnostic is of one kind. -/
theorem sum_count (report : Report) :
    (DiagnosticKind.all.map report.count).sum = report.errors.length := by
  have counts : ∀ errors : List Diagnostic,
      (DiagnosticKind.all.map fun kind => errors.countP (·.kind = kind)).sum = errors.length := by
    intro errors
    induction errors with
    | nil => rfl
    | cons diagnostic rest ih =>
        simp only [DiagnosticKind.all, List.map_cons, List.map_nil, List.sum_cons, List.sum_nil,
          List.countP_cons, List.length_cons] at ih ⊢
        cases diagnostic.kind <;> simp <;> omega
  exact counts report.errors

/-! ## Lines -/

/-- The first line of a report. -/
def heading (total : Nat) : String := toString total ++ " symbol error(s)"

/-- The line of a diagnostic. -/
def entry (diagnostic : Diagnostic) : String := "  " ++ diagnostic.text

/-- The line for `more` diagnostics that are not listed. -/
def restLine (more : Nat) : String := "  ... and " ++ toString more ++ " more"

/-- What is said of those among `total` diagnostics that are not among the `listed` ones. -/
inductive RestTold (listed total : Nat) : List String → Prop where
  | nothing (covered : total ≤ listed) : RestTold listed total []
  | line {more : Nat} (some : 0 < more) (sum : listed + more = total) :
      RestTold listed total [restLine more]

/-- There is one way to tell it. -/
theorem RestTold.eq {listed total : Nat} {rest : List String} (told : RestTold listed total rest) :
    rest = if listed < total then [restLine (total - listed)] else [] := by
  cases told with
  | nothing covered => rw [if_neg (Nat.not_lt.mpr covered)]
  | @line more some sum =>
      rw [if_pos (by omega), show total - listed = more by omega]

/-- Pieces behind line breaks are lines. -/
theorem append_join (first : String) (pieces : List String) :
    first ++ String.join (pieces.map ("\n  " ++ ·)) =
      "\n".intercalate (first :: pieces.map ("  " ++ ·)) := by
  induction pieces generalizing first with
  | nil => simp
  | cons piece rest ih =>
      rw [List.map_cons, List.map_cons, String.join_cons, String.intercalate_cons_cons, ← ih]
      simp [← String.toList_inj]

/-- What is said of the rest in the lines of a report. -/
theorem exists_restTold (report : Report) :
    ∃ rest, RestTold report.errors.length report.total rest ∧
      report.lines.map ("  " ++ ·) = report.errors.map entry ++ rest := by
  rw [lines, List.map_append, List.map_map]
  split_ifs with missing
  · exact ⟨_, .line (Nat.sub_pos_of_lt missing) (Nat.add_sub_of_le (Nat.le_of_lt missing)), rfl⟩
  · exact ⟨_, .nothing (Nat.le_of_not_lt missing), rfl⟩

/-! ## Texts -/

theorem lineBreak_notMem_number (number : Nat) : '\n' ∉ (toString number).toList := by
  rw [Nat.toString_eq_repr, Nat.toList_repr]
  intro member
  exact absurd (Nat.isDigit_of_mem_toDigits (by decide) (by decide) member) (by decide)

theorem lineBreak_notMem_heading (total : Nat) : '\n' ∉ (heading total).toList := by
  rw [heading, String.toList_append, List.mem_append, not_or]
  exact ⟨lineBreak_notMem_number total, by decide⟩

theorem lineBreak_notMem_restLine (more : Nat) : '\n' ∉ (restLine more).toList := by
  rw [restLine, String.toList_append, String.toList_append, List.mem_append, List.mem_append,
    not_or, not_or]
  exact ⟨⟨by decide, lineBreak_notMem_number more⟩, by decide⟩

/-- No line has a line break in it if no diagnostic has one. -/
theorem lineBreak_notMem_lines {report : Report} {rest : List String}
    (told : RestTold report.errors.length report.total rest)
    (unbroken : ∀ diagnostic ∈ report.errors, '\n' ∉ diagnostic.text.toList) :
    ∀ line ∈ heading report.total :: (report.errors.map entry ++ rest), '\n' ∉ line.toList := by
  refine List.forall_mem_cons.mpr ⟨lineBreak_notMem_heading report.total,
    List.forall_mem_append.mpr ⟨?_, ?_⟩⟩
  · intro line member
    obtain ⟨diagnostic, listed, rfl⟩ := List.mem_map.mp member
    rw [entry, String.toList_append, List.mem_append, not_or]
    exact ⟨by decide, unbroken diagnostic listed⟩
  · cases told with
    | nothing => exact List.forall_mem_nil _
    | line => exact List.forall_mem_singleton.mpr (lineBreak_notMem_restLine _)

/-- What the text of a report says, with what it says of the rest. -/
structure TextTells (report : Report) (rest : List String) : Prop where
  told : RestTold report.errors.length report.total rest
  /-- There is a line for each diagnostic in the list. -/
  text : report.text =
    "\n".intercalate (heading report.total :: (report.errors.map entry ++ rest))
  /-- Where no diagnostic breaks its line, these are the lines that are read. -/
  read : (∀ diagnostic ∈ report.errors, '\n' ∉ diagnostic.text.toList) →
    report.text.toList.splitOn '\n' =
      (heading report.total :: (report.errors.map entry ++ rest)).map String.toList

/-- **The text of a report lists all of its diagnostics**, and tells how many there are besides. -/
theorem text_tells (report : Report) : ∃ rest, TextTells report rest := by
  obtain ⟨rest, told, lines⟩ := exists_restTold report
  have text : report.text =
      "\n".intercalate (heading report.total :: (report.errors.map entry ++ rest)) := by
    rw [← lines]
    exact append_join (heading report.total) report.lines
  refine ⟨rest, told, text, fun unbroken => ?_⟩
  rw [text, String.toList_intercalate]
  refine List.splitOn_intercalate '\n' ?_ (List.cons_ne_nil _ _)
  exact List.forall_mem_map.mpr (lineBreak_notMem_lines told unbroken)

/-! ## Pushing -/

theorem verdict_eq_error_iff (report : Report) :
    report.verdict = .error report ↔ 0 < report.total := by
  rw [verdict, hasErrors]
  split_ifs with wrong
  · exact ⟨fun _ => of_decide_eq_true wrong, fun _ => rfl⟩
  · exact ⟨fun passed => (by cases passed), fun some => absurd (decide_eq_true some) wrong⟩

theorem verdict_eq_ok_iff (report : Report) : report.verdict = .ok () ↔ report.total = 0 := by
  rw [verdict, hasErrors]
  split_ifs with wrong
  · have some := of_decide_eq_true wrong
    exact ⟨fun passed => (by cases passed), fun none => absurd none (Nat.ne_of_gt some)⟩
  · have none : ¬ 0 < report.total := fun some => wrong (decide_eq_true some)
    exact ⟨fun _ => Nat.eq_zero_of_not_pos none, fun _ => rfl⟩

/-- What a report says of the diagnostics that were pushed. -/
structure PushedTells (diagnostics : List Diagnostic) (report : Report) : Prop where
  /-- The first twenty are kept, in order. -/
  errors : report.errors = diagnostics.take 20
  stored : report.errors.length = min 20 diagnostics.length
  total : report.total = diagnostics.length
  hasErrors : report.hasErrors = true ↔ 0 < diagnostics.length
  /-- The report itself is the failure. -/
  fails : report.verdict = .error report ↔ 0 < diagnostics.length
  succeeds : report.verdict = .ok () ↔ diagnostics.length = 0
  kinds : (∀ kind, DiagnosticKind.all.count kind = 1) ∧
    (DiagnosticKind.all.map report.count).sum = report.errors.length
  text : report.text =
    "\n".intercalate (heading diagnostics.length ::
      ((diagnostics.take 20).map entry ++
        if 20 < diagnostics.length then [restLine (diagnostics.length - 20)] else []))

theorem pushedTells (diagnostics : List Diagnostic) :
    PushedTells diagnostics (diagnostics.foldl push empty) := by
  have pushed : diagnostics.foldl push empty = ⟨diagnostics.take 20, diagnostics.length⟩ :=
    ofList_eq diagnostics
  rw [pushed]
  have stored : (diagnostics.take 20).length = min 20 diagnostics.length := List.length_take
  refine ⟨rfl, stored, rfl, decide_eq_true_iff, verdict_eq_error_iff _, verdict_eq_ok_iff _,
    ⟨?_, sum_count _⟩, ?_⟩
  · intro kind
    cases kind <;> rfl
  · obtain ⟨rest, told, text, -⟩ := text_tells ⟨diagnostics.take 20, diagnostics.length⟩
    rw [text, told.eq, stored]
    dsimp only
    by_cases more : 20 < diagnostics.length
    · rw [if_pos more, if_pos (by omega), show min 20 diagnostics.length = 20 by omega]
    · rw [if_neg more, if_neg (by omega)]

/-- **A report tells of all that was pushed.** It keeps the first twenty diagnostics and counts all
of them, it fails if there was one, and its text tells how many are not listed. The text of any
other report tells this too, also where its count is too low. -/
theorem reports_tell (diagnostics : List Diagnostic) (report : Report) :
    PushedTells diagnostics (diagnostics.foldl push empty) ∧ ∃ rest, TextTells report rest :=
  ⟨pushedTells diagnostics, text_tells report⟩

end Report

end WasmWorkshop
