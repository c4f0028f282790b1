import WasmWorkshop.Symbol

/-!
# Diagnostics and reports

A diagnostic states one thing that is wrong with a symbol: its kind, a code that stands for the
kind, the symbol, the function it is in, and a message. A report keeps the first twenty diagnostics
and counts all of them (`Report.push`), so a module with many errors still fails, and its text says
how many are not listed. The count of a report that was read from outside may also be lower than
the number of diagnostics in it; the text then lists them all.
-/

set_option autoImplicit false

namespace WasmWorkshop

/-- What can be wrong with a symbol. -/
inductive DiagnosticKind where
  | undeclaredSymbol
  | duplicateDeclaration
  | arityMismatch
  deriving DecidableEq

/-- The code that stands for a kind. -/
def DiagnosticKind.code : DiagnosticKind → UInt16
  | .undeclaredSymbol => 100
  | .duplicateDeclaration => 101
  | .arityMismatch => 102

/-- A diagnostic code as it is shown. -/
def codeText (code : UInt16) : String := "W" ++ toString code.toNat

/-- One problem with a symbol. -/
structure Diagnostic where
  kind : DiagnosticKind
  code : UInt16
  space : Namespace
  name : String
  /-- The function that the problem is in, if it is in one. -/
  function : Option String
  message : String
  deriving DecidableEq

namespace Diagnostic

/-- A diagnostic with the code of its kind, outside of any function. -/
def ofKind (kind : DiagnosticKind) (space : Namespace) (name message : String) : Diagnostic :=
  ⟨kind, kind.code, space, name, none, message⟩

/-- The diagnostic placed in a function. -/
def inFunction (diagnostic : Diagnostic) (function : String) : Diagnostic :=
  { diagnostic with function := some function }

/-- A name that is declared nowhere it could be seen from. -/
def undeclared (space : Namespace) (name : String) : Diagnostic :=
  ofKind .undeclaredSymbol space name ("undeclared " ++ space.noun ++ " " ++ sigil name)

/-- A name that is declared for the second time. -/
def duplicate (space : Namespace) (name : String) : Diagnostic :=
  ofKind .duplicateDeclaration space name ("duplicate " ++ space.noun ++ " " ++ sigil name)

/-- A call with the wrong number of arguments. -/
def mismatch (space : Namespace) (name : String) (actual expected : Nat) : Diagnostic :=
  ofKind .arityMismatch space name
    ("call to " ++ sigil name ++ " passes " ++ toString actual ++ " argument(s), expected " ++
      toString expected)

/-- The diagnostic in one line. -/
def text (diagnostic : Diagnostic) : String :=
  match diagnostic.function with
  | some function =>
    codeText diagnostic.code ++ " in " ++ sigil function ++ ": " ++ diagnostic.message
  | none => codeText diagnostic.code ++ ": " ++ diagnostic.message

end Diagnostic

/-- The number of diagnostics that a report keeps. -/
def reportLimit : Nat := 20

/-- The diagnostics of a check, or as many of them as a report keeps. -/
structure Report where
  errors : List Diagnostic := []
  /-- How many diagnostics there were, kept or not. -/
  total : Nat := 0
  deriving DecidableEq

namespace Report

/-- The report of a check that found nothing. -/
def empty : Report := {}

/-- The report with one more diagnostic, which is kept if there is room. -/
def push (report : Report) (diagnostic : Diagnostic) : Report :=
  { errors :=
      if report.errors.length < reportLimit then report.errors ++ [diagnostic] else report.errors
    total := report.total + 1 }

/-- The report of a sequence of diagnostics. -/
def ofList (diagnostics : List Diagnostic) : Report := diagnostics.foldl push empty

/-- Whether anything was wrong. -/
def hasErrors (report : Report) : Bool := 0 < report.total

/-- How many of the kept diagnostics are of a kind. -/
def count (report : Report) (kind : DiagnosticKind) : Nat :=
  report.errors.countP (·.kind = kind)

/-- Success if nothing was wrong, else the report. -/
def verdict (report : Report) : Except Report Unit :=
  if report.hasErrors then .error report else .ok ()

/-- The lines of a report after the first. -/
def lines (report : Report) : List String :=
  report.errors.map Diagnostic.text ++
    if report.errors.length < report.total then
      ["... and " ++ toString (report.total - report.errors.length) ++ " more"]
    else []

/-- The report as text: a heading, then one indented line for each kept diagnostic, then how many
there are besides. -/
def text (report : Report) : String :=
  toString report.total ++ " symbol error(s)" ++
    String.join (report.lines.map ("\n  " ++ ·))

end Report

end WasmWorkshop
