import WasmWorkshop.Node

/-!
# What the text of a module says about its symbols

An outline is a tree as its text shows it: headers, lines and nesting, and no marks
(`Node.outline`). This module reads symbols off outlines, by the words of a header or a line alone
(`lineMeaning`, `formMeaning`, `groupMeaning`), and says on that reading when the text of a module
is well scoped (`WellScoped`).

The text of a module falls into segments: the function groups, each with all lines in it, and the
lines between them (`Outline.segments`). A line carries the labels of the blocks and loops around
it, up to the function it is in.
-/

set_option autoImplicit false

namespace WasmWorkshop

/-! ## Outlines -/

/-- A tree as its text shows it. -/
inductive Outline where
  | line (text : String)
  | form (header : List String)
  | group (header : List String) (children : List Outline)
  | fragment (children : List Outline)

mutual

/-- The node without its marks. -/
def Node.outline : Node → Outline
  | .leaf text _ => .line text
  | .form header _ => .form header
  | .group header children _ => .group header (Node.outlines children)
  | .fragment children _ => .fragment (Node.outlines children)

/-- The nodes without their marks. -/
def Node.outlines : List Node → List Outline
  | [] => []
  | node :: rest => node.outline :: Node.outlines rest

end

/-! ## Reading words -/

/-- The words of a token. Parentheses are left out. -/
def words (token : String) : List String :=
  ((token.toList.filter fun character => character ≠ '(' && character ≠ ')').splitOn ' ').map
    String.ofList

/-- The name in a word such as `$name`. -/
def symbolName? (word : String) : Option String :=
  match word.toList with
  | '$' :: name => some (String.ofList name)
  | _ => none

/-- The names in the tokens of the form `(keyword $name type)`. -/
def namesAfter (keyword : String) (tokens : List String) : List String :=
  tokens.filterMap fun token =>
    match words token with
    | [first, name, _] => if first = keyword then symbolName? name else none
    | _ => none

/-- What a line or a header says about a symbol. -/
inductive Meaning where
  /-- Nothing. -/
  | other
  /-- `(func $name ...)`, with the names in its `param` and `local` tokens. -/
  | function (name : String) (params locals : List String)
  /-- `(import ... (func $name ...))`, with the number of its parameters. -/
  | importedFunction (name : String) (params : Nat)
  /-- `(global $name ...)`. -/
  | global (name : String)
  /-- `(table $name ...)`. -/
  | table (name : String)
  /-- `(call $name ...)`, with the number of its operands. -/
  | call (name : String) (operands : Nat)
  /-- `(start $name)`, or `$name` on a line of its own, as under `elem`. -/
  | functionUse (name : String)
  /-- `(global.get $name)` and `(global.set $name ...)`. -/
  | globalUse (name : String)
  /-- `(local $name type)` as a form of its own. -/
  | localForm (name : String)
  /-- `(local.get $name)` and `(local.set $name ...)`. -/
  | localUse (name : String)
  /-- `(block $name ...)` and `(loop $name ...)`. -/
  | labelled (name : String)
  /-- `br $name` and `(br_if $name ...)`. -/
  | labelUse (name : String)
  deriving DecidableEq

/-- What a bare line says. -/
def lineMeaning (text : String) : Meaning :=
  match words text with
  | [word] => ((symbolName? word).map .functionUse).getD .other
  | [keyword, word] =>
    if keyword = "br" then ((symbolName? word).map .labelUse).getD .other else .other
  | _ => .other

/-- What the type token of an import says. -/
def importMeaning (token : String) : Meaning :=
  match words token with
  | keyword :: word :: rest =>
    if keyword = "func" then
      -- The types follow after the word `param`.
      ((symbolName? word).map (.importedFunction · (rest.length - 1))).getD .other
    else .other
  | _ => .other

/-- What a form says whose header starts with a keyword and a name. -/
def namedFormMeaning (keyword name : String) : Meaning :=
  if keyword = "local" then .localForm name
  else if keyword = "local.get" then .localUse name
  else if keyword = "global" then .global name
  else if keyword = "global.get" then .globalUse name
  else if keyword = "table" then .table name
  else if keyword = "start" then .functionUse name
  else .other

/-- What a form says. -/
def formMeaning (header : List String) : Meaning :=
  match header with
  | ["import", _, _, token] => importMeaning token
  | keyword :: word :: _ => ((symbolName? word).map (namedFormMeaning keyword)).getD .other
  | _ => .other

/-- What a group says whose header starts with a keyword and a name. -/
def namedGroupMeaning (keyword name : String) (tokens : List String) (operands : Nat) : Meaning :=
  if keyword = "func" then .function name (namesAfter "param" tokens) (namesAfter "local" tokens)
  else if keyword = "global" then .global name
  else if keyword = "call" then .call name operands
  else if keyword = "local.set" then .localUse name
  else if keyword = "global.set" then .globalUse name
  else if keyword = "block" ∨ keyword = "loop" then .labelled name
  else if keyword = "br_if" then .labelUse name
  else .other

/-- What a group says, from its header and the number of its children. -/
def groupMeaning (header : List String) (operands : Nat) : Meaning :=
  match header with
  | keyword :: word :: tokens =>
    ((symbolName? word).map (namedGroupMeaning keyword · tokens operands)).getD .other
  | _ => .other

/-! ## Lines and segments -/

/-- What a line of the text says, with the labels of the blocks and loops around it. -/
structure Line where
  labels : List String
  meaning : Meaning
  deriving DecidableEq

/-- The labels around the children of a group. -/
def Meaning.labelsInside (labels : List String) : Meaning → List String
  | .labelled name => name :: labels
  | .function _ _ _ => []
  | _ => labels

mutual

/-- The lines of an outline from top to bottom. Closing lines say nothing and are left out. -/
def Outline.lines (labels : List String) : Outline → List Line
  | .line text => [⟨labels, lineMeaning text⟩]
  | .form header => [⟨labels, formMeaning header⟩]
  | .group header children =>
    ⟨labels, groupMeaning header children.length⟩ ::
      Outline.linesOf ((groupMeaning header children.length).labelsInside labels) children
  | .fragment children => Outline.linesOf labels children

/-- The lines of a list of outlines. -/
def Outline.linesOf (labels : List String) : List Outline → List Line
  | [] => []
  | outline :: rest => outline.lines labels ++ Outline.linesOf labels rest

end

/-- A part of the text of a module: a function group with its lines, or a line between such
groups. -/
inductive Segment where
  | stray (line : Line)
  | function (name : String) (params locals : List String) (body : List Line)

mutual

/-- The segments of an outline from top to bottom. -/
def Outline.segments (labels : List String) : Outline → List Segment
  | .line text => [.stray ⟨labels, lineMeaning text⟩]
  | .form header => [.stray ⟨labels, formMeaning header⟩]
  | .group header children =>
    match groupMeaning header children.length with
    | .function name params locals => [.function name params locals (Outline.linesOf [] children)]
    | meaning =>
      .stray ⟨labels, meaning⟩ :: Outline.segmentsOf (meaning.labelsInside labels) children
  | .fragment children => Outline.segmentsOf labels children

/-- The segments of a list of outlines. -/
def Outline.segmentsOf (labels : List String) : List Outline → List Segment
  | [] => []
  | outline :: rest => outline.segments labels ++ Outline.segmentsOf labels rest

end

/-! ## Well-scoped modules -/

/-- The function that a line declares, with the number of its parameters. -/
def Meaning.signature? : Meaning → Option (String × Nat)
  | .function name params _ => some (name, params.length)
  | .importedFunction name params => some (name, params)
  | _ => none

/-- The global that a line declares. -/
def Meaning.global? : Meaning → Option String
  | .global name => some name
  | _ => none

/-- The table that a line declares. -/
def Meaning.table? : Meaning → Option String
  | .table name => some name
  | _ => none

/-- The local that a line declares as a form of its own. -/
def Meaning.localForm? : Meaning → Option String
  | .localForm name => some name
  | _ => none

/-- The functions that a text declares, imported ones included. -/
def signatures (lines : List Line) : List (String × Nat) :=
  lines.filterMap fun line => line.meaning.signature?

/-- The globals that a text declares. -/
def globalNames (lines : List Line) : List String :=
  lines.filterMap fun line => line.meaning.global?

/-- The tables that a text declares. -/
def tableNames (lines : List Line) : List String :=
  lines.filterMap fun line => line.meaning.table?

/-- The locals that the lines of a function body declare as forms of their own. -/
def localForms (lines : List Line) : List String :=
  lines.filterMap fun line => line.meaning.localForm?

/-- The locals of one function group are well scoped, given the names in its header. -/
structure LocalsScoped (header : List String) (body : List Line) : Prop where
  /-- No name is declared twice. -/
  distinct : (header ++ localForms body).Nodup
  /-- A local that is read or set is declared in the header or further up in the body. -/
  declared : ∀ before line after name, body = before ++ line :: after →
    line.meaning = .localUse name → name ∈ header ∨ name ∈ localForms before

/-- A segment with well-scoped locals: those of a function group by its own header and lines, and
none read or set elsewhere. -/
def Segment.LocalsScoped : Segment → Prop
  | .stray line => ∀ name, line.meaning ≠ .localUse name
  | .function _ params locals body => WasmWorkshop.LocalsScoped (params ++ locals) body

/-- The text of a module is well scoped. -/
structure WellScoped (module : List Outline) : Prop where
  /-- The names of functions, imported ones included, are pairwise distinct. -/
  functionsDistinct : ((signatures (Outline.linesOf [] module)).map Prod.fst).Nodup
  globalsDistinct : (globalNames (Outline.linesOf [] module)).Nodup
  tablesDistinct : (tableNames (Outline.linesOf [] module)).Nodup
  /-- A call names a function with as many parameters as it passes operands. -/
  callsMatch : ∀ line ∈ Outline.linesOf [] module, ∀ name operands,
    line.meaning = .call name operands → (name, operands) ∈ signatures (Outline.linesOf [] module)
  /-- What else names a function names one that is declared. -/
  functionsDeclared : ∀ line ∈ Outline.linesOf [] module, ∀ name,
    line.meaning = .functionUse name →
      name ∈ (signatures (Outline.linesOf [] module)).map Prod.fst
  globalsDeclared : ∀ line ∈ Outline.linesOf [] module, ∀ name,
    line.meaning = .globalUse name → name ∈ globalNames (Outline.linesOf [] module)
  localsScoped : ∀ segment ∈ Outline.segmentsOf [] module, segment.LocalsScoped
  /-- A jump names the label of a block or a loop around it, in the same function. -/
  labelsEnclose : ∀ line ∈ Outline.linesOf [] module, ∀ name,
    line.meaning = .labelUse name → name ∈ line.labels

end WasmWorkshop
