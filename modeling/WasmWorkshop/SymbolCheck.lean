import WasmWorkshop.Diagnostic
import WasmWorkshop.Node
import WasmWorkshop.ScopeStack

/-!
# The symbol check

Functions, globals and tables belong to the module: they may be used before they are declared, and
a second declaration of the same name is an error. Locals and labels belong to a scope and must be
declared before they are used.

The check therefore reads the trail of a module twice. The first reading enters every declaration
of a module-level symbol into a table and finds the duplicates (`SymbolTable.duplicates`). The
second reading keeps the stack of open scopes, declares locals and labels as they come, and resolves
every reference (`resolutionErrors`). The diagnostics of the check are those of the first reading
followed by those of the second (`symbolErrors`).

When a function is declared more than once, calls are held against the last of its
declarations.
-/

set_option autoImplicit false

namespace WasmWorkshop

/-! ## Module-level declarations -/

/-- The functions, globals and tables declared so far, the last one first. -/
structure SymbolTable where
  functions : List (String × Option Nat) := []
  globals : List String := []
  tables : List String := []
  deriving DecidableEq

namespace SymbolTable

/-- The table with no declaration. -/
def empty : SymbolTable := {}

/-- Whether the table has a name of a namespace. Locals and labels are not in it. -/
def declares (table : SymbolTable) (space : Namespace) (name : String) : Bool :=
  match space with
  | .function => (table.functions.lookup name).isSome
  | .global => decide (name ∈ table.globals)
  | .table => decide (name ∈ table.tables)
  | .localVariable => false
  | .label => false

/-- The table with a name added to a namespace. -/
def add (table : SymbolTable) (symbol : SymbolUse) : SymbolTable :=
  match symbol.space with
  | .function => { table with functions := (symbol.name, symbol.arity) :: table.functions }
  | .global => { table with globals := symbol.name :: table.globals }
  | .table => { table with tables := symbol.name :: table.tables }
  | .localVariable => table
  | .label => table

/-- The table after a use: declarations are entered, references change nothing. -/
def enter (table : SymbolTable) (symbol : SymbolUse) : SymbolTable :=
  match symbol.role with
  | .declare => table.add symbol
  | .reference => table

/-- What is wrong with a use, seen from the table before it: a declaration of a name that is
there. -/
def duplicate? (table : SymbolTable) (symbol : SymbolUse) : Option Diagnostic :=
  match symbol.role with
  | .declare =>
    if table.declares symbol.space symbol.name then
      some (.duplicate symbol.space symbol.name)
    else none
  | .reference => none

/-- The table after a sequence of uses. -/
def enterAll (table : SymbolTable) (symbols : List SymbolUse) : SymbolTable :=
  symbols.foldl enter table

/-- The duplicate declarations in a sequence of uses, after those in the table. -/
def duplicates (table : SymbolTable) : List SymbolUse → List Diagnostic
  | [] => []
  | symbol :: rest =>
    (table.duplicate? symbol).toList ++ (table.enter symbol).duplicates rest

end SymbolTable

/-! ## Resolving references -/

/-- What is wrong with a call, or another use of a function, given the declared arity. -/
def arityError? (name : String) (declared used : Option Nat) : Option Diagnostic :=
  match declared, used with
  | some expected, some actual =>
    if expected = actual then none else some (.mismatch .function name actual expected)
  | _, _ => none

/-- What is wrong with a reference. -/
def referenceError? (table : SymbolTable) (stack : ScopeStack) (symbol : SymbolUse) :
    Option Diagnostic :=
  let found :=
    match symbol.space with
    | .function | .global | .table => table.declares symbol.space symbol.name
    | .localVariable => stack.hasLocal symbol.name
    | .label => stack.hasLabel symbol.name
  if found then
    match symbol.space with
    | .function =>
      (table.functions.lookup symbol.name).bind fun declared =>
        arityError? symbol.name declared symbol.arity
    | _ => none
  else some (.undeclared symbol.space symbol.name)

/-- What is wrong with a use, before it is placed in a function. A local is declared twice if the
innermost function has it; outside of functions a local is declared nowhere. -/
def useError? (table : SymbolTable) (stack : ScopeStack) (symbol : SymbolUse) :
    Option Diagnostic :=
  match symbol.role, symbol.space with
  | .declare, .localVariable =>
    if stack.currentFunction.isSome && !(stack.defineLocal symbol.name).1 then
      some (.duplicate .localVariable symbol.name)
    else none
  | .declare, _ => none
  | .reference, _ => referenceError? table stack symbol

/-- The diagnostic placed in the innermost open function. -/
def ScopeStack.locate (stack : ScopeStack) (diagnostic : Diagnostic) : Diagnostic :=
  match stack.currentFunction with
  | some function => diagnostic.inFunction function
  | none => diagnostic

/-- The open scopes after a use. -/
def ScopeStack.afterUse (stack : ScopeStack) (symbol : SymbolUse) : ScopeStack :=
  match symbol.role, symbol.space with
  | .declare, .localVariable => (stack.defineLocal symbol.name).2
  | .declare, .label => (stack.defineLabel symbol.name).2
  | _, _ => stack

/-- The open scopes after a step of the trail. -/
def ScopeStack.after (stack : ScopeStack) : TrailStep → ScopeStack
  | .enter scope => stack.push scope
  | .use symbol => stack.afterUse symbol
  | .leave => stack.pop

/-- The open scopes after a trail. -/
def ScopeStack.afterAll (stack : ScopeStack) (trail : List TrailStep) : ScopeStack :=
  trail.foldl ScopeStack.after stack

/-- What is wrong with a step of the trail. -/
def stepError? (table : SymbolTable) (stack : ScopeStack) : TrailStep → Option Diagnostic
  | .use symbol => (useError? table stack symbol).map stack.locate
  | .enter _ => none
  | .leave => none

/-- The errors that the second reading finds in a trail. -/
def resolutionErrors (table : SymbolTable) (stack : ScopeStack) :
    List TrailStep → List Diagnostic
  | [] => []
  | step :: rest =>
    (stepError? table stack step).toList ++ resolutionErrors table (stack.after step) rest

/-! ## The check -/

/-- The uses of symbols in a list of nodes, in pre-order. -/
def Node.uses (nodes : List Node) : List SymbolUse :=
  (Node.trails nodes).filterMap TrailStep.symbol?

/-- All that is wrong with the symbols of a list of nodes. -/
def symbolErrors (nodes : List Node) : List Diagnostic :=
  SymbolTable.empty.duplicates (Node.uses nodes) ++
    resolutionErrors (SymbolTable.empty.enterAll (Node.uses nodes)) .empty (Node.trails nodes)

/-- Checks the symbols of a list of nodes. -/
def checkSymbols (nodes : List Node) : Except Report Unit :=
  (Report.ofList (symbolErrors nodes)).verdict

end WasmWorkshop
