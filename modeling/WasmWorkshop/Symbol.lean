/-!
# Symbols and lexical scopes

A module has five namespaces, and names in different namespaces never meet: a local `$x` and a
global `$x` are two symbols. A node of the tree says which symbols it declares or refers to
(`SymbolUse`) and whether it opens a scope for them (`Scope`); together these are its `Marks`.
-/

set_option autoImplicit false

namespace WasmWorkshop

/-- The symbol namespaces of a module. -/
inductive Namespace where
  | function
  | global
  | localVariable
  | table
  | label
  deriving DecidableEq

/-- How a namespace is called in a message. -/
def Namespace.noun : Namespace → String
  | .function => "function"
  | .global => "global"
  | .localVariable => "local"
  | .table => "table"
  | .label => "label"

/-- Whether a symbol is introduced or used. -/
inductive SymbolRole where
  | declare
  | reference
  deriving DecidableEq

/-- A declaration of a named symbol, or a reference to one. For a function the arity of a
declaration counts its parameters, and the arity of a reference counts the arguments of the
call. -/
structure SymbolUse where
  role : SymbolRole
  space : Namespace
  name : String
  arity : Option Nat := none
  deriving DecidableEq

/-- A declaration without an arity. -/
def SymbolUse.declaring (space : Namespace) (name : String) : SymbolUse :=
  ⟨.declare, space, name, none⟩

/-- A reference without an arity. -/
def SymbolUse.referring (space : Namespace) (name : String) : SymbolUse :=
  ⟨.reference, space, name, none⟩

/-- The same use with its arity stated. -/
def SymbolUse.withArity (symbol : SymbolUse) (arity : Nat) : SymbolUse :=
  { symbol with arity := some arity }

/-- The lexical scope that a node opens for its own declarations and for its children. -/
inductive Scope where
  /-- A function body, which holds parameters and locals. -/
  | function (name : String)
  /-- A block or a loop, which holds its label. -/
  | label
  deriving DecidableEq

/-- Everything about a node that the symbol check reads and the text does not show. -/
structure Marks where
  symbols : List SymbolUse := []
  scope : Option Scope := none
  deriving DecidableEq

/-- The marks with one more symbol, after those already there. -/
def Marks.withSymbol (marks : Marks) (symbol : SymbolUse) : Marks :=
  { marks with symbols := marks.symbols ++ [symbol] }

/-- The marks with a scope, in place of an earlier one. -/
def Marks.withScope (marks : Marks) (scope : Scope) : Marks :=
  { marks with scope := some scope }

/-- The symbol as it is written in the module text. -/
def sigil (name : String) : String := "$" ++ name

/-- The text between quotes, as it stands. -/
def quoted (text : String) : String := "\"" ++ text ++ "\""

end WasmWorkshop
