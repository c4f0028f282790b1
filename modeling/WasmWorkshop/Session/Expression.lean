import WasmWorkshop.Handoff.Bench
import WasmWorkshop.ModuleField

/-!
# Descriptions of a session

A session builds one module by a sequence of actions. What it builds is described by expressions,
one constructor for each operation that makes a node. The bodies inside an expression may hold
actions too, so a session can look at the builder, or change it, in the middle of what is being
built; such an action makes no node.

The last six constructors are apart from the rest: they put nodes together by hand, or change the
marks of a node that is already made. All others make a node whose text and marks belong together.
-/

set_option autoImplicit false

namespace WasmWorkshop.Session

open Handoff (Toolchain)

mutual

/-- What makes one node. -/
inductive Expression where
  | binary (operator : BinaryOperator) (left right : Expression)
  | unary (operator : UnaryOperator) (operand : Expression)
  | convert (source target : ValueType) (operand : Expression)
  | constant (type : ValueType) (value : Literal)
  | declareLocal (name : String) (type : ValueType)
  | declareGlobal (isMutable : Bool) (name : String) (type : ValueType)
      (initial : Option Expression)
  | setVariable (kind : VariableKind) (name : String) (value : Expression)
  | getVariable (kind : VariableKind) (name : String)
  | store (type : ValueType) (offset : Nat) (address value : Expression)
  | load (type : ValueType) (offset : Nat) (address : Expression)
  | memorySize
  | memoryGrow (pages : Expression)
  /-- A data literal of a text, with a zero byte after it. -/
  | string (text : String)
  /-- A data literal of bytes. -/
  | data (bytes : List UInt8)
  /-- Literals, and then the memory for all of them and its export. -/
  | allocate (body : List Item)
  | ifThen (result : Option ValueType) (condition : Expression) (consequent : List Item)
      (alternative : Option (List Item))
  | loopWhile (label : String) (condition : Expression) (body : List Item)
  | block (label : String) (body : List Item)
  | breakTo (label : String)
  | breakIf (label : String) (condition : Expression)
  | returnValue (value : Expression)
  | returnVoid
  | select (first second condition : Expression)
  | drop (value : Expression)
  | call (name : String) (arguments : List Item)
  | importFunction (library field name : String) (params : List ValueType)
  | function (name : String) (steps : List PrototypeStep) (body : List Item)
  | table (name : String) (size : Nat) (elements : RefType)
  | elements (offset : Expression) (names : List String)
  | start (name : String)
  /-- A bare line put together by hand. -/
  | rawLeaf (text : String)
  /-- A form put together by hand. -/
  | rawForm (header : List String)
  /-- A group put together by hand. -/
  | rawGroup (header : List String) (children : List Item)
  /-- A fragment put together by hand. -/
  | rawFragment (children : List Item)
  /-- A node with one more symbol. -/
  | withSymbol (node : Expression) (symbol : SymbolUse)
  /-- A node with a scope of its own. -/
  | withScope (node : Expression) (scope : Scope)

/-- A part of a body. -/
inductive Item where
  | expression (expression : Expression)
  | action (action : Action)

/-- A step of a session. -/
inductive Action where
  /-- Builds the module. -/
  | module (body : List Item)
  /-- Adds a top-level node. -/
  | emit (node : Expression)
  /-- Makes a node and forgets it. -/
  | build (node : Expression)
  /-- Reserves a stretch of the data region. -/
  | reserve (length : Nat)
  | render
  | check
  | finish
  | phase
  | allocation
  | location
  | indentWidth
  | items
  /-- Takes the module through a tool chain and runs it, on a disk with the given directories. -/
  | run (toolchain : Toolchain) (directories : List String)

end

end WasmWorkshop.Session
