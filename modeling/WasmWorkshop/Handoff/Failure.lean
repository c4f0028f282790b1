import WasmWorkshop.Builder
import WasmWorkshop.Handoff.Disk
import WasmWorkshop.Machine.Instance

/-!
# Failures on the way to a running module

The way from a finished builder to a running module has five stages: the check of the module, the
writing of its text, the compiler, the loading of the binary and its instantiation. Every failure
belongs to one of them (`Failure.stage`) and has one text (`Failure.message`).

Two things are left out. A compiler fails here by exiting with a status other than zero; one that a
signal ends has no exit status, and there is no failure for it. And the words in which a validator
or a machine explains its refusal are not kept, only that it refused.
-/

set_option autoImplicit false

namespace WasmWorkshop.Handoff

/-- A step on the way to a running module. -/
inductive Stage where
  | check
  | write
  | compile
  | load
  | instantiate
  deriving DecidableEq

/-- The name of a stage. -/
def Stage.name : Stage → String
  | .check => "check"
  | .write => "write"
  | .compile => "compile"
  | .load => "load"
  | .instantiate => "instantiate"

/-- Why a module does not run. -/
inductive Failure where
  /-- The module is not finished. -/
  | check (error : BuildError)
  /-- The text file cannot be written. -/
  | write (path : String) (fault : SystemFault)
  /-- The compiler cannot be started. -/
  | launch (compiler : String) (fault : SystemFault)
  /-- The compiler exited with a status other than zero. -/
  | exit (compiler : String) (status : Nat) (errors : String)
  /-- The compiler did not fail and yet complained. -/
  | diagnostics (compiler : String) (errors : String)
  /-- The binary file cannot be read. -/
  | load (path : String) (fault : SystemFault)
  /-- The binary is not a valid module. -/
  | invalid (path : String)
  /-- The module cannot be instantiated, or a call into it failed. -/
  | instantiate (error : Machine.InstanceError)
  deriving DecidableEq

namespace Failure

/-- The stage that a failure belongs to. -/
def stage : Failure → Stage
  | .check _ => .check
  | .write _ _ => .write
  | .launch _ _ => .compile
  | .exit _ _ _ => .compile
  | .diagnostics _ _ => .compile
  | .load _ _ => .load
  | .invalid _ => .load
  | .instantiate _ => .instantiate

/-- How a failure is shown. An end by a signal would be shown as `signal: ` and its number in the
place of the exit status, but it is no failure here. What explains an invalid module or a failed
instantiation is not shown. -/
def message : Failure → String
  | .check error => error.message
  | .write path fault => "failed to write " ++ path ++ ": " ++ fault.message
  | .launch compiler fault => "failed to spawn " ++ compiler ++ ": " ++ fault.message
  | .exit compiler status errors =>
    compiler ++ " exited with exit status: " ++ toString status ++ ": " ++ errors
  | .diagnostics compiler errors => compiler ++ " reported: " ++ errors
  | .load path fault => "failed to read " ++ path ++ ": " ++ fault.message
  | .invalid path => "invalid module " ++ path
  | .instantiate _ => "instantiation failed"

end Failure

end WasmWorkshop.Handoff
