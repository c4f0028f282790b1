import WasmWorkshop.Bytes

/-!
# A small file system

Directories and files below a working directory. A path is looked up name by name; every name but
the last must be a directory that is there. Writing creates a file or replaces one, and never
creates a directory. What goes wrong is one of a few faults of the operating system, each with its
own text.
-/

set_option autoImplicit false

namespace WasmWorkshop.Handoff

/-- A fault of the operating system. -/
inductive SystemFault where
  | notFound
  | notADirectory
  | isADirectory
  | nameTooLong
  | nulInPath
  | nulInArgument
  deriving DecidableEq

/-- How a fault is shown. -/
def SystemFault.message : SystemFault → String
  | .notFound => "No such file or directory (os error 2)"
  | .notADirectory => "Not a directory (os error 20)"
  | .isADirectory => "Is a directory (os error 21)"
  | .nameTooLong => "File name too long (os error 36)"
  | .nulInPath => "file name contained an unexpected NUL byte"
  | .nulInArgument => "nul byte found in provided data"

/-- The greatest number of bytes in a name. -/
def nameLimit : Nat := 255

/-- The number of bytes that a path has to stay below. -/
def pathLimit : Nat := 4096

/-- Whether a text has a NUL character, which the operating system takes for its end. -/
def holdsNul (text : String) : Bool := text.toList.any (·.toNat = 0)

/-- The names that lead from the working directory to a file or a directory. -/
abbrev Path := List String

/-- Directories and files. The working directory itself is always there. -/
structure Disk where
  directories : List Path := []
  files : List (Path × List UInt8) := []
  deriving DecidableEq

namespace Disk

/-- A disk with nothing on it. -/
def empty : Disk := {}

/-- Whether a path is a directory. -/
def isDirectory (disk : Disk) (path : Path) : Bool := path.isEmpty || path ∈ disk.directories

/-- The contents of a file. -/
def contents? (disk : Disk) (path : Path) : Option (List UInt8) := disk.files.lookup path

/-- Follows names from a directory. The last name need not be there. -/
def follow (disk : Disk) : Path → List String → Except SystemFault Path
  | here, [] => .ok here
  | here, name :: rest =>
    if !disk.isDirectory here then
      .error (if (disk.contents? here).isSome then .notADirectory else .notFound)
    else if name = "" ∨ name = "." then disk.follow here rest
    else if name = ".." then disk.follow here.dropLast rest
    else if nameLimit < name.utf8ByteSize then .error .nameTooLong
    else disk.follow (here ++ [name]) rest

/-- What a path leads to. The empty path leads nowhere. -/
def resolve (disk : Disk) (path : String) : Except SystemFault Path :=
  if path = "" then .error .notFound
  else if holdsNul path then .error .nulInPath
  else if pathLimit ≤ path.utf8ByteSize then .error .nameTooLong
  else disk.follow [] (path.splitOn "/")

/-- Whether a path can only mean a directory, by its last name. -/
def endsAtDirectory (path : String) : Bool :=
  match (path.splitOn "/").getLast? with
  | some name => name = "" || name = "." || name = ".."
  | none => true

/-- The files with one created or replaced. -/
def putFile (path : Path) (bytes : List UInt8) :
    List (Path × List UInt8) → List (Path × List UInt8)
  | [] => [(path, bytes)]
  | (known, old) :: rest =>
    if known = path then (path, bytes) :: rest else (known, old) :: putFile path bytes rest

/-- The path without the slashes at its end. -/
def withoutFinalSlashes (path : String) : String :=
  String.ofList (path.toList.reverse.dropWhile (· = '/')).reverse

/-- The path of a file that may be written. A path that can only mean a directory is refused
even if there is nothing by its name. -/
def writable (disk : Disk) (path : String) : Except SystemFault Path := do
  if path = "" then .error .notFound
  else
    let target ← disk.resolve (withoutFinalSlashes path)
    if disk.isDirectory target || endsAtDirectory path then .error .isADirectory
    else return target

/-- The disk with a file written. -/
def write (disk : Disk) (path : String) (bytes : List UInt8) : Except SystemFault Disk := do
  let target ← disk.writable path
  return { disk with files := putFile target bytes disk.files }

/-- The disk without a file. -/
def remove (disk : Disk) (path : String) : Except SystemFault Disk := do
  let target ← disk.resolve path
  if disk.isDirectory target then .error .isADirectory
  else if (disk.contents? target).isNone then .error .notFound
  else return { disk with files := disk.files.filter (·.1 ≠ target) }

/-- The contents of a file. -/
def read (disk : Disk) (path : String) : Except SystemFault (List UInt8) := do
  let target ← disk.resolve path
  if disk.isDirectory target then .error .isADirectory
  else
    match disk.contents? target with
    | none => .error .notFound
    | some bytes => if endsAtDirectory path then .error .notADirectory else return bytes

/-- The disk with a directory and all directories on the way to it. -/
def makeDirectory (disk : Disk) (path : String) : Disk :=
  let names := (path.splitOn "/").filter fun name => name ≠ "" ∧ name ≠ "."
  let paths := (List.range names.length).map fun count => names.take (count + 1)
  { disk with directories := disk.directories ++ paths.filter (· ∉ disk.directories) }

/-- A disk with only the given directories. -/
def ofDirectories (paths : List String) : Disk := paths.foldl makeDirectory empty

/-- Whether a path comes before another one: name by name. -/
def precedes : Path → Path → Bool
  | [], _ => true
  | _ :: _, [] => false
  | left :: lefts, right :: rights =>
    if left = right then precedes lefts rights else left < right

/-- Every file with its path and its contents, in order, the files of a directory together. -/
def listFiles (disk : Disk) : List (String × List UInt8) :=
  (disk.files.mergeSort fun left right => precedes left.1 right.1).map fun file =>
    ("/".intercalate file.1, file.2)

end Disk

end WasmWorkshop.Handoff
