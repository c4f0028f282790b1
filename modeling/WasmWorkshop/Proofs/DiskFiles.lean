import Mathlib.Data.String.Basic
import WasmWorkshop.Proofs.PipelineCourse

/-!
# Files that are read and written

What can be read at a path depends on where the path leads, so writing one file leaves what can be
read anywhere else (`Disk.read_write_elsewhere`). A path without a slash leads to the file of its
name in the working directory, whatever else is on the disk (`Disk.IsName`).
-/

set_option autoImplicit false

namespace WasmWorkshop.Handoff

namespace Disk

/-! ## Other files -/

theorem lookup_putFile_of_ne {path other : Path} (apart : other ≠ path) (bytes : List UInt8)
    (files : List (Path × List UInt8)) :
    (putFile path bytes files).lookup other = files.lookup other := by
  induction files with
  | nil => rw [putFile, List.lookup_cons, beq_false_of_ne apart]
  | cons file files ih =>
      obtain ⟨known, old⟩ := file
      rw [putFile]
      split_ifs with same
      · rw [List.lookup_cons, List.lookup_cons, same, beq_false_of_ne apart]
      · rw [List.lookup_cons, List.lookup_cons, ih]

/-- A file can be read exactly if the path leads to it and is not written like that of a
directory. -/
theorem read_eq_ok_iff {disk : Disk} {path : String} {bytes : List UInt8} :
    disk.read path = .ok bytes ↔
      ∃ target, disk.resolve path = .ok target ∧ disk.isDirectory target = false ∧
        disk.contents? target = some bytes ∧ endsAtDirectory path = false := by
  constructor
  · intro reads
    cases resolved : disk.resolve path with
    | error fault => simp [read, resolved, bind, Except.bind] at reads
    | ok target =>
        cases directory : disk.isDirectory target <;> cases held : disk.contents? target <;>
          cases ends : endsAtDirectory path <;>
          simp [read, resolved, directory, held, ends, bind, Except.bind, pure, Except.pure]
            at reads
        subst reads
        exact ⟨target, rfl, directory, held, rfl⟩
  · rintro ⟨target, resolved, noDirectory, held, notAtDirectory⟩
    exact read_eq_ok resolved noDirectory held notAtDirectory

theorem write_eq_ok {disk written : Disk} {path : String} {bytes : List UInt8}
    (writing : disk.write path bytes = .ok written) :
    ∃ target, disk.resolve (withoutFinalSlashes path) = .ok target ∧
      written.directories = disk.directories ∧
      written.files = putFile target bytes disk.files := by
  rw [write] at writing
  cases writable : disk.writable path with
  | error fault =>
      rw [writable] at writing
      cases writing
  | ok target =>
      rw [writable] at writing
      cases writing
      exact ⟨target, (writable_eq_ok writable).1, rfl, rfl⟩

/-- Writing a file leaves what can be read elsewhere. -/
theorem read_write_elsewhere {disk written : Disk} {path other : String}
    {bytes contents : List UInt8} (writing : disk.write path bytes = .ok written)
    (apart : disk.resolve other ≠ disk.resolve (withoutFinalSlashes path)) :
    written.read other = .ok contents ↔ disk.read other = .ok contents := by
  obtain ⟨file, leads, directories, files⟩ := write_eq_ok writing
  rw [read_eq_ok_iff, read_eq_ok_iff]
  have elsewhere {target : Path} (resolved : disk.resolve other = .ok target) :
      written.contents? target = disk.contents? target := by
    rw [contents?, files]
    refine lookup_putFile_of_ne ?_ bytes disk.files
    rintro rfl
    exact apart (resolved.trans leads.symm)
  have sameDirectories : written.isDirectory = disk.isDirectory := by
    funext target
    rw [isDirectory, isDirectory, directories]
  constructor
  · rintro ⟨target, resolved, noDirectory, held, notAtDirectory⟩
    have before := resolve_of_directories_eq directories.symm resolved
    exact ⟨target, before, sameDirectories ▸ noDirectory, elsewhere before ▸ held, notAtDirectory⟩
  · rintro ⟨target, resolved, noDirectory, held, notAtDirectory⟩
    exact ⟨target, resolve_of_directories_eq directories resolved, sameDirectories ▸ noDirectory,
      (elsewhere resolved).trans held, notAtDirectory⟩

/-! ## Files in the working directory -/

open String in
theorem splitOnAux_of_not_mem (before after : List Char) (absent : '/' ∉ after) :
    String.splitOnAux (String.ofList (before ++ after)) "/" 0 ⟨utf8Len before⟩ 0 [] =
      [String.ofList (before ++ after)] := by
  induction after generalizing before with
  | nil =>
      have done := (atEnd_of_valid before []).mpr rfl
      have whole := extract_of_valid [] before []
      simp only [List.nil_append, List.append_nil] at done whole ⊢
      rw [String.splitOnAux, if_pos done]
      simpa using whole
  | cons first after ih =>
      obtain ⟨notFirst, notAfter⟩ := List.ne_and_not_mem_of_not_mem_cons absent
      have more : ¬ Pos.Raw.atEnd (String.ofList (before ++ first :: after)) ⟨utf8Len before⟩ := by
        rw [atEnd_of_valid]
        exact List.cons_ne_nil first after
      have character : Pos.Raw.get (String.ofList (before ++ first :: after)) ⟨utf8Len before⟩ =
          first := by
        rw [get_of_valid]
        rfl
      have slash : Pos.Raw.get "/" 0 = '/' := by decide
      have differ : ¬ (first == '/') = true := by simpa using Ne.symm notFirst
      have here : Pos.Raw.unoffsetBy ⟨utf8Len before⟩ 0 = ⟨utf8Len before⟩ := rfl
      have rest := ih (before ++ [first]) notAfter
      rw [String.splitOnAux, if_neg more, character, slash, if_neg differ, here,
        next_of_valid before first after]
      simpa using rest

/-- A path without a slash is a single name. -/
theorem splitOn_of_not_mem {path : String} (absent : '/' ∉ path.toList) :
    path.splitOn "/" = [path] := by
  have split := splitOnAux_of_not_mem [] path.toList absent
  rw [List.nil_append, String.ofList_toList] at split
  rw [String.splitOn, if_neg (by decide)]
  exact split

/-- A path that is the name of a file in the working directory. -/
structure IsName (path : String) : Prop where
  single : '/' ∉ path.toList
  ordinary : path ≠ "" ∧ path ≠ "." ∧ path ≠ ".."
  noNul : holdsNul path = false
  short : path.utf8ByteSize ≤ nameLimit

namespace IsName

variable {path : String} {disk : Disk}

theorem resolve (isName : IsName path) (disk : Disk) : disk.resolve path = .ok [path] := by
  obtain ⟨notEmpty, notHere, notUp⟩ := isName.ordinary
  have root : disk.isDirectory [] = true := rfl
  have limits : nameLimit < pathLimit := by decide
  have pathShort : ¬ pathLimit ≤ path.utf8ByteSize := by
    have nameShort := isName.short
    omega
  rw [Disk.resolve, if_neg notEmpty, isName.noNul, if_neg Bool.false_ne_true, if_neg pathShort,
    splitOn_of_not_mem isName.single]
  simp [follow, root, notEmpty, notHere, notUp, Nat.not_lt.mpr isName.short]

theorem endsAtDirectory (isName : IsName path) : endsAtDirectory path = false := by
  obtain ⟨notEmpty, notHere, notUp⟩ := isName.ordinary
  simp [Disk.endsAtDirectory, splitOn_of_not_mem isName.single, notEmpty, notHere, notUp]

theorem withoutFinalSlashes (isName : IsName path) : withoutFinalSlashes path = path := by
  have none : path.toList.reverse.dropWhile (· = '/') = path.toList.reverse := by
    cases ends : path.toList.reverse with
    | nil => rfl
    | cons last more =>
        have member : last ∈ path.toList := by
          rw [← List.mem_reverse, ends]
          exact List.mem_cons_self
        have notSlash : last ≠ '/' := by
          rintro rfl
          exact isName.single member
        rw [List.dropWhile_cons_of_neg]
        simpa using notSlash
  rw [Disk.withoutFinalSlashes, none, List.reverse_reverse, String.ofList_toList]

theorem write (isName : IsName path) (noDirectory : disk.isDirectory [path] = false)
    (bytes : List UInt8) :
    disk.write path bytes = .ok { disk with files := putFile [path] bytes disk.files } := by
  have writable : disk.writable path = .ok [path] := by
    rw [writable, if_neg isName.ordinary.1, isName.withoutFinalSlashes, isName.resolve disk]
    change (if disk.isDirectory [path] || Disk.endsAtDirectory path then _ else _) = _
    rw [noDirectory, isName.endsAtDirectory]
    rfl
  rw [Disk.write, writable]
  rfl

theorem read (isName : IsName path) (noDirectory : disk.isDirectory [path] = false)
    (bytes : List UInt8) :
    disk.read path = .ok bytes ↔ disk.contents? [path] = some bytes := by
  rw [read_eq_ok_iff]
  constructor
  · rintro ⟨target, resolved, -, held, -⟩
    cases (isName.resolve disk).symm.trans resolved
    exact held
  · intro held
    exact ⟨[path], isName.resolve disk, noDirectory, held, isName.endsAtDirectory⟩

end IsName

end Disk

end WasmWorkshop.Handoff
