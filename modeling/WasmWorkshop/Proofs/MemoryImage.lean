import Mathlib.Data.List.Induction
import WasmWorkshop.Machine.Memory
import WasmWorkshop.Proofs.DataRegion

/-!
# Segments in linear memory

Segments are copied into a memory one after another, and later ones overwrite earlier ones. Where
all of them are cut out of one sequence of bytes (`MemorySegment.IsCutOf`), no two of them disagree,
and so the order does not matter: a memory of zero bytes ends up with the bytes of every segment in
its region and zero bytes everywhere else (`Memory.exists_shows`). What a memory shows in this sense
determines every byte of it (`Memory.Shows.byteAt_eq`).
-/

set_option autoImplicit false

namespace WasmWorkshop.Machine

/-- Bytes and the address where they belong. -/
structure MemorySegment where
  address : Nat
  bytes : List UInt8
  deriving DecidableEq

namespace MemorySegment

/-- The stretch of memory that a segment fills. -/
def region (segment : MemorySegment) : Region := ⟨segment.address, segment.bytes.length⟩

/-- The segment is a part of the whole, at the place where it belongs. -/
def IsCutOf (whole : List UInt8) (segment : MemorySegment) : Prop :=
  ∃ before after, whole = before ++ segment.bytes ++ after ∧ segment.address = before.length

variable {whole : List UInt8} {segment : MemorySegment}

theorem IsCutOf.end_le (cut : segment.IsCutOf whole) :
    segment.address + segment.bytes.length ≤ whole.length := by
  obtain ⟨before, after, rfl, here⟩ := cut
  rw [here, List.length_append, List.length_append]
  exact Nat.le_add_right ..

/-- A byte of the segment is a byte of the whole. -/
theorem IsCutOf.getElem? (cut : segment.IsCutOf whole) {place : Nat}
    (inside : place < segment.bytes.length) :
    whole[segment.address + place]? = some segment.bytes[place] := by
  obtain ⟨before, after, rfl, here⟩ := cut
  rw [here, List.append_assoc, List.getElem?_append_right (Nat.le_add_right ..),
    Nat.add_sub_cancel_left, List.getElem?_append_left inside, List.getElem?_eq_getElem inside]

/-- An address in the region of a segment is its start and something more. -/
theorem holds_iff {address : Nat} : segment.region.Holds address ↔
    ∃ place < segment.bytes.length, segment.address + place = address := by
  constructor
  · rintro ⟨above, below⟩
    exact ⟨address - segment.address, Nat.sub_lt_left_of_lt_add above below,
      Nat.add_sub_of_le above⟩
  · rintro ⟨place, inside, rfl⟩
    exact ⟨Nat.le_add_right .., Nat.add_lt_add_left inside _⟩

end MemorySegment

namespace Memory

variable {memory : Memory} {address length : Nat} {bytes : List UInt8}

/-- A memory of zero bytes. -/
def zeroed (pages : Nat) : Memory := ⟨pages, none, {}⟩

/-! ## Writing and reading -/

@[simp] theorem byteAt_zeroed (pages address : Nat) : (zeroed pages).byteAt address = 0 :=
  Std.HashMap.getD_empty

theorem byteAt_insert (memory : Memory) (address place : Nat) (byte : UInt8) :
    { memory with written := memory.written.insert address byte }.byteAt place =
      if address = place then byte else memory.byteAt place := by
  simp [byteAt, Std.HashMap.getD_insert]

@[simp] theorem pages_writeAll (memory : Memory) (address : Nat) (bytes : List UInt8) :
    (memory.writeAll address bytes).pages = memory.pages := by
  induction bytes generalizing memory address with
  | nil => rfl
  | cons byte rest ih => exact ih _ _

/-- Writing changes no byte before or behind what is written. -/
theorem byteAt_writeAll_outside {place : Nat}
    (outside : place < address ∨ address + bytes.length ≤ place) :
    (memory.writeAll address bytes).byteAt place = memory.byteAt place := by
  induction bytes generalizing memory address with
  | nil => rfl
  | cons byte rest ih =>
      rw [List.length_cons] at outside
      rw [writeAll, ih (by omega), byteAt_insert, if_neg (by omega)]

/-- What is written is there. -/
theorem byteAt_writeAll_inside {place : Nat} (inside : place < bytes.length) :
    (memory.writeAll address bytes).byteAt (address + place) = bytes[place] := by
  induction bytes generalizing memory address place with
  | nil => exact absurd inside (Nat.not_lt_zero _)
  | cons byte rest ih =>
      rw [writeAll]
      cases place with
      | zero =>
          rw [byteAt_writeAll_outside (.inl (by omega)), byteAt_insert]
          exact if_pos rfl
      | succ place =>
          rw [show address + (place + 1) = address + 1 + place by omega]
          exact ih (Nat.lt_of_succ_lt_succ inside)

theorem write?_of_fits (fits : address + bytes.length ≤ memory.size) :
    memory.write? address bytes = some (memory.writeAll address bytes) :=
  if_pos (decide_eq_true fits)

theorem read?_of_fits (fits : address + length ≤ memory.size) :
    memory.read? address length =
      some ((List.range length).map fun place => memory.byteAt (address + place)) :=
  if_pos (decide_eq_true fits)

/-- Bytes that are there are read. -/
theorem read?_eq_some (fits : address + bytes.length ≤ memory.size)
    (there : ∀ place (inside : place < bytes.length),
      memory.byteAt (address + place) = bytes[place]) :
    memory.read? address bytes.length = some bytes := by
  rw [read?_of_fits fits]
  refine congrArg some (List.ext_getElem (by simp) fun place _ inside => ?_)
  rw [List.getElem_map, List.getElem_range, there place inside]

/-- Only what lies within the memory is read. -/
theorem fits_of_read? (read : memory.read? address length = some bytes) :
    address + length ≤ memory.size := by
  by_cases covered : memory.covers address length = true
  · exact of_decide_eq_true covered
  · rw [read?, if_neg covered] at read
    cases read

/-- Bytes that are read are there. -/
theorem byteAt_of_read? (read : memory.read? address bytes.length = some bytes) {place : Nat}
    (inside : place < bytes.length) : memory.byteAt (address + place) = bytes[place] := by
  rw [read?_of_fits (fits_of_read? read)] at read
  have atPlace := congrArg (·[place]?) (Option.some.inj read)
  simpa [inside] using atPlace

/-- Reading up to the end begins with what is there. -/
theorem read?_toEnd (read : memory.read? address bytes.length = some bytes) :
    ∃ rest, memory.read? address (memory.size - address) = some (bytes ++ rest) := by
  have fits := fits_of_read? read
  obtain ⟨more, split⟩ : ∃ more, memory.size - address = bytes.length + more :=
    Nat.exists_eq_add_of_le (Nat.le_sub_of_add_le' fits)
  rw [read?_of_fits fits] at read
  rw [read?_of_fits (by omega), split, List.range_add, List.map_append, Option.some.inj read]
  exact ⟨_, rfl⟩

/-- The bytes from an address up to the first zero byte, or up to the end of the memory. -/
def untilZero? (memory : Memory) (address : Nat) : Option (List UInt8) :=
  (memory.read? address (memory.size - address)).map (·.takeWhile (· ≠ 0))

/-! ## Copying segments -/

/-- The memory with segments copied into it, one after another. -/
def copyAll (memory : Memory) (segments : List MemorySegment) : Option Memory :=
  segments.foldlM (fun memory segment => memory.write? segment.address segment.bytes) memory

/-- The memory has the bytes of the segments in their regions, and zero bytes everywhere else. -/
structure Shows (memory : Memory) (segments : List MemorySegment) : Prop where
  inside : ∀ segment ∈ segments,
    memory.read? segment.address segment.bytes.length = some segment.bytes
  outside : ∀ address, (∀ segment ∈ segments, ¬ segment.region.Holds address) →
    memory.byteAt address = 0

/-- **What a memory shows determines its bytes**, whatever the order of the segments is. -/
theorem Shows.byteAt_eq {other : Memory} {segments others : List MemorySegment}
    (shows : memory.Shows segments) (otherShows : other.Shows others)
    (same : ∀ segment, segment ∈ segments ↔ segment ∈ others) (address : Nat) :
    memory.byteAt address = other.byteAt address := by
  by_cases held : ∃ segment ∈ segments, segment.region.Holds address
  · obtain ⟨segment, member, holds⟩ := held
    obtain ⟨place, inside, rfl⟩ := MemorySegment.holds_iff.mp holds
    rw [byteAt_of_read? (shows.inside segment member) inside,
      byteAt_of_read? (otherShows.inside segment ((same segment).mp member)) inside]
  · have outside : ∀ segment ∈ segments, ¬ segment.region.Holds address :=
      fun segment member holds => held ⟨segment, member, holds⟩
    have otherOutside : ∀ segment ∈ others, ¬ segment.region.Holds address :=
      fun segment member => outside segment ((same segment).mpr member)
    rw [shows.outside address outside, otherShows.outside address otherOutside]

/-- Segments that cover the whole, when they are shown, show the whole. -/
theorem Shows.read?_whole {whole : List UInt8} {segments : List MemorySegment}
    (shows : memory.Shows segments) (cuts : ∀ segment ∈ segments, segment.IsCutOf whole)
    (cover : ∀ address < whole.length, ∃ segment ∈ segments, segment.region.Holds address)
    (fits : whole.length ≤ memory.size) : memory.read? 0 whole.length = some whole := by
  refine read?_eq_some (by rwa [Nat.zero_add]) fun place inside => ?_
  obtain ⟨segment, member, holds⟩ := cover place inside
  obtain ⟨further, within, rfl⟩ := MemorySegment.holds_iff.mp holds
  have atPlace := (cuts segment member).getElem? within
  rw [List.getElem?_eq_getElem inside] at atPlace
  rw [Nat.zero_add, byteAt_of_read? (shows.inside segment member) within, Option.some.inj atPlace]

/-- What is known while segments are copied: the addresses in a region that was copied have the
bytes of the whole, and all others are zero. -/
structure Agrees (memory : Memory) (whole : List UInt8) (copied : List MemorySegment) : Prop where
  written : ∀ segment ∈ copied, ∀ address, segment.region.Holds address →
    whole[address]? = some (memory.byteAt address)
  blank : ∀ address, (∀ segment ∈ copied, ¬ segment.region.Holds address) →
    memory.byteAt address = 0

variable {whole : List UInt8} {copied : List MemorySegment}

/-- One more segment, which may lie anywhere, also on those before. -/
theorem Agrees.write (agrees : memory.Agrees whole copied) {segment : MemorySegment}
    (cut : segment.IsCutOf whole) :
    (memory.writeAll segment.address segment.bytes).Agrees whole (copied ++ [segment]) := by
  have within : ∀ address, segment.region.Holds address → whole[address]? =
      some ((memory.writeAll segment.address segment.bytes).byteAt address) := by
    intro address holds
    obtain ⟨place, inside, rfl⟩ := MemorySegment.holds_iff.mp holds
    rw [byteAt_writeAll_inside inside, cut.getElem? inside]
  have kept : ∀ address, ¬ segment.region.Holds address →
      (memory.writeAll segment.address segment.bytes).byteAt address = memory.byteAt address := by
    intro address outside
    refine byteAt_writeAll_outside ?_
    change ¬ (segment.address ≤ address ∧
      address < segment.address + segment.bytes.length) at outside
    omega
  constructor
  · intro other member address holds
    by_cases now : segment.region.Holds address
    · exact within address now
    · rcases List.mem_append.mp member with before | last
      · rw [kept address now]
        exact agrees.written other before address holds
      · obtain rfl : other = segment := List.mem_singleton.mp last
        exact absurd holds now
  · intro address outside
    rw [kept address (outside segment (by simp))]
    refine agrees.blank address fun other member => ?_
    exact outside other (List.mem_append_left _ member)

/-- Segments that are cut out of one whole can be copied in any order. -/
theorem copyAll_agrees {pages : Nat} {segments : List MemorySegment}
    (cuts : ∀ segment ∈ segments, segment.IsCutOf whole)
    (fits : whole.length ≤ pages * pageSize) :
    ∃ memory, (zeroed pages).copyAll segments = some memory ∧ memory.pages = pages ∧
      memory.Agrees whole segments := by
  induction segments using List.reverseRecOn with
  | nil =>
      refine ⟨zeroed pages, rfl, rfl, ?_, ?_⟩
      · intro segment member
        cases member
      · intro address _
        exact byteAt_zeroed pages address
  | append_singleton earlier segment ih =>
      obtain ⟨memory, copies, same, agrees⟩ :=
        ih fun other member => cuts other (List.mem_append_left _ member)
      have cut : segment.IsCutOf whole := cuts segment (by simp)
      have room : segment.address + segment.bytes.length ≤ memory.size := by
        rw [size, same]
        exact Nat.le_trans cut.end_le fits
      refine ⟨memory.writeAll segment.address segment.bytes, ?_, ?_, agrees.write cut⟩
      · rw [copyAll] at copies
        rw [copyAll, List.foldlM_append, copies]
        change (some memory).bind _ = _
        rw [Option.bind_some, List.foldlM_cons, write?_of_fits room]
        rfl
      · rw [pages_writeAll, same]

/-- **Segments that are cut out of one whole show in memory, in whatever order they are copied.** -/
theorem exists_shows {pages : Nat} {segments : List MemorySegment}
    (cuts : ∀ segment ∈ segments, segment.IsCutOf whole)
    (fits : whole.length ≤ pages * pageSize) :
    ∃ memory, (zeroed pages).copyAll segments = some memory ∧ memory.pages = pages ∧
      memory.Shows segments := by
  obtain ⟨memory, copies, same, agrees⟩ := copyAll_agrees cuts fits
  refine ⟨memory, copies, same, ?_, agrees.blank⟩
  intro segment member
  have cut := cuts segment member
  refine read?_eq_some ?_ fun place inside => ?_
  · rw [size, same]
    exact Nat.le_trans cut.end_le fits
  · have holds := MemorySegment.holds_iff.mpr ⟨place, inside, rfl⟩
    have written := agrees.written segment member _ holds
    rw [cut.getElem? inside] at written
    exact (Option.some.inj written).symm

end Memory

end WasmWorkshop.Machine
