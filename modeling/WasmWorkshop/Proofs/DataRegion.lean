import Mathlib.Algebra.Ring.Nat
import Mathlib.Data.List.Induction
import WasmWorkshop.DataLayout

/-!
# The data region fills up from its start

A literal is either accepted, and then lies right behind all literals that were accepted before it,
or refused, and then changes nothing but the mark of overflow. Which of the two happens is seen from
the regions alone: a refused literal has none (`DataLiteral.IsRefused`).

The regions of a layout lie back to back from address 0 up to the cursor, and the cursor stays
within 32 bits (`DataLayout.IsPacked`). One step keeps this (`DataLayout.IsPacked.reserve`), so it
holds of every layout that starts out empty, also when literals were refused on the way. All else
follows from it: offsets are sums of earlier lengths, and no two regions have an address in common.

The main statement puts this together for any literals, of any length (`layoutAfter_history`).
-/

set_option autoImplicit false

namespace WasmWorkshop

/-! ## Regions that lie back to back -/

/-- The address lies in the region. -/
def Region.Holds (region : Region) (address : Nat) : Prop :=
  region.offset ≤ address ∧ address < region.offset + region.length

/-- The regions have no address in common. -/
def Region.Apart (first second : Region) : Prop :=
  ∀ address, ¬ (first.Holds address ∧ second.Holds address)

/-- The regions follow one another without a gap, from `start` up to `finish`. -/
def BackToBack (start : Nat) : List Region → Nat → Prop
  | [], finish => start = finish
  | region :: rest, finish =>
    region.offset = start ∧ BackToBack (start + region.length) rest finish

namespace BackToBack

variable {start middle finish : Nat} {regions : List Region}

theorem append {more : List Region} (before : BackToBack start regions middle)
    (after : BackToBack middle more finish) : BackToBack start (regions ++ more) finish := by
  induction regions generalizing start with
  | nil =>
      obtain rfl : start = middle := before
      exact after
  | cons region rest ih =>
      obtain ⟨here, further⟩ := before
      exact ⟨here, ih further⟩

theorem of_append {more : List Region} (whole : BackToBack start (regions ++ more) finish) :
    ∃ middle, BackToBack start regions middle ∧ BackToBack middle more finish := by
  induction regions generalizing start with
  | nil => exact ⟨start, rfl, whole⟩
  | cons region rest ih =>
      obtain ⟨here, further⟩ := whole
      obtain ⟨middle, before, after⟩ := ih further
      exact ⟨middle, ⟨here, before⟩, after⟩

theorem finish_eq (packed : BackToBack start regions finish) :
    finish = start + (regions.map Region.length).sum := by
  induction regions generalizing start with
  | nil => exact packed.symm
  | cons region rest ih =>
      obtain ⟨-, further⟩ := packed
      rw [ih further, List.map_cons, List.sum_cons, Nat.add_assoc]

/-- **A region starts where the lengths of those before it add up to.** -/
theorem offset_eq {earlier later : List Region} {region : Region}
    (packed : BackToBack start (earlier ++ region :: later) finish) :
    region.offset = start + (earlier.map Region.length).sum := by
  obtain ⟨middle, before, here, -⟩ := packed.of_append
  rw [here, before.finish_eq]

/-- The last region ends where all of them do. -/
theorem last_end {last : Region} (packed : BackToBack start (regions ++ [last]) finish) :
    last.offset + last.length = finish := by
  obtain ⟨middle, -, here, after⟩ := packed.of_append
  rw [here]
  exact after

theorem start_le (packed : BackToBack start regions finish) : start ≤ finish := by
  rw [packed.finish_eq]
  exact Nat.le_add_right ..

/-- Every region lies between the start and the finish. -/
theorem bounds (packed : BackToBack start regions finish) {region : Region}
    (member : region ∈ regions) :
    start ≤ region.offset ∧ region.offset + region.length ≤ finish := by
  obtain ⟨earlier, later, rfl⟩ := List.append_of_mem member
  obtain ⟨middle, before, here, after⟩ := packed.of_append
  rw [here]
  exact ⟨before.start_le, after.start_le⟩

/-- **Regions that lie back to back are apart from one another.** -/
theorem pairwise_apart (packed : BackToBack start regions finish) :
    regions.Pairwise Region.Apart := by
  induction regions generalizing start with
  | nil => exact .nil
  | cons region rest ih =>
      obtain ⟨here, further⟩ := packed
      refine .cons (fun other member address shared => ?_) (ih further)
      obtain ⟨⟨-, below⟩, above, -⟩ := shared
      have later := (further.bounds member).1
      omega

/-- An address between the start and the finish lies in one of the regions. -/
theorem exists_holds (packed : BackToBack start regions finish) {address : Nat}
    (above : start ≤ address) (below : address < finish) :
    ∃ region ∈ regions, region.Holds address := by
  induction regions generalizing start with
  | nil =>
      obtain rfl : start = finish := packed
      exact absurd below (Nat.not_lt.mpr above)
  | cons region rest ih =>
      obtain ⟨here, further⟩ := packed
      by_cases inside : address < start + region.length
      · exact ⟨region, List.mem_cons_self, here ▸ above, here ▸ inside⟩
      · obtain ⟨other, member, holds⟩ := ih further (Nat.not_lt.mp inside)
        exact ⟨other, List.mem_cons_of_mem region member, holds⟩

end BackToBack

/-! ## Packed layouts -/

namespace DataLayout

variable {layout : DataLayout} {length : Nat}

theorem finish?_of_fits (fits : layout.cursor + length ≤ limit) :
    layout.finish? length = some (layout.cursor + length) := by
  have short : ¬ limit < length := Nat.not_lt.mpr (Nat.le_trans (Nat.le_add_left ..) fits)
  rw [finish?, if_neg short, if_neg (Nat.not_lt.mpr fits)]

/-- There is no room, be it for the length alone or behind the cursor. -/
theorem finish?_of_full (full : limit < layout.cursor + length) : layout.finish? length = none := by
  rw [finish?, if_pos full, ite_self]

theorem reserve_of_fits (fits : layout.cursor + length ≤ limit) :
    layout.reserve length =
      { layout with
        cursor := layout.cursor + length
        regions := layout.regions ++ [⟨layout.cursor, length⟩] } := by
  rw [reserve, finish?_of_fits fits]

theorem reserve_of_full (full : limit < layout.cursor + length) :
    layout.reserve length = { layout with overflowed := true } := by
  rw [reserve, finish?_of_full full]

/-- The regions fill the addresses from 0 up to the cursor, which 32 bits can hold. -/
structure IsPacked (layout : DataLayout) : Prop where
  backToBack : BackToBack 0 layout.regions layout.cursor
  within : layout.cursor ≤ limit

theorem isPacked_empty : empty.IsPacked := ⟨rfl, Nat.zero_le _⟩

/-- **A packed layout stays packed**, whether there is room or not. -/
theorem IsPacked.reserve (packed : layout.IsPacked) (length : Nat) :
    (layout.reserve length).IsPacked := by
  rcases Nat.lt_or_ge limit (layout.cursor + length) with full | fits
  · rw [reserve_of_full full]
    exact ⟨packed.backToBack, packed.within⟩
  · rw [reserve_of_fits fits]
    have behind : BackToBack layout.cursor [⟨layout.cursor, length⟩] (layout.cursor + length) :=
      ⟨rfl, rfl⟩
    exact ⟨packed.backToBack.append behind, fits⟩

/-- No region is recorded exactly if there is no room. -/
theorem regions_reserve_eq_iff :
    (layout.reserve length).regions = layout.regions ↔ limit < layout.cursor + length := by
  rcases Nat.lt_or_ge limit (layout.cursor + length) with full | fits
  · rw [reserve_of_full full]
    exact ⟨fun _ => full, fun _ => rfl⟩
  · rw [reserve_of_fits fits]
    constructor
    · intro same
      exact absurd same (by simp)
    · intro full
      exact absurd fits (Nat.not_le.mpr full)

end DataLayout

/-! ## Literals one after another -/

/-- A literal for which room is asked: bytes as they are, or a text with a zero byte behind it. -/
inductive DataLiteral where
  | data (bytes : List UInt8)
  | string (text : String)

namespace DataLiteral

/-- The bytes that a literal takes up. -/
def contents : DataLiteral → List UInt8
  | .data bytes => bytes
  | .string text => terminated text

/-- The number of bytes that a literal takes up. -/
def length (literal : DataLiteral) : Nat := literal.contents.length

/-- The offset that a literal gets, and the layout after it. -/
def register (layout : DataLayout) : DataLiteral → Nat × DataLayout
  | .data bytes => layout.register bytes
  | .string text =>
    let ((offset, _), layout) := layout.registerText text
    (offset, layout)

/-- The literal is refused: the layout has no more regions than before. -/
def IsRefused (layout : DataLayout) (literal : DataLiteral) : Prop :=
  (literal.register layout).2.regions = layout.regions

instance (layout : DataLayout) (literal : DataLiteral) : Decidable (literal.IsRefused layout) :=
  inferInstanceAs (Decidable (_ = _))

theorem register_eq (layout : DataLayout) (literal : DataLiteral) :
    literal.register layout = (layout.cursor, layout.reserve literal.length) := by
  cases literal <;> rfl

theorem isRefused_iff (layout : DataLayout) (literal : DataLiteral) :
    literal.IsRefused layout ↔ DataLayout.limit < layout.cursor + literal.length := by
  rw [IsRefused, register_eq, DataLayout.regions_reserve_eq_iff]

/-- The literals that are accepted, among those that are asked for one after another. -/
def acceptedFrom (layout : DataLayout) : List DataLiteral → List DataLiteral
  | [] => []
  | literal :: rest =>
    (if literal.IsRefused layout then [] else [literal]) ++
      acceptedFrom (literal.register layout).2 rest

/-- The layout after literals that were asked for one after another. -/
def layoutFrom (layout : DataLayout) (literals : List DataLiteral) : DataLayout :=
  literals.foldl (fun layout literal => (literal.register layout).2) layout

/-- The number of bytes that literals take up together. -/
def totalLength (literals : List DataLiteral) : Nat := (literals.map length).sum

end DataLiteral

open DataLiteral

/-- The layout after literals that were asked for on a new one. -/
def layoutAfter (literals : List DataLiteral) : DataLayout := layoutFrom .empty literals

/-- The literals for which there was room on a new layout. -/
def accepted (literals : List DataLiteral) : List DataLiteral := acceptedFrom .empty literals

/-- Some of the literals was refused when its turn came. -/
def SomeRefused (literals : List DataLiteral) : Prop :=
  ∃ before literal after, literals = before ++ literal :: after ∧
    literal.IsRefused (layoutAfter before)

theorem layoutFrom_append_singleton (layout : DataLayout) (literals : List DataLiteral)
    (literal : DataLiteral) :
    layoutFrom layout (literals ++ [literal]) =
      (literal.register (layoutFrom layout literals)).2 := by
  rw [layoutFrom, List.foldl_append]
  rfl

theorem acceptedFrom_append_singleton (layout : DataLayout) (literals : List DataLiteral)
    (literal : DataLiteral) :
    acceptedFrom layout (literals ++ [literal]) =
      acceptedFrom layout literals ++
        if literal.IsRefused (layoutFrom layout literals) then [] else [literal] := by
  induction literals generalizing layout with
  | nil => exact List.append_nil _
  | cons first rest ih =>
      rw [List.cons_append, acceptedFrom, ih, acceptedFrom, List.append_assoc]
      rfl

/-- What holds somewhere in a list with one more entry holds in the list or of that entry. -/
theorem exists_split_append_singleton {α : Type} (holds : List α → α → Prop) (list : List α)
    (last : α) :
    (∃ before here after, list ++ [last] = before ++ here :: after ∧ holds before here) ↔
      (∃ before here after, list = before ++ here :: after ∧ holds before here) ∨
        holds list last := by
  constructor
  · rintro ⟨before, here, after, split, found⟩
    rcases List.eq_nil_or_concat after with rfl | ⟨rest, final, rfl⟩
    · obtain ⟨rfl, same⟩ := List.append_inj' split rfl
      obtain ⟨rfl, -⟩ := List.cons.inj same
      exact .inr found
    · have split : list ++ [last] = (before ++ here :: rest) ++ [final] := by
        simpa using split
      obtain ⟨rfl, -⟩ := List.append_inj' split rfl
      exact .inl ⟨before, here, rest, rfl, found⟩
  · rintro (⟨before, here, after, rfl, found⟩ | found)
    · exact ⟨before, here, after ++ [last], by simp, found⟩
    · exact ⟨list, last, [], rfl, found⟩

theorem someRefused_append_singleton (literals : List DataLiteral) (literal : DataLiteral) :
    SomeRefused (literals ++ [literal]) ↔
      SomeRefused literals ∨ literal.IsRefused (layoutAfter literals) :=
  exists_split_append_singleton _ literals literal

/-- Refusals are not undone. -/
theorem SomeRefused.append {literals : List DataLiteral} (refused : SomeRefused literals)
    (more : List DataLiteral) : SomeRefused (literals ++ more) := by
  obtain ⟨before, literal, after, rfl, isRefused⟩ := refused
  exact ⟨before, literal, after ++ more, by simp, isRefused⟩

/-- **Layouts that start out empty are packed.** -/
theorem isPacked_layoutAfter (literals : List DataLiteral) : (layoutAfter literals).IsPacked := by
  induction literals using List.reverseRecOn with
  | nil => exact DataLayout.isPacked_empty
  | append_singleton earlier literal ih =>
      rw [layoutAfter, layoutFrom_append_singleton, register_eq]
      exact ih.reserve literal.length

/-- The regions are those of the accepted literals, in order. -/
theorem lengths_layoutAfter (literals : List DataLiteral) :
    (layoutAfter literals).regions.map Region.length = (accepted literals).map length := by
  induction literals using List.reverseRecOn with
  | nil => rfl
  | append_singleton earlier literal ih =>
      rw [layoutAfter] at ih
      rw [layoutAfter, accepted, layoutFrom_append_singleton, acceptedFrom_append_singleton,
        List.map_append]
      by_cases refused : literal.IsRefused (layoutFrom .empty earlier)
      · rw [if_pos refused, List.map_nil, List.append_nil, refused, ih, accepted]
      · have fits := Nat.not_lt.mp (mt (isRefused_iff _ literal).mpr refused)
        rw [if_neg refused, register_eq, DataLayout.reserve_of_fits fits, List.map_append, ih,
          accepted]
        rfl

/-- **The cursor is the number of bytes of the accepted literals.** -/
theorem cursor_layoutAfter (literals : List DataLiteral) :
    (layoutAfter literals).cursor = totalLength (accepted literals) := by
  rw [(isPacked_layoutAfter literals).backToBack.finish_eq, lengths_layoutAfter, Nat.zero_add]
  rfl

/-- All literals are accepted if none is refused. -/
theorem accepted_of_noneRefused {literals : List DataLiteral}
    (noneRefused : ¬ SomeRefused literals) : accepted literals = literals := by
  induction literals using List.reverseRecOn with
  | nil => rfl
  | append_singleton earlier literal ih =>
      rw [someRefused_append_singleton, not_or] at noneRefused
      obtain ⟨before, now⟩ := noneRefused
      rw [accepted] at ih
      rw [accepted, acceptedFrom_append_singleton, ih before]
      exact congrArg (earlier ++ ·) (if_neg now)

/-- **The mark of overflow tells whether some literal was refused.** -/
theorem overflowed_layoutAfter (literals : List DataLiteral) :
    (layoutAfter literals).overflowed = true ↔ SomeRefused literals := by
  induction literals using List.reverseRecOn with
  | nil =>
      constructor
      · intro overflowed
        cases overflowed
      · rintro ⟨before, literal, after, split, -⟩
        exact absurd split (by simp)
  | append_singleton earlier literal ih =>
      rw [someRefused_append_singleton, ← ih, isRefused_iff, layoutAfter,
        layoutFrom_append_singleton, register_eq, ← layoutAfter]
      rcases Nat.lt_or_ge DataLayout.limit ((layoutAfter earlier).cursor + literal.length) with
        full | fits
      · rw [DataLayout.reserve_of_full full]
        exact ⟨fun _ => .inr full, fun _ => rfl⟩
      · rw [DataLayout.reserve_of_fits fits]
        exact ⟨.inl, fun either => either.resolve_right (Nat.not_lt.mpr fits)⟩

/-! ## The history of a data region -/

/-- What a layout is like after the given literals. -/
structure RegionTells (literals : List DataLiteral) (layout : DataLayout) : Prop where
  cursor : layout.cursor = totalLength (accepted literals)
  within : layout.cursor ≤ 2 ^ 32 - 1
  lengths : layout.regions.map Region.length = (accepted literals).map length
  backToBack : BackToBack 0 layout.regions layout.cursor
  offsets : ∀ earlier region later, layout.regions = earlier ++ region :: later →
    region.offset = (earlier.map Region.length).sum
  apart : layout.regions.Pairwise Region.Apart
  overflowed : layout.overflowed = true ↔ SomeRefused literals

/-- What becomes of one more literal after the given ones. -/
structure LiteralPlaced (literals : List DataLiteral) (literal : DataLiteral) : Prop where
  refused_iff : literal.IsRefused (layoutAfter literals) ↔
    2 ^ 32 - 1 < literal.length ∨ 2 ^ 32 - 1 < (layoutAfter literals).cursor + literal.length
  /-- An accepted literal lies behind all that were accepted before. -/
  accepted : ¬ literal.IsRefused (layoutAfter literals) →
    literal.register (layoutAfter literals) =
      (totalLength (accepted literals),
        { layoutAfter literals with
          cursor := (layoutAfter literals).cursor + literal.length
          regions := (layoutAfter literals).regions ++
            [⟨totalLength (accepted literals), literal.length⟩] })
  /-- A refused literal gets the cursor as its offset, and moves nothing. -/
  refused : literal.IsRefused (layoutAfter literals) →
    literal.register (layoutAfter literals) =
      ((layoutAfter literals).cursor, { layoutAfter literals with overflowed := true })

theorem literalPlaced (literals : List DataLiteral) (literal : DataLiteral) :
    LiteralPlaced literals literal := by
  have refusedIff := isRefused_iff (layoutAfter literals) literal
  refine ⟨?_, ?_, ?_⟩
  · rw [refusedIff, DataLayout.limit]
    omega
  · intro notRefused
    have fits := Nat.not_lt.mp (mt refusedIff.mpr notRefused)
    rw [register_eq, DataLayout.reserve_of_fits fits, ← cursor_layoutAfter]
  · intro isRefused
    rw [register_eq, DataLayout.reserve_of_full (refusedIff.mp isRefused)]

/-- **The history of a data region.** After any literals, of any length, the accepted ones lie back
to back from address 0 up to the cursor, which 32 bits can hold, and the mark of overflow tells
whether some literal was refused. One more literal is refused exactly if it or the region with it is
too long; a literal that fits is accepted behind the accepted ones, also after others were refused.
The mark is never cleared. -/
theorem layoutAfter_history (literals : List DataLiteral) :
    RegionTells literals (layoutAfter literals) ∧
      (∀ literal, LiteralPlaced literals literal) ∧
      ∀ more, (layoutAfter literals).overflowed = true →
        (layoutAfter (literals ++ more)).overflowed = true := by
  have packed := isPacked_layoutAfter literals
  have offsets : ∀ earlier region later,
      (layoutAfter literals).regions = earlier ++ region :: later →
        region.offset = (earlier.map Region.length).sum := by
    intro earlier region later split
    have backToBack := packed.backToBack
    rw [split] at backToBack
    rw [backToBack.offset_eq, Nat.zero_add]
  refine ⟨?_, literalPlaced literals, ?_⟩
  · exact ⟨cursor_layoutAfter literals, packed.within, lengths_layoutAfter literals,
      packed.backToBack, offsets, packed.backToBack.pairwise_apart,
      overflowed_layoutAfter literals⟩
  · intro more overflowed
    rw [overflowed_layoutAfter] at overflowed ⊢
    exact overflowed.append more

end WasmWorkshop
