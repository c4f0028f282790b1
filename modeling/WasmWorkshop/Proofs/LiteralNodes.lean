import Mathlib.Data.List.Basic
import Std.Data.String.ToNat
import WasmWorkshop.Proofs.EscapedBytes
import WasmWorkshop.Proofs.MemoryImage
import WasmWorkshop.Proofs.SessionLog

/-!
# Data literals from their nodes into memory

The node of a data literal is enough to put the literal where it belongs: its header is read back to
the address and the bytes (`segment?_literalNode`). The literals of a session are cut out of one
whole, their concatenation (`DataLiteral.isCutOf_of_mem`), so any choice of their nodes can be
loaded in any order, and each text is found at its address up to the zero byte behind it.

The memory that a session declares is as large as the data region at that time, and the data region
ends with its last region. This rests on the region being packed at every moment of a session
(`isPacked_replay`).

The main statement is about all literals and all sessions (`literals_fill_memory`).
-/

set_option autoImplicit false

namespace WasmWorkshop

open Machine (Memory MemorySegment)
open DataLiteral (contents totalLength)

/-! ## Reading nodes back -/

/-- What stands between an opening and a closing text. -/
def between? (opening closing text : String) : Option String :=
  ((opening.toList.isPrefixOf? text.toList).bind closing.toList.isSuffixOf?).map String.ofList

theorem between?_append (opening middle closing : String) :
    between? opening closing (opening ++ middle ++ closing) = some middle := by
  have front : opening.toList.isPrefixOf? (opening ++ middle ++ closing).toList =
      some (middle.toList ++ closing.toList) :=
    List.isPrefixOf?_eq_some_iff_append_eq.mpr (by simp)
  have back : closing.toList.isSuffixOf? (middle.toList ++ closing.toList) = some middle.toList :=
    List.isSuffixOf?_eq_some_iff_append_eq.mpr rfl
  rw [between?, front, Option.bind_some, back, Option.map_some, String.ofList_toList]

theorem toNat?_toString (number : Nat) : (toString number).toNat? = some number := by
  rw [Nat.toString_eq_repr, Nat.toNat?_repr]

/-- The address and the bytes that a data node states. -/
def Node.segment? : Node → Option MemorySegment
  | .form ["data", position, body] _ => do
    let digits ← between? "(i32.const " ")" position
    let address ← digits.toNat?
    let escaped ← between? "\"" "\"" body
    let bytes ← unescape? escaped.toList
    return ⟨address, bytes⟩
  | _ => none

/-- The size that a memory node declares. -/
def Node.memorySize? : Node → Option Nat
  | .form ["memory", "$memory", size] _ => size.toNat?
  | _ => none

/-- The node that states an address and bytes. -/
def literalNode (segment : MemorySegment) : Node := .dataLiteral segment.address segment.bytes

/-- **A data node is read back.** -/
theorem segment?_literalNode (segment : MemorySegment) :
    (literalNode segment).segment? = some segment := by
  change (do
    let digits ← between? "(i32.const " ")" ("(i32.const " ++ toString segment.address ++ ")")
    let address ← digits.toNat?
    let escaped ← between? "\"" "\"" ("\"" ++ escapeBytes segment.bytes ++ "\"")
    let bytes ← unescape? escaped.toList
    return MemorySegment.mk address bytes) = _
  simp only [between?_append, toNat?_toString, unescape?_escapeBytes, Option.bind_eq_bind,
    Option.bind_some, Option.pure_def]

/-- The memory of zero bytes after the segments of data nodes are copied into it. -/
def loadNodes? (pages : Nat) (nodes : List Node) : Option Memory := do
  let segments ← nodes.mapM Node.segment?
  (Memory.zeroed pages).copyAll segments

theorem loadNodes?_map (pages : Nat) (segments : List MemorySegment) :
    loadNodes? pages (segments.map literalNode) = (Memory.zeroed pages).copyAll segments := by
  have decoded : (segments.map literalNode).mapM Node.segment? = some segments := by
    induction segments with
    | nil => rfl
    | cons segment rest ih =>
        rw [List.map_cons, List.mapM_cons, segment?_literalNode, ih]
        rfl
  rw [loadNodes?, decoded]
  rfl

/-- Nodes that are chosen among nodes of segments are nodes of segments. -/
theorem exists_map_literalNode {segments : List MemorySegment} {chosen : List Node}
    (among : chosen ⊆ segments.map literalNode) :
    ∃ picked, chosen = picked.map literalNode ∧ picked ⊆ segments := by
  induction chosen with
  | nil => exact ⟨[], rfl, List.nil_subset segments⟩
  | cons node rest ih =>
      obtain ⟨here, further⟩ := List.cons_subset.mp among
      obtain ⟨segment, member, rfl⟩ := List.mem_map.mp here
      obtain ⟨picked, rfl, within⟩ := ih further
      exact ⟨segment :: picked, rfl, List.cons_subset.mpr ⟨member, within⟩⟩

theorem literalNode_injective : Function.Injective literalNode := by
  intro first second same
  have read := segment?_literalNode first
  rw [same, segment?_literalNode] at read
  exact (Option.some.inj read).symm

/-! ## Literals as segments -/

namespace DataLiteral

/-- Literals at the addresses that they get, from `start` on. -/
def segmentsFrom (start : Nat) : List DataLiteral → List MemorySegment
  | [] => []
  | literal :: rest => ⟨start, literal.contents⟩ :: segmentsFrom (start + literal.length) rest

/-- The expression that asks for a literal. -/
def item : DataLiteral → Session.Item
  | .data bytes => .expression (.data bytes)
  | .string text => .expression (.string text)

theorem length_segmentsFrom (start : Nat) (literals : List DataLiteral) :
    (segmentsFrom start literals).length = literals.length := by
  induction literals generalizing start with
  | nil => rfl
  | cons literal rest ih => exact congrArg Nat.succ (ih _)

theorem totalLength_cons (literal : DataLiteral) (rest : List DataLiteral) :
    totalLength (literal :: rest) = literal.length + totalLength rest := rfl

theorem length_flatMap_contents (literals : List DataLiteral) :
    (literals.flatMap contents).length = totalLength literals := by
  rw [List.length_flatMap]
  rfl

/-- A literal lies where those before it end. -/
theorem getElem?_segmentsFrom (start : Nat) (earlier : List DataLiteral) (literal : DataLiteral)
    (later : List DataLiteral) :
    (segmentsFrom start (earlier ++ literal :: later))[earlier.length]? =
      some ⟨start + totalLength earlier, literal.contents⟩ := by
  induction earlier generalizing start with
  | nil => rfl
  | cons first rest ih =>
      rw [totalLength_cons, ← Nat.add_assoc]
      exact ih _

/-- Every segment is that of a literal. -/
theorem exists_of_mem_segmentsFrom {start : Nat} {literals : List DataLiteral}
    {segment : MemorySegment} (member : segment ∈ segmentsFrom start literals) :
    ∃ earlier literal later, literals = earlier ++ literal :: later ∧
      segment = ⟨start + totalLength earlier, literal.contents⟩ := by
  induction literals generalizing start with
  | nil => cases member
  | cons first rest ih =>
      rcases List.mem_cons.mp member with rfl | further
      · exact ⟨[], first, rest, rfl, rfl⟩
      · obtain ⟨earlier, literal, later, rfl, rfl⟩ := ih further
        refine ⟨first :: earlier, literal, later, rfl, ?_⟩
        rw [totalLength_cons, Nat.add_assoc]

/-- **Every literal is cut out of the concatenation of all.** -/
theorem isCutOf_of_mem {literals : List DataLiteral} {segment : MemorySegment}
    (member : segment ∈ segmentsFrom 0 literals) :
    segment.IsCutOf (literals.flatMap contents) := by
  obtain ⟨earlier, literal, later, rfl, rfl⟩ := exists_of_mem_segmentsFrom member
  refine ⟨earlier.flatMap contents, later.flatMap contents, by simp, ?_⟩
  rw [length_flatMap_contents, Nat.zero_add]

theorem backToBack_segmentsFrom (start : Nat) (literals : List DataLiteral) :
    BackToBack start ((segmentsFrom start literals).map MemorySegment.region)
      (start + totalLength literals) := by
  induction literals generalizing start with
  | nil => rfl
  | cons literal rest ih =>
      refine ⟨rfl, ?_⟩
      rw [totalLength_cons, ← Nat.add_assoc]
      exact ih _

end DataLiteral

end WasmWorkshop

namespace WasmWorkshop.Session

open Machine (Memory MemorySegment)
open DataLiteral (contents totalLength segmentsFrom)

/-! ## Literals of a session -/

/-- **Making literals for which there is room.** Their nodes state where they lie, and the data
region grows by just these. -/
theorem makeAll_literals {state : State} {literals : List DataLiteral}
    (room : state.builder.allocation + totalLength literals ≤ DataLayout.limit) :
    let segments := segmentsFrom state.builder.allocation literals
    let made := (Item.makeAll (literals.map DataLiteral.item)).run state
    made.1 = segments.map literalNode ∧
      made.2.builder.allocation = state.builder.allocation + totalLength literals ∧
      made.2.builder.layout.regions =
        state.builder.layout.regions ++ segments.map MemorySegment.region := by
  induction literals generalizing state with
  | nil => exact ⟨rfl, rfl, (List.append_nil _).symm⟩
  | cons literal rest ih =>
      rw [DataLiteral.totalLength_cons, ← Nat.add_assoc] at room
      have fits : state.builder.layout.cursor + literal.length ≤ DataLayout.limit :=
        Nat.le_trans (Nat.le_add_right ..) room
      have placed := DataLayout.reserve_of_fits fits
      have cursor : (state.change (·.place literal.contents)).builder.allocation =
          state.builder.allocation + literal.length := congrArg DataLayout.cursor placed
      have regions : (state.change (·.place literal.contents)).builder.layout.regions =
          state.builder.layout.regions ++ [⟨state.builder.allocation, literal.length⟩] :=
        congrArg DataLayout.regions placed
      have step : (Item.makeAll ((literal :: rest).map DataLiteral.item)).run state =
          (literalNode ⟨state.builder.allocation, literal.contents⟩ ::
            ((Item.makeAll (rest.map DataLiteral.item)).run
              (state.change (·.place literal.contents))).1,
            ((Item.makeAll (rest.map DataLiteral.item)).run
              (state.change (·.place literal.contents))).2) := by
        cases literal <;> rfl
      rw [← cursor] at room
      obtain ⟨nodes, allocation, further⟩ := ih room
      intro segments made
      refine ⟨?_, ?_, ?_⟩
      · simp only [made, step]
        rw [nodes, cursor]
        rfl
      · simp only [made, step]
        rw [allocation, cursor, DataLiteral.totalLength_cons, Nat.add_assoc]
      · simp only [made, step]
        rw [further, regions, cursor, List.append_assoc]
        rfl

/-! ## The memory that is declared -/

/-- Where the last region of a layout ends. -/
def lastEnd (layout : DataLayout) : Nat :=
  match layout.regions.getLast? with
  | none => 0
  | some region => region.offset + region.length

theorem lastEnd_eq_cursor {layout : DataLayout} (packed : layout.IsPacked) :
    lastEnd layout = layout.cursor := by
  have backToBack := packed.backToBack
  rw [lastEnd]
  rcases List.eq_nil_or_concat layout.regions with none | ⟨earlier, last, split⟩
  · rw [none] at backToBack ⊢
    exact backToBack
  · rw [List.concat_eq_append] at split
    rw [split] at backToBack ⊢
    rw [List.getLast?_concat]
    exact backToBack.last_end

theorem isPacked_apply {state : State} (packed : state.builder.layout.IsPacked) (event : Event) :
    (event.apply state).builder.layout.IsPacked := by
  cases event with
  | module runs => cases runs <;> exact packed
  | close body => exact packed
  | emit node => exact packed
  | register length => exact packed.reserve length
  | ask question => exact packed

/-- **The data region is packed at every moment of a session.** -/
theorem isPacked_replay {start : State} (packed : start.builder.layout.IsPacked)
    (events : List Event) : (replay start events).builder.layout.IsPacked := by
  induction events generalizing start with
  | nil => exact packed
  | cons event rest ih => exact ih (isPacked_apply packed event)

/-! ## Literals in memory -/

/-- The node of the literal that comes after `earlier`. -/
structure IsNodeOf (literals : List DataLiteral) (nodes : List Node) (earlier : List DataLiteral)
    (literal : DataLiteral) (node : Node) : Prop where
  stands : ∃ later, literals = earlier ++ literal :: later
  made : nodes[earlier.length]? = some node

/-- Every literal has a node, which states where the literal lies and its bytes. -/
structure NodesTell (literals : List DataLiteral) (nodes : List Node) (layout : DataLayout) :
    Prop where
  count : nodes.length = literals.length
  segment : ∀ earlier literal node, IsNodeOf literals nodes earlier literal node →
    node.segment? = some ⟨totalLength earlier, literal.contents⟩
  region : ∀ earlier literal node, IsNodeOf literals nodes earlier literal node →
    layout.regions[earlier.length]? = some ⟨totalLength earlier, literal.length⟩

/-- What is in memory after some of the nodes are loaded. -/
structure ImageTells (literals : List DataLiteral) (nodes chosen : List Node) (memory : Memory) :
    Prop where
  /-- The region of a chosen literal has its bytes. -/
  inside : ∀ earlier literal node, IsNodeOf literals nodes earlier literal node → node ∈ chosen →
    memory.read? (totalLength earlier) literal.length = some literal.contents
  /-- All else is zero. -/
  outside : ∀ address,
    (∀ earlier literal node, IsNodeOf literals nodes earlier literal node → node ∈ chosen →
      ¬ Region.Holds ⟨totalLength earlier, literal.length⟩ address) →
    memory.byteAt address = 0
  /-- A chosen text without U+0000 ends at the first zero byte. -/
  text : ∀ earlier text node, IsNodeOf literals nodes earlier (.string text) node →
    node ∈ chosen → '\x00' ∉ text.toList →
    memory.untilZero? (totalLength earlier) = some (utf8Bytes text)

/-- What is declared for the data region after a body is made. -/
structure AllocationTells (state : State) (body : List Item) : Prop where
  /-- The form of the memory stands behind the nodes of the body, before the export. -/
  declares : ∃ memory exported, ((Expression.allocate body).make.run state).1.children =
      ((Item.makeAll body).run state).1 ++ [memory, exported] ∧
    memory.memorySize? = some (stateAfter (Item.makeAll body) state).builder.allocation
  /-- The data region ends with its last region. -/
  lastEnd : (stateAfter (Item.makeAll body) state).builder.allocation =
    lastEnd (stateAfter (Item.makeAll body) state).builder.layout

theorem allocationTells {state : State} (packed : state.builder.layout.IsPacked)
    (body : List Item) : AllocationTells state body := by
  refine ⟨⟨_, _, rfl, toNat?_toString _⟩, ?_⟩
  rw [(records_body state body).replays]
  exact (lastEnd_eq_cursor (isPacked_replay packed _)).symm

variable {literals : List DataLiteral}

/-- The nodes of literals, in order. -/
abbrev nodesOf (literals : List DataLiteral) : List Node :=
  (segmentsFrom 0 literals).map literalNode

theorem IsNodeOf.eq {earlier : List DataLiteral} {literal : DataLiteral} {node : Node}
    (isNode : IsNodeOf literals (nodesOf literals) earlier literal node) :
    node = literalNode ⟨totalLength earlier, literal.contents⟩ := by
  obtain ⟨⟨later, rfl⟩, made⟩ := isNode
  rw [List.getElem?_map, DataLiteral.getElem?_segmentsFrom, Nat.zero_add] at made
  exact (Option.some.inj made).symm

/-- Every segment of the literals is stated by the node of one of them. -/
theorem exists_isNodeOf {segment : MemorySegment} (member : segment ∈ segmentsFrom 0 literals) :
    ∃ earlier literal, segment = ⟨totalLength earlier, literal.contents⟩ ∧
      IsNodeOf literals (nodesOf literals) earlier literal (literalNode segment) := by
  obtain ⟨earlier, literal, later, rfl, rfl⟩ := DataLiteral.exists_of_mem_segmentsFrom member
  refine ⟨earlier, literal, by rw [Nat.zero_add], ⟨later, rfl⟩, ?_⟩
  rw [List.getElem?_map, DataLiteral.getElem?_segmentsFrom]
  rfl

theorem nodesTell {layout : DataLayout}
    (regions : layout.regions = (segmentsFrom 0 literals).map MemorySegment.region) :
    NodesTell literals (nodesOf literals) layout := by
  refine ⟨?_, ?_, ?_⟩
  · rw [List.length_map, DataLiteral.length_segmentsFrom]
  · intro earlier literal node isNode
    rw [isNode.eq, segment?_literalNode]
  · intro earlier literal node isNode
    obtain ⟨⟨later, rfl⟩, -⟩ := isNode
    rw [regions, List.getElem?_map, DataLiteral.getElem?_segmentsFrom, Nat.zero_add]
    rfl

/-- A memory that shows segments of the literals is as their nodes say. -/
theorem imageTells {memory : Memory} {picked : List MemorySegment}
    (within : picked ⊆ segmentsFrom 0 literals) (shows : memory.Shows picked) :
    ImageTells literals (nodesOf literals) (picked.map literalNode) memory := by
  have inside : ∀ earlier literal node, IsNodeOf literals (nodesOf literals) earlier literal node →
      node ∈ picked.map literalNode →
      memory.read? (totalLength earlier) literal.length = some literal.contents := by
    intro earlier literal node isNode member
    rw [isNode.eq, List.mem_map_of_injective literalNode_injective] at member
    exact shows.inside _ member
  refine ⟨inside, ?_, ?_⟩
  · intro address outside
    refine shows.outside address fun segment member holds => ?_
    obtain ⟨earlier, literal, rfl, isNode⟩ := exists_isNodeOf (within member)
    exact outside earlier literal _ isNode (List.mem_map_of_mem member) holds
  · intro earlier text node isNode member noZero
    have read := inside earlier (.string text) node isNode member
    obtain ⟨rest, toEnd⟩ := Memory.read?_toEnd read
    rw [Memory.untilZero?, toEnd, Option.map_some]
    exact congrArg some (takeWhile_terminated noZero rest)

/-- The segments of literals cover their concatenation. -/
theorem exists_holds_segmentsFrom {address : Nat} (inside : address < totalLength literals) :
    ∃ segment ∈ segmentsFrom 0 literals, segment.region.Holds address := by
  have packed := DataLiteral.backToBack_segmentsFrom 0 literals
  obtain ⟨region, member, holds⟩ :=
    packed.exists_holds (Nat.zero_le address) (by rwa [Nat.zero_add])
  obtain ⟨segment, here, rfl⟩ := List.mem_map.mp member
  exact ⟨segment, here, holds⟩

/-- What comes of loading nodes that are chosen among those of the literals, in the given order. -/
structure LoadTells (literals : List DataLiteral) (nodes chosen : List Node) (pages : Nat)
    (memory : Memory) : Prop where
  loads : loadNodes? pages chosen = some memory
  image : ImageTells literals nodes chosen memory
  /-- Another order of the nodes gives the same bytes. -/
  order : ∀ other, (∀ node, node ∈ other ↔ node ∈ chosen) →
    ∃ same, loadNodes? pages other = some same ∧
      ∀ address, same.byteAt address = memory.byteAt address
  /-- All nodes together give the concatenation of the literals. -/
  whole : nodes ⊆ chosen →
    memory.read? 0 (totalLength literals) = some (literals.flatMap contents)

theorem exists_loadTells {pages : Nat} (room : totalLength literals ≤ pages * Memory.pageSize)
    {chosen : List Node} (among : chosen ⊆ nodesOf literals) :
    ∃ memory, LoadTells literals (nodesOf literals) chosen pages memory := by
  have fits : (literals.flatMap contents).length ≤ pages * Memory.pageSize := by
    rwa [DataLiteral.length_flatMap_contents]
  have loaded : ∀ picked, picked ⊆ segmentsFrom 0 literals →
      ∃ memory, loadNodes? pages (picked.map literalNode) = some memory ∧
        memory.pages = pages ∧ memory.Shows picked := by
    intro picked within
    rw [loadNodes?_map]
    exact Memory.exists_shows (fun _ member => DataLiteral.isCutOf_of_mem (within member)) fits
  obtain ⟨picked, rfl, within⟩ := exists_map_literalNode among
  obtain ⟨memory, loads, same, shows⟩ := loaded picked within
  refine ⟨memory, loads, imageTells within shows, ?_, ?_⟩
  · intro other sameNodes
    have otherAmong : other ⊆ nodesOf literals :=
      fun node member => among ((sameNodes node).mp member)
    obtain ⟨others, rfl, otherWithin⟩ := exists_map_literalNode otherAmong
    obtain ⟨again, loadsAgain, -, showsAgain⟩ := loaded others otherWithin
    refine ⟨again, loadsAgain, showsAgain.byteAt_eq shows fun segment => ?_⟩
    rw [← List.mem_map_of_injective literalNode_injective, sameNodes,
      List.mem_map_of_injective literalNode_injective]
  · intro all
    have cover : ∀ address < (literals.flatMap contents).length,
        ∃ segment ∈ picked, segment.region.Holds address := by
      intro address inside
      rw [DataLiteral.length_flatMap_contents] at inside
      obtain ⟨segment, member, holds⟩ := exists_holds_segmentsFrom inside
      have chosenToo := all (List.mem_map_of_mem member)
      exact ⟨segment, (List.mem_map_of_injective literalNode_injective).mp chosenToo, holds⟩
    rw [← DataLiteral.length_flatMap_contents]
    refine shows.read?_whole (fun _ member => DataLiteral.isCutOf_of_mem (within member)) cover ?_
    rw [Memory.size, same]
    exact fits

/-- **Literals fill the memory.** If none of the literals of a fresh builder is refused, each of
their nodes states the region and the bytes of its literal. Loading some of the nodes, in any order,
into a memory that is large enough puts the bytes of the chosen literals into their regions and
leaves all else zero, so a text is found up to the zero byte behind it; all nodes together give the
concatenation of the literals, which is as long as the data region. And at every moment of a
session, the memory that is declared behind a body is as large as the data region after the body,
which ends with its last region. -/
theorem literals_fill_memory (location : String) (options : LayoutOptions)
    (literals : List DataLiteral) (noneRefused : ¬ SomeRefused literals) :
    let start := State.create location options
    let made := (Item.makeAll (literals.map DataLiteral.item)).run start
    NodesTell literals made.1 made.2.builder.layout ∧
      made.2.builder.allocation = totalLength literals ∧
      (∀ pages, made.2.builder.allocation ≤ pages * Memory.pageSize →
        ∀ chosen, chosen ⊆ made.1 → ∃ memory, LoadTells literals made.1 chosen pages memory) ∧
      ∀ actions past future, Action.logAll start actions = past ++ future →
        ∀ body, AllocationTells (replay start past) body := by
  intro start made
  have room : start.builder.allocation + totalLength literals ≤ DataLayout.limit := by
    rw [← accepted_of_noneRefused noneRefused, ← cursor_layoutAfter]
    exact Nat.le_trans (Nat.le_of_eq (Nat.zero_add _)) (isPacked_layoutAfter literals).within
  obtain ⟨nodes, allocation, regions⟩ := makeAll_literals room
  have total : made.2.builder.allocation = totalLength literals :=
    allocation.trans (Nat.zero_add _)
  have madeNodes : made.1 = nodesOf literals := nodes
  rw [total, madeNodes]
  refine ⟨nodesTell regions, rfl, ?_, ?_⟩
  · intro pages fits chosen among
    exact exists_loadTells fits among
  · intro actions past future _ body
    exact allocationTells (isPacked_replay DataLayout.isPacked_empty past) body

/-- A text of two bytes, no bytes and two bytes, with their nodes loaded from the last to the
first. -/
theorem literals_fill_memory_accent :
    let literals : List DataLiteral := [.string "é", .data [], .data [7, 0]]
    let made := (Item.makeAll (literals.map DataLiteral.item)).run (State.create "out" {})
    ¬ SomeRefused literals ∧
      ∃ memory, loadNodes? 1 made.1.reverse = some memory ∧
        memory.read? 0 5 = some [0xC3, 0xA9, 0, 7, 0] ∧
        memory.untilZero? 0 = some [0xC3, 0xA9] := by
  intro literals made
  have noneRefused : ¬ SomeRefused literals := by
    rw [← overflowed_layoutAfter]
    decide
  obtain ⟨-, total, loaded, -⟩ := literals_fill_memory "out" {} literals noneRefused
  obtain ⟨memory, loads, image, -, whole⟩ :=
    loaded 1 (by rw [total]; decide) made.1.reverse (fun _ => List.mem_reverse.mp)
  have accent : IsNodeOf literals made.1 [] (.string "é") (literalNode ⟨0, terminated "é"⟩) :=
    ⟨⟨_, rfl⟩, rfl⟩
  refine ⟨noneRefused, memory, loads, ?_, ?_⟩
  · exact whole fun _ => List.mem_reverse.mpr
  · exact image.text [] "é" _ accent (List.mem_reverse.mpr List.mem_cons_self) (by decide)

end WasmWorkshop.Session
