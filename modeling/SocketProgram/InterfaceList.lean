/-
This file is about the list that `get_ifi_info` returns, as it stands in memory, and
about the two loops that go through it: the one of `prifinfo.c` and `free_ifi_info`.

The list is built at its end. `ifipnext` points to the pointer that the next node goes
to, which is `ifihead` first and then the `ifi_next` of the last node. What is built so
is the list of the values in their order, wherever the allocator puts the blocks.
`free_ifi_info` then frees every block once, reads nothing it has freed, and leaves the
memory as it was before `get_ifi_info` was called.
-/

import SocketProgram.InterfaceWalk
import SocketProgram.Library.Heap

namespace SocketProgram.GetIfiInfo

open Heaps

/-! ### The list in memory -/

/-- A `struct ifi_info`. `none` is `NULL`. -/
structure IfiNode where
  name : List Byte
  index : Nat
  mtu : Nat
  hlen : Nat
  flags : BitVec 16
  myflags : Nat
  addr : Option Nat
  brdaddr : Option Nat
  dstaddr : Option Nat
  next : Option Nat

/-- What is allocated: a `struct ifi_info`, or an address. -/
inductive Block
  | info (node : IfiNode)
  | sockaddr (bytes : List Byte)

/-- Where `ifipnext` points to: `ifihead`, or the `ifi_next` of a node. -/
inductive Slot
  | ifihead
  | ifiNext (ifi : Nat)

/-- The memory and the two variables that hold the list. -/
structure IfiList where
  heap : Heap Block
  ifihead : Option Nat
  ifipnext : Slot

/-- `calloc(1,sizeof(struct ifi_info))`. -/
def IfiNode.zero : IfiNode := ⟨[], 0, 0, 0, 0, 0, none, none, none, none⟩

/-- A block that has been allocated as a `struct ifi_info` is read; there is no result when there is
none. -/
def loadNode (heap : Heap Block) (ifi : Nat) : Option IfiNode :=
  match heap.block ifi with
  | some (.info node) => some node
  | _ => none

/-- A field of a `struct ifi_info` is written. -/
def storeNode (heap : Heap Block) (ifi : Nat) (write : IfiNode → IfiNode) :
    Option (Heap Block) :=
  (loadNode heap ifi).map fun node => heap.put ifi (.info (write node))

/-- `*ifipnext = ifi`. -/
def IfiList.link (list : IfiList) (ifi : Nat) : Option IfiList :=
  match list.ifipnext with
  | .ifihead => some { list with ifihead := some ifi }
  | .ifiNext last => do
    let heap ← storeNode list.heap last fun node => { node with next := some ifi }
    return { list with heap := heap }

/-- An address that is copied into memory of its own, and the pointer to it that is stored. -/
def copyInto (allocator : Allocator Block) (heap : Heap Block) (ifi : Nat)
    (write : Nat → IfiNode → IfiNode) : Option (List Byte) → Option (Heap Block)
  | none => some heap
  | some bytes =>
    storeNode (heap.put (allocator.pick heap) (.sockaddr bytes)) ifi (write (allocator.pick heap))

/-- What the loop does with an interface that it lists, from `ifi=calloc(...)` on. -/
def IfiList.add (allocator : Allocator Block) (list : IfiList) (entry : IfiInfo) :
    Option IfiList := do
  let ifi := allocator.pick list.heap
  let list ← { list with heap := list.heap.put ifi (.info IfiNode.zero) }.link ifi
  let heap ← storeNode list.heap ifi fun node =>
    { node with
      flags := entry.flags, myflags := entry.myflags, mtu := entry.mtu, name := entry.name
      index := entry.index, hlen := entry.hlen }
  let heap ← copyInto allocator heap ifi (fun p node => { node with addr := some p }) entry.addr
  let heap ← copyInto allocator heap ifi (fun p node => { node with brdaddr := some p })
    entry.brdaddr
  let heap ← copyInto allocator heap ifi (fun p node => { node with dstaddr := some p })
    entry.dstaddr
  return { heap := heap, ifihead := list.ifihead, ifipnext := .ifiNext ifi }

/-- The address a pointer of a node points to, if it is not `NULL`. -/
def loadAddress (heap : Heap Block) : Option Nat → Option (Option (List Byte))
  | none => some none
  | some p =>
    match heap.block p with
    | some (.sockaddr bytes) => some (some bytes)
    | _ => none

/-- What the loop of `prifinfo.c` finds in the list, in so many rounds at most. -/
def readList (heap : Heap Block) : Nat → Option Nat → Option (List IfiInfo)
  | _, none => some []
  | 0, some _ => none
  | fuel + 1, some ifi => do
    let node ← loadNode heap ifi
    let addr ← loadAddress heap node.addr
    let brdaddr ← loadAddress heap node.brdaddr
    let dstaddr ← loadAddress heap node.dstaddr
    let rest ← readList heap fuel node.next
    return ⟨node.name, node.index, node.mtu, node.hlen, node.flags, node.myflags, addr, brdaddr,
      dstaddr⟩ :: rest

/-- The variables of the second loop of `get_ifi_info`, with the list as it stands in memory. -/
structure ListWalk where
  buf : List Byte
  ptr : Nat
  lastname : List Byte
  list : IfiList

/-- The body of the second `for`, with the list in memory. -/
def visitList (build : Build) (asked : Asked) (answers : Answers) (allocator : Allocator Block)
    (walk : ListWalk) : Option ListWalk := do
  let family ← loadFamily walk.buf walk.ptr
  let ptr := walk.ptr + ifnamsiz + build.addressLength family
  if (family : Int) ≠ asked.family then
    return { walk with ptr := ptr }
  let buf ← cutAt walk.buf walk.ptr
  let name ← load buf walk.ptr ifnamsiz
  let same := cstring (walk.lastname.take ifnamsiz) = cstring name
  if same ∧ asked.doaliases = 0 then
    return { walk with buf := buf, ptr := ptr }
  let myflags := if same then ifiAlias else 0
  let _ifrcopy ← load buf walk.ptr build.sizeofIfreq
  if answers.flags (cstring name) &&& iffUp = 0 then
    return { walk with buf := buf, ptr := ptr, lastname := name }
  let addr ← copyAddress buf walk.ptr
  let list ← walk.list.add allocator (newEntry answers name family myflags addr)
  return { buf := buf, ptr := ptr, lastname := name, list := list }

/-- So many rounds of the second `for` at most; there is no result when it has not ended by then or
goes wrong. -/
def walkList (build : Build) (asked : Asked) (answers : Answers) (allocator : Allocator Block) :
    Nat → ListWalk → Option ListWalk
  | 0, _ => none
  | fuel + 1, walk =>
    if walk.ptr < walk.buf.length then do
      walkList build asked answers allocator fuel (← visitList build asked answers allocator walk)
    else some walk

/-- The variables before the loop. The list is empty, and `ifipnext` points to `ifihead`. -/
def ListWalk.initial (before : Heap Block) (buf unset : List Byte) : ListWalk where
  buf := buf
  ptr := 0
  lastname := 0 :: unset
  list := ⟨before, none, .ifihead⟩

/-- `free`; there is no result when there is nothing to free. -/
def free (heap : Heap Block) (address : Nat) : Option (Heap Block) :=
  (heap.block address).map fun _ => heap.remove address

/-- `if(p != NULL) free(p);`. -/
def freePointer (heap : Heap Block) : Option Nat → Option (Heap Block)
  | none => some heap
  | some p => free heap p

/-- `free_ifi_info`, in so many rounds at most; there is no result when it reads or frees what is
not allocated. -/
def freeIfiInfo (heap : Heap Block) : Nat → Option Nat → Option (Heap Block)
  | _, none => some heap
  | 0, some _ => none
  | fuel + 1, some ifi => do
    let heap ← freePointer heap (← loadNode heap ifi).addr
    let heap ← freePointer heap (← loadNode heap ifi).brdaddr
    let heap ← freePointer heap (← loadNode heap ifi).dstaddr
    let ifinext := (← loadNode heap ifi).next
    let heap ← free heap ifi
    freeIfiInfo heap fuel ifinext

/-! ### What stands in a node -/

/-- The pointer points to a copy of the address, or is `NULL` where there is none. -/
def Points (heap : Heap Block) (pointer : Option Nat) (address : Option (List Byte)) : Prop :=
  pointer.map heap.block = address.map fun bytes => some (.sockaddr bytes)

/-- The blocks of a node: its own, and those of its addresses. -/
def IfiNode.blocks (node : IfiNode) (ifi : Nat) : List Nat :=
  ifi :: (node.addr.toList ++ (node.brdaddr.toList ++ node.dstaddr.toList))

/-- At this address stands a node with what has been found out about an interface. -/
structure Stands (heap : Heap Block) (ifi : Nat) (entry : IfiInfo) (node : IfiNode) : Prop where
  block : heap.block ifi = some (.info node)
  same : entry = ⟨node.name, node.index, node.mtu, node.hlen, node.flags, node.myflags, entry.addr,
    entry.brdaddr, entry.dstaddr⟩
  addr : Points heap node.addr entry.addr
  brdaddr : Points heap node.brdaddr entry.brdaddr
  dstaddr : Points heap node.dstaddr entry.dstaddr

/-- A node of the list, as a node of a linked list. -/
def Listed (heap : Heap Block) (ifi : Nat) (entry : IfiInfo) (own : List Nat) (next : Option Nat) :
    Prop :=
  ∃ node, Stands heap ifi entry node ∧ own = node.blocks ifi ∧ next = node.next

section Stands

variable {heap heap' : Heap Block} {ifi : Nat} {entry : IfiInfo} {node : IfiNode}
  {pointer : Option Nat} {address : Option (List Byte)}

theorem Points.frame (points : Points heap pointer address)
    (same : ∀ p ∈ pointer.toList, heap'.block p = heap.block p) : Points heap' pointer address := by
  rw [Points] at points ⊢
  cases pointer with
  | none => exact points
  | some p =>
    rw [← points, Option.map_some, same p (List.mem_singleton_self p)]
    rfl

theorem Points.load (points : Points heap pointer address) :
    loadAddress heap pointer = some address := by
  rw [Points] at points
  cases pointer with
  | none =>
    cases address with
    | none => rfl
    | some bytes => cases points
  | some p =>
    cases address with
    | none => cases points
    | some bytes =>
      have block : heap.block p = some (.sockaddr bytes) := Option.some.inj points
      rw [loadAddress, block]

theorem Stands.load (stands : Stands heap ifi entry node) : loadNode heap ifi = some node := by
  rw [loadNode, stands.block]

theorem local_listed : Local Listed := by
  rintro heap heap' ifi entry own next ⟨node, stands, rfl, rfl⟩ same
  have addresses : ∀ p ∈ node.addr.toList ++ (node.brdaddr.toList ++ node.dstaddr.toList),
      heap'.block p = heap.block p := fun p member => same p (List.mem_cons_of_mem _ member)
  refine ⟨node, ⟨?_, stands.same, ?_, ?_, ?_⟩, rfl, rfl⟩
  · rw [same ifi List.mem_cons_self]
    exact stands.block
  · exact stands.addr.frame fun p member => addresses p (List.mem_append_left _ member)
  · exact stands.brdaddr.frame fun p member =>
      addresses p (List.mem_append_right _ (List.mem_append_left _ member))
  · exact stands.dstaddr.frame fun p member =>
      addresses p (List.mem_append_right _ (List.mem_append_right _ member))

end Stands

/-! ### Building the list -/

/-- The list of these entries stands in memory, besides what was there before, and `ifipnext` points
to the pointer at its end. -/
structure Holds (before : Heap Block) (list : IfiList) (entries : List IfiInfo) : Prop where
  extends' : ∃ addresses, Extends before list.heap addresses ∧
    match list.ifipnext with
    | .ifihead => entries = [] ∧ addresses = [] ∧ list.ifihead = none
    | .ifiNext last => ∃ front entry own blocks, entries = front ++ [entry] ∧
        addresses = blocks ++ own ∧ Segment Listed list.heap list.ifihead front blocks (some last) ∧
        Listed list.heap last entry own none

section Add

variable {before heap : Heap Block} {addresses : List Nat} {ifi : Nat} {node : IfiNode}

theorem storeNode_some (block : heap.block ifi = some (.info node)) (write : IfiNode → IfiNode) :
    storeNode heap ifi write = some (heap.put ifi (.info (write node))) := by
  rw [storeNode, loadNode, block]
  rfl

/-- An address is copied into a new block, which the node points to; nothing else changes. -/
theorem copyInto_spec (allocator : Allocator Block) (extends' : Extends before heap addresses)
    (member : ifi ∈ addresses) (block : heap.block ifi = some (.info node))
    (write : Nat → IfiNode → IfiNode) (address : Option (List Byte)) :
    ∃ heap' pointer, copyInto allocator heap ifi write address = some heap' ∧
      Extends before heap' (addresses ++ pointer.toList) ∧
      heap'.block ifi = some (.info (pointer.elim node fun p => write p node)) ∧
      Points heap' pointer address ∧ (∀ p ∈ pointer.toList, p ≠ ifi) ∧
      ∀ other ∈ addresses, other ≠ ifi → heap'.block other = heap.block other := by
  cases address with
  | none =>
    refine ⟨heap, none, rfl, ?_, block, rfl, fun p member => absurd member List.not_mem_nil,
      fun _ _ _ => rfl⟩
    rw [Option.toList_none, List.append_nil]
    exact extends'
  | some bytes =>
    have fresh := allocator.fresh heap
    rw [copyInto]
    generalize allocator.pick heap = p at fresh
    have apart := extends'.not_mem fresh
    have different : p ≠ ifi := fun same => apart (same ▸ member)
    have block' : (heap.put p (.sockaddr bytes)).block ifi = some (.info node) := by
      rw [Heap.block_put_of_ne different.symm]
      exact block
    refine ⟨_, some p, storeNode_some block' _, ?_, Heap.block_put_self _ _ _, ?_, ?_, ?_⟩
    · exact (extends'.alloc fresh _).store (List.mem_append_left _ member) _
    · refine congrArg some ?_
      rw [Heap.block_put_of_ne different, Heap.block_put_self]
    · rintro other member
      rw [List.mem_singleton.mp member]
      exact different
    · intro other member' other'
      have old : other ≠ p := fun same => apart (same ▸ member')
      rw [Heap.block_put_of_ne other', Heap.block_put_of_ne old]

theorem link_ifiNext {last : Nat} (block : heap.block last = some (.info node))
    (ifihead : Option Nat) : (IfiList.mk heap ifihead (.ifiNext last)).link ifi =
      some ⟨heap.put last (.info { node with next := some ifi }), ifihead, .ifiNext last⟩ := by
  rw [IfiList.link]
  simp only [storeNode_some block]
  rfl

/-- The new node is linked behind the others. -/
theorem link_spec {list : IfiList} {entries : List IfiInfo} (holds : Holds before list entries)
    (fresh : list.heap.block ifi = none) :
    ∃ list', ({ list with heap := list.heap.put ifi (.info IfiNode.zero) } : IfiList).link ifi =
        some list' ∧
      ∃ addresses, Extends before list'.heap (addresses ++ [ifi]) ∧
        Segment Listed list'.heap list'.ifihead entries addresses (some ifi) ∧
        list'.heap.block ifi = some (.info IfiNode.zero) := by
  obtain ⟨heap, ifihead, ifipnext⟩ := list
  obtain ⟨addresses, extends', slot⟩ := holds.extends'
  have alloc := extends'.alloc fresh (.info IfiNode.zero)
  have apart := extends'.not_mem fresh
  cases ifipnext with
  | ifihead =>
    obtain ⟨rfl, rfl, -⟩ := slot
    exact ⟨_, rfl, [], alloc, .nil _, Heap.block_put_self _ _ _⟩
  | ifiNext last =>
    obtain ⟨front, entry, own, blocks, rfl, rfl, segment, node, stands, rfl, -⟩ := slot
    have inside : last ∈ blocks ++ node.blocks last :=
      List.mem_append_right _ List.mem_cons_self
    have different : last ≠ ifi := fun same => apart (same ▸ inside)
    have block : (heap.put ifi (.info IfiNode.zero)).block last = some (.info node) := by
      rw [Heap.block_put_of_ne different]
      exact stands.block
    obtain ⟨-, own, disjoint⟩ := List.nodup_append.mp extends'.nodup
    have kept : ∀ other ∈ blocks ++ node.blocks last, other ≠ last →
        ((heap.put ifi (.info IfiNode.zero)).put last
          (.info { node with next := some ifi })).block other = heap.block other := by
      intro other member other'
      have old : other ≠ ifi := fun same => apart (same ▸ member)
      rw [Heap.block_put_of_ne other', Heap.block_put_of_ne old]
    have before' : ∀ other ∈ blocks, other ≠ last := fun other member =>
      disjoint other member last List.mem_cons_self
    have addresses : ∀ p ∈ node.addr.toList ++ (node.brdaddr.toList ++ node.dstaddr.toList),
        p ≠ last := fun p member same => (List.nodup_cons.mp own).1 (same ▸ member)
    have kept' : ∀ p ∈ node.addr.toList ++ (node.brdaddr.toList ++ node.dstaddr.toList),
        ((heap.put ifi (.info IfiNode.zero)).put last
          (.info { node with next := some ifi })).block p = heap.block p := fun p member =>
      kept p (List.mem_append_right _ (List.mem_cons_of_mem _ member)) (addresses p member)
    refine ⟨_, link_ifiNext block ifihead, _,
      alloc.store (List.mem_append_left _ inside) _, ?_, ?_⟩
    · refine Segment.concat (segment.frame local_listed fun other member =>
        kept other (List.mem_append_left _ member) (before' other member))
        ⟨{ node with next := some ifi }, ⟨Heap.block_put_self _ _ _, stands.same, ?_, ?_, ?_⟩, rfl,
          rfl⟩
      · exact stands.addr.frame fun p member => kept' p (List.mem_append_left _ member)
      · exact stands.brdaddr.frame fun p member =>
          kept' p (List.mem_append_right _ (List.mem_append_left _ member))
      · exact stands.dstaddr.frame fun p member =>
          kept' p (List.mem_append_right _ (List.mem_append_right _ member))
    · show (Heap.put _ last _).block ifi = _
      rw [Heap.block_put_of_ne different.symm]
      exact Heap.block_put_self _ _ _

/-- What is found out about one more interface is added at the end of the list. -/
theorem add_spec (allocator : Allocator Block) {list : IfiList} {entries : List IfiInfo}
    (holds : Holds before list entries) (entry : IfiInfo) :
    ∃ list', list.add allocator entry = some list' ∧ Holds before list' (entries ++ [entry]) := by
  have fresh := allocator.fresh list.heap
  rw [IfiList.add]
  generalize allocator.pick list.heap = ifi at fresh
  obtain ⟨linked, isLinked, addresses, extends', segment, block⟩ := link_spec holds fresh
  have inside : ifi ∈ addresses ++ [ifi] := List.mem_concat_self
  have apart : ∀ other ∈ addresses, other ≠ ifi := fun other member =>
    (List.nodup_append.mp extends'.nodup).2.2 other member ifi (List.mem_singleton_self ifi)
  let filled : IfiNode := ⟨entry.name, entry.index, entry.mtu, entry.hlen, entry.flags,
    entry.myflags, none, none, none, none⟩
  have block₀ : (linked.heap.put ifi (.info filled)).block ifi = some (.info filled) :=
    Heap.block_put_self _ _ _
  -- the copies of the three addresses, one after the other
  obtain ⟨heap₁, addr, copied₁, extends₁, block₁, points₁, apart₁, kept₁⟩ :=
    copyInto_spec allocator (extends'.store inside _) inside block₀
      (fun p node => { node with addr := some p }) entry.addr
  have inside₁ := List.mem_append_left addr.toList inside
  obtain ⟨heap₂, brdaddr, copied₂, extends₂, block₂, points₂, apart₂, kept₂⟩ :=
    copyInto_spec allocator extends₁ inside₁ block₁
      (fun p node => { node with brdaddr := some p }) entry.brdaddr
  have inside₂ := List.mem_append_left brdaddr.toList inside₁
  obtain ⟨heap₃, dstaddr, copied₃, extends₃, block₃, points₃, apart₃, kept₃⟩ :=
    copyInto_spec allocator extends₂ inside₂ block₂
      (fun p node => { node with dstaddr := some p }) entry.dstaddr
  have node : heap₃.block ifi = some (.info
      { filled with addr := addr, brdaddr := brdaddr, dstaddr := dstaddr }) := by
    rw [block₃]
    cases addr <;> cases brdaddr <;> cases dstaddr <;> rfl
  have later₂ : ∀ other ∈ (addresses ++ [ifi]) ++ addr.toList, other ≠ ifi →
      heap₃.block other = heap₂.block other := fun other member =>
    kept₃ other (List.mem_append_left _ member)
  have later₁ : ∀ other ∈ addresses ++ [ifi] ++ addr.toList, other ≠ ifi →
      heap₃.block other = heap₁.block other := fun other member different =>
    (later₂ other member different).trans (kept₂ other member different)
  have points₁' := points₁.frame fun p member =>
    later₁ p (List.mem_append_right _ member) (apart₁ p member)
  have points₂' := points₂.frame fun p member =>
    kept₃ p (List.mem_append_right _ member) (apart₂ p member)
  have segment' : Segment Listed heap₃ linked.ifihead entries addresses (some ifi) := by
    refine segment.frame local_listed fun other member => ?_
    have member' := List.mem_append_left [ifi] member
    rw [later₁ other (List.mem_append_left _ member') (apart other member),
      kept₁ other member' (apart other member), Heap.block_put_of_ne (apart other member)]
  refine ⟨⟨heap₃, linked.ifihead, .ifiNext ifi⟩, ?_, _, extends₃, entries, entry, _, addresses,
    rfl, ?_, segment', _, ⟨node, rfl, points₁', points₂', points₃⟩, rfl, rfl⟩
  · simp only [isLinked, storeNode_some block, Option.bind_eq_bind, Option.bind_some]
    exact Option.bind_eq_some_iff.mpr ⟨heap₁, copied₁, Option.bind_eq_some_iff.mpr
      ⟨heap₂, copied₂, Option.bind_eq_some_iff.mpr ⟨heap₃, copied₃, rfl⟩⟩⟩
  · rw [IfiNode.blocks]
    simp only [List.append_assoc, List.cons_append, List.nil_append]

end Add

/-! ### The loop -/

section Loop

variable {build : Build} {asked : Asked} {answers : Answers} {before : Heap Block} {walk : Walk}
  {listWalk : ListWalk}

/-- The two loops have come to the same place, and the list in memory is the list of the other. -/
structure Agrees (before : Heap Block) (walk : Walk) (listWalk : ListWalk) : Prop where
  buf : listWalk.buf = walk.buf
  ptr : listWalk.ptr = walk.ptr
  lastname : listWalk.lastname = walk.lastname
  holds : Holds before listWalk.list walk.entries

theorem agrees_initial (before : Heap Block) (buf unset : List Byte) :
    Agrees before (.initial buf unset) (.initial before buf unset) :=
  ⟨rfl, rfl, rfl, ⟨[], extends_refl before, rfl, rfl, rfl⟩⟩

/-- A round with the list in memory does what the round does. -/
theorem visitList_spec (allocator : Allocator Block) {next : Walk}
    (agrees : Agrees before walk listWalk) (visited : visit build asked answers walk = some next) :
    ∃ listNext, visitList build asked answers allocator listWalk = some listNext ∧
      Agrees before next listNext := by
  obtain ⟨buf, ptr, lastname, list⟩ := listWalk
  obtain ⟨rfl, rfl, rfl, holds⟩ := agrees
  rw [visit] at visited
  obtain ⟨family, isFamily, visited⟩ := Option.bind_eq_some_iff.mp visited
  simp only [visitList, isFamily, Option.bind_eq_bind, Option.bind_some]
  dsimp only at visited
  split_ifs at visited ⊢ with other
  · cases visited
    exact ⟨_, rfl, rfl, rfl, rfl, holds⟩
  obtain ⟨buf, isCut, visited⟩ := Option.bind_eq_some_iff.mp visited
  obtain ⟨name, isName, visited⟩ := Option.bind_eq_some_iff.mp visited
  simp only [isCut, isName, Option.bind_some]
  generalize (if cstring (walk.lastname.take ifnamsiz) = cstring name then ifiAlias else 0) =
    myflags at visited ⊢
  split_ifs at visited ⊢ with skipped down
  · cases visited
    exact ⟨_, rfl, rfl, rfl, rfl, holds⟩
  · obtain ⟨ifrcopy, isCopy, visited⟩ := Option.bind_eq_some_iff.mp visited
    cases visited
    simp only [isCopy, Option.bind_some]
    exact ⟨_, rfl, rfl, rfl, rfl, holds⟩
  · obtain ⟨ifrcopy, isCopy, visited⟩ := Option.bind_eq_some_iff.mp visited
    obtain ⟨addr, isAddr, visited⟩ := Option.bind_eq_some_iff.mp visited
    cases visited
    obtain ⟨list', isAdded, holds'⟩ :=
      add_spec allocator holds (newEntry answers name family myflags addr)
    simp only [isCopy, isAddr, isAdded, Option.bind_some]
    exact ⟨_, rfl, rfl, rfl, rfl, holds'⟩

/-- The loop with the list in memory ends where the loop ends. -/
theorem walkList_spec (allocator : Allocator Block) {fuel : Nat} {last : Walk}
    (agrees : Agrees before walk listWalk)
    (ended : (walkThrough build asked answers fuel walk).2 = .ends last) :
    ∃ listLast, walkList build asked answers allocator fuel listWalk = some listLast ∧
      Agrees before last listLast := by
  induction fuel generalizing walk listWalk with
  | zero => cases ended
  | succ fuel inductionHypothesis =>
    rw [walkList, agrees.ptr, agrees.buf]
    by_cases more : walk.ptr < walk.buf.length
    · rw [if_pos more]
      cases visited : visit build asked answers walk with
      | none =>
        rw [walkThrough, if_pos more, visited] at ended
        cases ended
      | some next =>
        rw [walkThrough_succ build asked answers fuel more visited] at ended
        obtain ⟨listNext, listVisited, agrees'⟩ := visitList_spec allocator agrees visited
        obtain ⟨listLast, walked, agrees''⟩ := inductionHypothesis agrees' ended
        exact ⟨listLast, Option.bind_eq_some_iff.mpr ⟨listNext, listVisited, walked⟩, agrees''⟩
    · rw [walkThrough_ends build asked answers fuel more] at ended
      cases ended
      rw [if_neg more]
      exact ⟨listWalk, rfl, agrees⟩

end Loop

/-! ### Going through the list -/

section List

variable {before heap : Heap Block} {ifi : Nat} {entries : List IfiInfo} {addresses : List Nat}
  {first pointer : Option Nat}

/-- A list that is held stands between `ifihead` and `NULL`. -/
theorem Holds.segment {list : IfiList} (holds : Holds before list entries) :
    ∃ addresses, Extends before list.heap addresses ∧
      Segment Listed list.heap list.ifihead entries addresses none := by
  obtain ⟨heap, ifihead, ifipnext⟩ := list
  obtain ⟨addresses, extends', slot⟩ := holds.extends'
  cases ifipnext with
  | ifihead =>
    obtain ⟨rfl, rfl, rfl⟩ := slot
    exact ⟨[], extends', .nil none⟩
  | ifiNext last =>
    obtain ⟨front, entry, own, blocks, rfl, rfl, segment, node⟩ := slot
    exact ⟨_, extends', segment.concat node⟩

theorem readList_spec (segment : Segment Listed heap first entries addresses none) {fuel : Nat}
    (enough : entries.length ≤ fuel) : readList heap fuel first = some entries := by
  induction entries generalizing first addresses fuel with
  | nil =>
    cases segment
    rw [readList]
  | cons entry entries inductionHypothesis =>
    cases segment with
    | cons here rest =>
      obtain ⟨node, stands, rfl, rfl⟩ := here
      cases fuel with
      | zero => cases enough
      | succ fuel =>
        rw [readList]
        simp only [stands.load, stands.addr.load, stands.brdaddr.load, stands.dstaddr.load,
          inductionHypothesis rest (Nat.le_of_succ_le_succ enough), Option.bind_eq_bind,
          Option.bind_some]
        rw [stands.same]
        rfl

/-- An address of a node is freed; the node and what comes later stay. -/
theorem freePointer_spec {rest : List Nat}
    (extends' : Extends before heap (ifi :: (pointer.toList ++ rest))) :
    ∃ heap', freePointer heap pointer = some heap' ∧ Extends before heap' (ifi :: rest) ∧
      ∀ other ∈ ifi :: rest, heap'.block other = heap.block other := by
  cases pointer with
  | none => exact ⟨heap, rfl, extends', fun _ _ => rfl⟩
  | some p =>
    have swapped := extends'.perm (List.Perm.swap p ifi rest)
    obtain ⟨block, isBlock⟩ :=
      Option.ne_none_iff_exists'.mp (swapped.allocated p List.mem_cons_self)
    refine ⟨heap.remove p, ?_, swapped.remove, fun other member => ?_⟩
    · rw [freePointer, free, isBlock]
      rfl
    · have different : other ≠ p := fun same =>
        (List.nodup_cons.mp swapped.nodup).1 (same ▸ member)
      exact Heap.block_remove_of_ne different heap

/-- Every block of the list is freed, and nothing that has been freed is read or freed again. -/
theorem freeIfiInfo_spec (segment : Segment Listed heap first entries addresses none)
    (extends' : Extends before heap addresses) {fuel : Nat} (enough : entries.length ≤ fuel) :
    ∃ heap', freeIfiInfo heap fuel first = some heap' ∧ heap'.block = before.block := by
  induction entries generalizing heap first addresses fuel with
  | nil =>
    cases segment
    exact ⟨heap, by rw [freeIfiInfo], extends'.block_eq⟩
  | cons entry entries inductionHypothesis =>
    cases segment with
    | @cons ifi _ _ later _ _ _ here rest =>
      obtain ⟨node, stands, rfl, rfl⟩ := here
      cases fuel with
      | zero => cases enough
      | succ fuel =>
        rw [IfiNode.blocks] at extends'
        simp only [List.cons_append, List.append_assoc] at extends'
        obtain ⟨heap₁, freed₁, extends₁, kept₁⟩ := freePointer_spec extends'
        obtain ⟨heap₂, freed₂, extends₂, kept₂⟩ := freePointer_spec extends₁
        obtain ⟨heap₃, freed₃, extends₃, kept₃⟩ := freePointer_spec extends₂
        have load {heap : Heap Block} (block : heap.block ifi = some (.info node)) :
            loadNode heap ifi = some node := by
          rw [loadNode, block]
        have block₁ := (kept₁ ifi List.mem_cons_self).trans stands.block
        have block₂ := (kept₂ ifi List.mem_cons_self).trans block₁
        have block₃ := (kept₃ ifi List.mem_cons_self).trans block₂
        -- what comes later still stands in the memory that is left
        have rest' : Segment Listed (heap₃.remove ifi) node.next entries later none := by
          refine rest.frame local_listed fun other member => ?_
          have different : other ≠ ifi := fun same =>
            (List.nodup_cons.mp extends₃.nodup).1 (same ▸ member)
          have third := List.mem_cons_of_mem ifi member
          have second : other ∈ ifi :: (node.dstaddr.toList ++ later) :=
            List.mem_cons_of_mem _ (List.mem_append_right _ member)
          have front : other ∈ ifi :: (node.brdaddr.toList ++ (node.dstaddr.toList ++ later)) :=
            List.mem_cons_of_mem _ (List.mem_append_right _ (List.mem_append_right _ member))
          rw [Heap.block_remove_of_ne different, kept₃ other third, kept₂ other second,
            kept₁ other front]
        obtain ⟨heap', freed, restored⟩ :=
          inductionHypothesis rest' extends₃.remove (Nat.le_of_succ_le_succ enough)
        refine ⟨heap', ?_, restored⟩
        rw [freeIfiInfo]
        simp only [stands.load, freed₁, load block₁, freed₂, load block₂, freed₃, load block₃,
          free, block₃, Option.map_some, Option.bind_eq_bind, Option.bind_some]
        exact freed

end List

/-- However the allocator places the blocks, the loop leaves a list in memory in which the loop of
`prifinfo.c` finds every interface that was listed, in its order, and `free_ifi_info` then leaves
the memory as it was. -/
theorem list_read_and_freed (build : Build) (asked : Asked) (answers : Answers)
    (allocator : Allocator Block) (before : Heap Block) (buf unset : List Byte) (fuel : Nat)
    (last : Walk)
    (ended : (walkThrough build asked answers fuel (.initial buf unset)).2 = .ends last) :
    ∃ walk, walkList build asked answers allocator fuel (.initial before buf unset) = some walk ∧
      readList walk.list.heap last.entries.length walk.list.ifihead = some last.entries ∧
      ∃ after, freeIfiInfo walk.list.heap last.entries.length walk.list.ifihead = some after ∧
        after.block = before.block := by
  obtain ⟨walk, walked, agrees⟩ :=
    walkList_spec allocator (agrees_initial before buf unset) ended
  obtain ⟨addresses, extends', segment⟩ := agrees.holds.segment
  exact ⟨walk, walked, readList_spec segment le_rfl, freeIfiInfo_spec segment extends' le_rfl⟩

/-- The list that has the one address of `lo`. -/
theorem list_read_and_freed_loopback :
    ∃ walk, walkList ⟨32, false⟩ ⟨afInet, 0⟩ allUp .behind 2
        (.initial .empty ([108, 111] ++ List.replicate 14 0 ++ [2, 0, 0, 0, 127, 0, 0, 1] ++
          List.replicate 8 0) (List.replicate 15 0)) = some walk ∧
      readList walk.list.heap 1 walk.list.ifihead =
        some [⟨[108, 111], 0, 0, 0, iffUp, 0,
          some ([2, 0, 0, 0, 127, 0, 0, 1] ++ List.replicate 8 0), none, none⟩] ∧
      ∃ after, freeIfiInfo walk.list.heap 1 walk.list.ifihead = some after ∧
        after.block = (Heap.empty : Heap Block).block :=
  list_read_and_freed ⟨32, false⟩ ⟨afInet, 0⟩ allUp .behind .empty _ _ 2
    ⟨_, _, _, [⟨[108, 111], 0, 0, 0, iffUp, 0,
      some ([2, 0, 0, 0, 127, 0, 0, 1] ++ List.replicate 8 0), none, none⟩]⟩ rfl

end SocketProgram.GetIfiInfo
