/-
This file is about a heap of blocks and the linked lists in it. A new block is put
wherever nothing is, so an address can be used again once its block has been removed.

What a program has allocated is kept as a list of addresses: the heap is what it was
before, and the blocks at these addresses besides. When the last of them has been
removed the heap is what it was before. A segment of a linked list says which values
stand in its nodes and which blocks the nodes own; it depends on no other blocks.
-/

import Mathlib.Data.List.Nodup
import Mathlib.Logic.Function.Basic

namespace Heaps

variable {Block Value : Type*}

/-- The blocks there are. From `size` on there are none. -/
structure Heap (Block : Type*) where
  block : Nat → Option Block
  size : Nat
  unused : ∀ address, size ≤ address → block address = none

namespace Heap

/-- The heap with this block at an address, whatever was there. -/
def put (heap : Heap Block) (address : Nat) (block : Block) : Heap Block where
  block := Function.update heap.block address (some block)
  size := max heap.size (address + 1)
  unused other outside := by
    obtain ⟨above, beyond⟩ := Nat.max_le.mp outside
    rw [Function.update_of_ne (Nat.ne_of_gt beyond), heap.unused other above]

/-- The heap without the block at an address. -/
def remove (heap : Heap Block) (address : Nat) : Heap Block where
  block := Function.update heap.block address none
  size := heap.size
  unused other outside := by
    by_cases same : other = address
    · rw [same, Function.update_self]
    · rw [Function.update_of_ne same, heap.unused other outside]

@[simp]
theorem block_put_self (heap : Heap Block) (address : Nat) (block : Block) :
    (heap.put address block).block address = some block := Function.update_self _ _ _

theorem block_put_of_ne {address other : Nat} (different : other ≠ address) (heap : Heap Block)
    (block : Block) : (heap.put address block).block other = heap.block other :=
  Function.update_of_ne different _ _

@[simp]
theorem block_remove_self (heap : Heap Block) (address : Nat) :
    (heap.remove address).block address = none := Function.update_self _ _ _

theorem block_remove_of_ne {address other : Nat} (different : other ≠ address)
    (heap : Heap Block) : (heap.remove address).block other = heap.block other :=
  Function.update_of_ne different _ _

end Heap

/-- Where new blocks are put: where nothing is. -/
structure Allocator (Block : Type*) where
  pick : Heap Block → Nat
  fresh : ∀ heap : Heap Block, heap.block (pick heap) = none

/-- The heap without a block. -/
def Heap.empty : Heap Block := ⟨fun _ => none, 0, fun _ _ => rfl⟩

/-- Every block is put behind all others. -/
def Allocator.behind : Allocator Block := ⟨Heap.size, fun heap => heap.unused _ (Nat.le_refl _)⟩

/-! ### What has been allocated -/

/-- The heap is what it was before, with the blocks at these addresses besides. -/
structure Extends (before heap : Heap Block) (addresses : List Nat) : Prop where
  nodup : addresses.Nodup
  new : ∀ address ∈ addresses, before.block address = none
  allocated : ∀ address ∈ addresses, heap.block address ≠ none
  same : ∀ address ∉ addresses, heap.block address = before.block address

section Extends

variable {before heap : Heap Block} {addresses : List Nat} {address : Nat}

theorem extends_refl (heap : Heap Block) : Extends heap heap [] :=
  ⟨List.nodup_nil, fun _ member => absurd member List.not_mem_nil,
    fun _ member => absurd member List.not_mem_nil, fun _ _ => rfl⟩

theorem Extends.not_mem (extends' : Extends before heap addresses)
    (free : heap.block address = none) : address ∉ addresses :=
  fun member => extends'.allocated address member free

/-- A new block. -/
theorem Extends.alloc (extends' : Extends before heap addresses)
    (free : heap.block address = none) (block : Block) :
    Extends before (heap.put address block) (addresses ++ [address]) := by
  have apart := extends'.not_mem free
  refine ⟨?_, fun other member => ?_, fun other member => ?_, fun other outside => ?_⟩
  · exact List.nodup_append_comm.mp (List.nodup_cons.mpr ⟨apart, extends'.nodup⟩)
  · rcases List.mem_append.mp member with old | new
    · exact extends'.new other old
    · rw [List.mem_singleton.mp new, ← extends'.same address apart]
      exact free
  · by_cases same : other = address
    · rw [same, Heap.block_put_self]
      exact Option.some_ne_none _
    · rw [Heap.block_put_of_ne same]
      exact extends'.allocated other ((List.mem_append.mp member).resolve_right fun new =>
        same (List.mem_singleton.mp new))
  · rw [List.mem_append, List.mem_singleton, not_or] at outside
    rw [Heap.block_put_of_ne outside.2]
    exact extends'.same other outside.1

/-- A block that has been allocated is written. -/
theorem Extends.store (extends' : Extends before heap addresses) (member : address ∈ addresses)
    (block : Block) : Extends before (heap.put address block) addresses := by
  refine ⟨extends'.nodup, extends'.new, fun other member' => ?_, fun other outside => ?_⟩
  · by_cases same : other = address
    · rw [same, Heap.block_put_self]
      exact Option.some_ne_none _
    · rw [Heap.block_put_of_ne same]
      exact extends'.allocated other member'
  · have different : other ≠ address := fun same => outside (same ▸ member)
    rw [Heap.block_put_of_ne different]
    exact extends'.same other outside

/-- A block that has been allocated is removed. -/
theorem Extends.remove (extends' : Extends before heap (address :: addresses)) :
    Extends before (heap.remove address) addresses := by
  obtain ⟨apart, nodup⟩ := List.nodup_cons.mp extends'.nodup
  refine ⟨nodup, fun other member => extends'.new other (List.mem_cons_of_mem _ member),
    fun other member => ?_, fun other outside => ?_⟩
  · have different : other ≠ address := fun same => apart (same ▸ member)
    rw [Heap.block_remove_of_ne different]
    exact extends'.allocated other (List.mem_cons_of_mem _ member)
  · by_cases same : other = address
    · rw [same, Heap.block_remove_self]
      exact (extends'.new address List.mem_cons_self).symm
    · rw [Heap.block_remove_of_ne same]
      exact extends'.same other fun member => (List.mem_cons.mp member).elim same outside

theorem Extends.perm (extends' : Extends before heap addresses) {others : List Nat}
    (perm : addresses.Perm others) : Extends before heap others :=
  ⟨perm.nodup_iff.mp extends'.nodup,
    fun other member => extends'.new other (perm.mem_iff.mpr member),
    fun other member => extends'.allocated other (perm.mem_iff.mpr member),
    fun other outside => extends'.same other fun member => outside (perm.mem_iff.mp member)⟩

/-- When all that was allocated has been removed the heap is what it was before. -/
theorem Extends.block_eq (extends' : Extends before heap []) : heap.block = before.block :=
  funext fun address => extends'.same address List.not_mem_nil

end Extends

/-! ### Linked lists -/

section Segment

variable (Node : Heap Block → Nat → Value → List Nat → Option Nat → Prop)

/-- From one pointer to another there are nodes with these values, which own these blocks. -/
inductive Segment (heap : Heap Block) : Option Nat → List Value → List Nat → Option Nat → Prop
  | nil (pointer : Option Nat) : Segment heap pointer [] [] pointer
  | cons {address : Nat} {value : Value} {own addresses : List Nat} {next last : Option Nat}
      {values : List Value} (node : Node heap address value own next)
      (rest : Segment heap next values addresses last) :
      Segment heap (some address) (value :: values) (own ++ addresses) last

/-- A node depends on no other blocks than those it owns. -/
def Local : Prop := ∀ heap heap' address value own next, Node heap address value own next →
  (∀ other ∈ own, heap'.block other = heap.block other) → Node heap' address value own next

variable {Node} {heap heap' : Heap Block} {first last : Option Nat} {values : List Value}
  {addresses : List Nat}

/-- A node behind a segment. -/
theorem Segment.concat {address : Nat} {value : Value} {own : List Nat} {next : Option Nat}
    (segment : Segment Node heap first values addresses (some address))
    (node : Node heap address value own next) :
    Segment Node heap first (values ++ [value]) (addresses ++ own) next := by
  generalize pointer : some address = last at segment
  induction segment with
  | nil last =>
    have one := Segment.cons node (.nil next)
    rw [← pointer]
    rwa [List.append_nil] at one
  | cons here rest inductionHypothesis =>
    rw [List.append_assoc]
    exact .cons here (inductionHypothesis pointer)

/-- A segment depends on no other blocks than those its nodes own. -/
theorem Segment.frame (local' : Local Node)
    (segment : Segment Node heap first values addresses last)
    (same : ∀ address ∈ addresses, heap'.block address = heap.block address) :
    Segment Node heap' first values addresses last := by
  induction segment with
  | nil pointer => exact .nil pointer
  | cons here rest inductionHypothesis =>
    refine .cons (local' _ _ _ _ _ _ here fun other member => ?_)
      (inductionHypothesis fun other member => ?_)
    · exact same other (List.mem_append_left _ member)
    · exact same other (List.mem_append_right _ member)

end Segment

end Heaps
