/-
This file is the theory of a buffer with two cursors: memory of a fixed length,
a cursor where the next bytes are stored and a cursor where the next bytes are
taken. The bytes between the two are the pending ones. Storing at the input
cursor appends to the pending bytes and advancing the output cursor drops from
their front, so the window is a queue for as long as the cursors stay in order
and inside the memory.
-/

import Mathlib.Data.List.Basic
import Mathlib.Data.List.DropRight

namespace Memory

variable {Cell : Type*}

/-- Memory with the cells from `offset` on replaced by `data`. -/
def overwrite (memory : List Cell) (offset : Nat) (data : List Cell) : List Cell :=
  memory.take offset ++ data ++ memory.drop (offset + data.length)

/-- Overwriting within bounds does not change the length. -/
theorem length_overwrite (memory : List Cell) (offset : Nat) (data : List Cell)
    (fits : offset + data.length ≤ memory.length) :
    (overwrite memory offset data).length = memory.length := by
  simp only [overwrite, List.length_append, List.length_take, List.length_drop]
  omega

/-- The cells before the overwritten ones and the overwritten ones themselves. -/
theorem take_overwrite (memory : List Cell) (offset : Nat) (data : List Cell)
    (inside : offset ≤ memory.length) :
    (overwrite memory offset data).take (offset + data.length) = memory.take offset ++ data := by
  have exact' : (memory.take offset ++ data).length = offset + data.length := by
    rw [List.length_append, List.length_take, Nat.min_eq_left inside]
  rw [overwrite, ← exact', List.take_left]

/-- Overwriting the front of memory. -/
theorem overwrite_zero (memory data : List Cell) :
    overwrite memory 0 data = data ++ memory.drop data.length := by
  rw [overwrite, List.take_zero, List.nil_append, Nat.zero_add]

/-- What overwriting the front leaves at the front. -/
theorem take_overwrite_zero (memory data : List Cell) :
    (overwrite memory 0 data).take data.length = data := by
  rw [overwrite_zero, List.take_left]

/-- Overwriting behind a first part leaves it alone. -/
theorem overwrite_append (first memory data : List Cell) (offset : Nat) :
    overwrite (first ++ memory) (first.length + offset) data =
      first ++ overwrite memory offset data := by
  rw [overwrite, overwrite, Nat.add_assoc, List.take_length_add_append,
    List.drop_length_add_append, List.append_assoc, List.append_assoc, List.append_assoc]

/-- Overwriting a piece and then the piece behind it is overwriting both at once. -/
theorem overwrite_overwrite_behind (memory first second : List Cell) (offset : Nat)
    (room : offset ≤ memory.length) :
    overwrite (overwrite memory offset first) (offset + first.length) second =
      overwrite memory offset (first ++ second) := by
  have start : (memory.take offset ++ first).length = offset + first.length := by
    rw [List.length_append, List.length_take, Nat.min_eq_left room]
  have back : (overwrite memory offset first).drop (offset + first.length + second.length) =
      memory.drop (offset + first.length + second.length) := by
    rw [← List.drop_drop, overwrite, List.drop_left' start, List.drop_drop]
  rw [overwrite.eq_1 (overwrite memory offset first), take_overwrite memory offset first room,
    back, overwrite, List.length_append, Nat.add_assoc]
  simp only [List.append_assoc]

/-- What has been overwritten is there. -/
theorem take_drop_overwrite (memory data : List Cell) {offset : Nat}
    (room : offset ≤ memory.length) :
    ((overwrite memory offset data).drop offset).take data.length = data := by
  have start : (memory.take offset).length = offset := by
    rw [List.length_take, Nat.min_eq_left room]
  rw [overwrite, List.append_assoc, List.drop_left' start, List.take_left]

/-- A cell before the overwritten ones. -/
theorem getElem?_overwrite_before (memory data : List Cell) {offset index : Nat}
    (before : index < offset) (room : offset ≤ memory.length) :
    (overwrite memory offset data)[index]? = memory[index]? := by
  have inside : index < (memory.take offset).length := by
    rwa [List.length_take, Nat.min_eq_left room]
  rw [overwrite, List.append_assoc, List.getElem?_append_left inside,
    List.getElem?_take_of_lt before]

/-- A cell behind the overwritten ones. -/
theorem getElem?_overwrite_behind (memory data : List Cell) {offset index : Nat}
    (behind : offset + data.length ≤ index) (room : offset ≤ memory.length) :
    (overwrite memory offset data)[index]? = memory[index]? := by
  have start : (memory.take offset ++ data).length = offset + data.length := by
    rw [List.length_append, List.length_take, Nat.min_eq_left room]
  rw [overwrite, List.getElem?_append_right (by rw [start]; exact behind), start,
    List.getElem?_drop, Nat.add_sub_cancel' behind]

/-- The front of memory in which only the front is overwritten. -/
theorem take_overwrite_comm (memory data : List Cell) {offset size : Nat}
    (inside : offset + data.length ≤ size) (room : offset ≤ memory.length) :
    (overwrite memory offset data).take size = overwrite (memory.take size) offset data := by
  have start : (memory.take offset ++ data).length = offset + data.length := by
    rw [List.length_append, List.length_take, Nat.min_eq_left room]
  rw [overwrite, overwrite, List.take_take, Nat.min_eq_left ((Nat.le_add_right _ _).trans inside),
    List.drop_take, List.take_append, List.take_of_length_le (by rw [start]; exact inside), start]

/-- What is overwritten with what stands there already stays. -/
theorem overwrite_self (memory : List Cell) (offset count : Nat) :
    overwrite memory offset ((memory.drop offset).take count) = memory := by
  have rest : memory.drop (offset + ((memory.drop offset).take count).length) =
      (memory.drop offset).drop count := by
    rw [← List.drop_drop, List.length_take]
    rcases Nat.le_total count (memory.drop offset).length with le | ge
    · rw [Nat.min_eq_left le]
    · rw [Nat.min_eq_right ge, List.drop_length, List.drop_eq_nil_of_le ge]
  rw [overwrite, rest, List.append_assoc, List.take_append_drop, List.take_append_drop]

/-- Overwriting twice is overwriting with the second, where the first was as long. -/
theorem overwrite_overwrite (memory first second : List Cell) (offset : Nat)
    (same : first.length = second.length) (room : offset ≤ memory.length) :
    overwrite (overwrite memory offset first) offset second = overwrite memory offset second := by
  have start : (memory.take offset).length = offset := by
    rw [List.length_take, Nat.min_eq_left room]
  have both : (memory.take offset ++ first).length = offset + second.length := by
    rw [List.length_append, start, same]
  have front : (overwrite memory offset first).take offset = memory.take offset := by
    rw [overwrite, List.append_assoc, List.take_left' start]
  have back : (overwrite memory offset first).drop (offset + second.length) =
      memory.drop (offset + second.length) := by
    rw [overwrite, List.drop_left' both, same]
  rw [overwrite, front, back, overwrite]

/-- Two memories of one length are the same from an offset on. -/
structure SameFrom (from' : Nat) (first second : List Cell) : Prop where
  length : first.length = second.length
  drop : first.drop from' = second.drop from'

theorem SameFrom.refl (from' : Nat) (memory : List Cell) : SameFrom from' memory memory :=
  ⟨rfl, rfl⟩

/-- The cells after the overwritten ones stay. -/
theorem SameFrom.overwrite {from' : Nat} {first second : List Cell}
    (same : SameFrom from' first second) {offset : Nat} {data : List Cell}
    (before : offset + data.length ≤ from') (room : from' ≤ second.length) :
    SameFrom from' (overwrite first offset data) second := by
  have fits : offset + data.length ≤ first.length := before.trans (same.length ▸ room)
  have start : (first.take offset ++ data).length = offset + data.length := by
    rw [List.length_append, List.length_take, Nat.min_eq_left (by omega)]
  refine ⟨(length_overwrite first offset data fits).trans same.length, ?_⟩
  rw [Memory.overwrite, List.drop_append, start, List.drop_drop, Nat.add_sub_cancel' before,
    List.drop_eq_nil_of_le (by rw [start]; exact before), List.nil_append]
  exact same.drop

/-- What is overwritten alike stays alike. -/
theorem SameFrom.overwrite_both {from' : Nat} {first second : List Cell}
    (same : SameFrom from' first second) {offset : Nat} (behind : from' ≤ offset)
    (data : List Cell) :
    SameFrom from' (Memory.overwrite first offset data) (Memory.overwrite second offset data) := by
  have tails : ∀ memory : List Cell, memory.drop (offset + data.length) =
      (memory.drop from').drop (offset + data.length - from') := by
    intro memory
    rw [List.drop_drop, Nat.add_sub_cancel' (by omega)]
  have starts : (first.take offset ++ data).length = (second.take offset ++ data).length := by
    simp only [List.length_append, List.length_take, same.length]
  refine ⟨?_, ?_⟩
  · simp only [Memory.overwrite, List.length_append, List.length_take, List.length_drop,
      same.length]
  · rw [Memory.overwrite, Memory.overwrite, List.drop_append, List.drop_append, starts,
      List.drop_append, List.drop_append, List.drop_take, List.drop_take, same.drop, tails first,
      tails second, same.drop, List.length_take, List.length_take, same.length]

/-- A buffer with its output cursor `optr` and its input cursor `iptr`. -/
structure Window (Cell : Type*) where
  memory : List Cell
  optr : Nat
  iptr : Nat
  deriving DecidableEq, Repr

namespace Window

/-- The pending cells, `memory[optr..iptr)`. -/
def pending (window : Window Cell) : List Cell :=
  (window.memory.take window.iptr).drop window.optr

/-- What is left of the memory after the input cursor. -/
def room (window : Window Cell) : Nat :=
  window.memory.length - window.iptr

/-- Store at the input cursor and move it past what was stored. -/
def store (window : Window Cell) (data : List Cell) : Window Cell :=
  { window with
    memory := overwrite window.memory window.iptr data
    iptr := window.iptr + data.length }

/-- Move the output cursor. -/
def advance (window : Window Cell) (count : Nat) : Window Cell :=
  { window with optr := window.optr + count }

/-- Both cursors back to the beginning of the memory. -/
def reset (window : Window Cell) : Window Cell :=
  { window with optr := 0, iptr := 0 }

/-- Move the output cursor, and both back to the beginning when they meet. -/
def drain (window : Window Cell) (count : Nat) : Window Cell :=
  if (window.advance count).optr = (window.advance count).iptr then (window.advance count).reset
  else window.advance count

/-- The cursors are in order and inside a memory of `size` cells. -/
structure Ordered (size : Nat) (window : Window Cell) : Prop where
  length_memory : window.memory.length = size
  optr_le : window.optr ≤ window.iptr
  iptr_le : window.iptr ≤ size

variable {size : Nat} {window : Window Cell}

theorem length_pending (ordered : Ordered size window) :
    window.pending.length = window.iptr - window.optr := by
  have inside := ordered.iptr_le
  have whole := ordered.length_memory
  rw [pending, List.length_drop, List.length_take]
  omega

/-- The window is drained exactly when the cursors meet. -/
theorem pending_eq_nil_iff (ordered : Ordered size window) :
    window.pending = [] ↔ window.optr = window.iptr := by
  have order := ordered.optr_le
  rw [← List.length_eq_zero_iff, length_pending ordered]
  omega

theorem room_eq (ordered : Ordered size window) : window.room = size - window.iptr := by
  rw [room, ordered.length_memory]

/-! ### The operations keep the window ordered and move its pending cells -/

theorem ordered_store (ordered : Ordered size window) {data : List Cell}
    (fits : data.length ≤ window.room) : Ordered size (window.store data) := by
  have inside := ordered.iptr_le
  rw [room_eq ordered] at fits
  refine ⟨?_, ?_, ?_⟩
  · show (overwrite window.memory window.iptr data).length = size
    rw [length_overwrite _ _ _ (by rw [ordered.length_memory]; omega), ordered.length_memory]
  · show window.optr ≤ window.iptr + data.length
    exact le_trans ordered.optr_le (Nat.le_add_right _ _)
  · show window.iptr + data.length ≤ size
    omega

theorem pending_store (ordered : Ordered size window) (data : List Cell) :
    (window.store data).pending = window.pending ++ data := by
  have inside : window.iptr ≤ window.memory.length := by
    rw [ordered.length_memory]
    exact ordered.iptr_le
  have short : window.optr ≤ (window.memory.take window.iptr).length := by
    rw [List.length_take, Nat.min_eq_left inside]
    exact ordered.optr_le
  show (((overwrite window.memory window.iptr data).take (window.iptr + data.length)).drop
    window.optr) = _
  rw [take_overwrite _ _ _ inside, List.drop_append_of_le_length short]
  rfl

theorem ordered_advance (ordered : Ordered size window) {count : Nat}
    (available : count ≤ window.iptr - window.optr) : Ordered size (window.advance count) := by
  have order := ordered.optr_le
  refine ⟨ordered.length_memory, ?_, ordered.iptr_le⟩
  show window.optr + count ≤ window.iptr
  omega

theorem pending_advance (window : Window Cell) (count : Nat) :
    (window.advance count).pending = window.pending.drop count := by
  rw [pending, pending, List.drop_drop]
  rfl

theorem ordered_reset (ordered : Ordered size window) : Ordered size window.reset :=
  ⟨ordered.length_memory, le_refl _, Nat.zero_le _⟩

theorem ordered_drain (ordered : Ordered size window) {count : Nat}
    (available : count ≤ window.iptr - window.optr) : Ordered size (window.drain count) := by
  rw [drain]
  split_ifs
  · exact ordered_reset (ordered_advance ordered available)
  · exact ordered_advance ordered available

@[simp]
theorem pending_reset (window : Window Cell) : window.reset.pending = [] := by
  rw [pending]
  exact List.take_zero

theorem pending_drain (ordered : Ordered size window) {count : Nat}
    (available : count ≤ window.iptr - window.optr) :
    (window.drain count).pending = window.pending.drop count := by
  rw [drain]
  split_ifs with met
  · rw [pending_reset, ← pending_advance,
      (pending_eq_nil_iff (ordered_advance ordered available)).mpr met]
  · exact pending_advance window count

/-- Draining makes the cursors meet exactly when everything pending is taken. -/
theorem drain_met_iff (ordered : Ordered size window) {count : Nat}
    (available : count ≤ window.iptr - window.optr) :
    (window.drain count).optr = (window.drain count).iptr ↔ count = window.pending.length := by
  have kept := ordered_drain ordered available
  have length := congrArg List.length (pending_drain ordered available)
  have order := kept.optr_le
  rw [length_pending kept, List.length_drop, length_pending ordered] at length
  rw [length_pending ordered]
  omega

/-! ### Windows that start again when they are drained -/

/-- A window whose cursors meet at the beginning of the memory only. -/
def Compact (window : Window Cell) : Prop := window.optr = window.iptr → window.iptr = 0

/-- A compact window has room or has something pending. -/
theorem Compact.room_or_pending (compact : window.Compact) (nonempty : 0 < size) :
    window.iptr < size ∨ window.optr ≠ window.iptr := by
  by_cases met : window.optr = window.iptr
  · exact .inl (compact met ▸ nonempty)
  · exact .inr met

/-- Storing something keeps the cursors apart. -/
theorem compact_store (ordered : Ordered size window) {data : List Cell} (nonempty : data ≠ []) :
    (window.store data).Compact := by
  have order := ordered.optr_le
  have some' := List.length_pos_iff.mpr nonempty
  intro met
  have met : window.optr = window.iptr + data.length := met
  omega

/-- Draining resets the cursors where they meet. -/
theorem compact_drain (window : Window Cell) (count : Nat) : (window.drain count).Compact := by
  rw [drain]
  split_ifs with met
  · exact fun _ => rfl
  · exact fun met' => absurd met' met

end Window

end Memory
