/-
This file is the theory of a queue in a ring of slots. From the slot of the oldest
element the elements stand one after the other, going on at slot zero after the last;
the slot behind the youngest is free as long as there are fewer elements than slots.
Storing there appends to the queue, and leaving the first slot takes its element off.
-/

import Mathlib.Logic.Function.Basic
import Mathlib.Data.List.Range
import Mathlib.Data.Nat.ModEq

namespace Ring

variable {Cell : Type*} {size first count : Nat} {slots : Nat → Cell}

/-- The elements of a queue: so many cells from a slot on, round the ring. -/
def queued (size : Nat) (slots : Nat → Cell) (first count : Nat) : List Cell :=
  (List.range count).map fun place => slots ((first + place) % size)

@[simp]
theorem length_queued : (queued size slots first count).length = count := by
  rw [queued, List.length_map, List.length_range]

/-- Only the slot of the first element matters. -/
theorem queued_mod : queued size slots (first % size) count = queued size slots first count := by
  refine List.map_congr_left fun place _ => ?_
  rw [Nat.mod_add_mod]

/-- The first element stands in the first slot. -/
theorem queued_succ (inside : first < size) :
    queued size slots first (count + 1) =
      slots first :: queued size slots (first + 1) count := by
  rw [queued, List.range_succ_eq_map, List.map_cons, List.map_map, Nat.add_zero,
    Nat.mod_eq_of_lt inside]
  refine congrArg _ (List.map_congr_left fun place _ => ?_)
  show slots ((first + (place + 1)) % size) = slots ((first + 1 + place) % size)
  rw [Nat.add_comm place 1, Nat.add_assoc]

/-- The slots of different elements are different. -/
theorem place_ne {place other : Nat} (before : place < other) (inside : other < size) :
    (first + place) % size ≠ (first + other) % size := by
  intro same
  have places : place ≡ other [MOD size] := Nat.ModEq.add_left_cancel' first same
  rw [Nat.ModEq, Nat.mod_eq_of_lt (before.trans inside), Nat.mod_eq_of_lt inside] at places
  exact before.ne places

/-- Storing into the slot behind the last element does not touch the queue. -/
theorem queued_update (free : count < size) (cell : Cell) :
    queued size (Function.update slots ((first + count) % size) cell) first count =
      queued size slots first count := by
  refine List.map_congr_left fun place member => ?_
  exact Function.update_of_ne (place_ne (List.mem_range.mp member) free) cell slots

/-- Storing into the slot behind the last element and counting it appends it. -/
theorem queued_push (free : count < size) (cell : Cell) :
    queued size (Function.update slots ((first + count) % size) cell) first (count + 1) =
      queued size slots first count ++ [cell] := by
  rw [queued, List.range_succ, List.map_append, List.map_singleton, Function.update_self]
  exact congrArg (· ++ [cell]) (queued_update free cell)

/-- The index that goes to zero after the last slot. -/
def next (size index : Nat) : Nat := if size ≤ index + 1 then 0 else index + 1

theorem next_eq (inside : first < size) : next size first = (first + 1) % size := by
  unfold next
  split_ifs with last
  · rw [Nat.le_antisymm last inside, Nat.mod_self]
  · rw [Nat.mod_eq_of_lt (Nat.lt_of_not_le last)]

theorem next_lt (inside : first < size) : next size first < size := by
  rw [next_eq inside]
  exact Nat.mod_lt _ (Nat.zero_lt_of_lt inside)

end Ring
