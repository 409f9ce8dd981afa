/-
This file is about tables of slots that are always filled at the first free slot. The
number of slots such a table has ever used is the largest number that were ever
filled at the same time: a slot above the ones used so far is taken only when all of
those are filled.

How many are filled after a word of events is its level, the sum of what each event
adds; the levels a history has passed are the levels of its first parts.

The same for numbers that are given out from below: the lowest unused number is outside a
range only when all the numbers of the range are used.
-/

import Mathlib.Algebra.BigOperators.Group.List.Basic
import Mathlib.Algebra.Ring.Int.Defs
import Mathlib.Data.Finset.Card
import Mathlib.Data.Fintype.Card
import Mathlib.Data.Int.Interval
import Mathlib.Order.Bounds.Basic

namespace FirstFit

/-! ### Levels -/

section Levels

variable {Event : Type*} (weight : Event → Int)

/-- What a word of events adds up to. -/
def level (word : List Event) : Int := (word.map weight).sum

/-- The levels a word has passed. -/
def levels (word : List Event) : Set Int :=
  {height | ∃ before, before <+: word ∧ height = level weight before}

variable {weight} {word : List Event} {event : Event} {top : Int}

theorem level_concat : level weight (word ++ [event]) = level weight word + weight event := by
  rw [level, List.map_append, List.sum_append, List.map_singleton, List.sum_singleton]
  rfl

theorem level_mem_levels : level weight word ∈ levels weight word :=
  ⟨word, List.prefix_refl word, rfl⟩

theorem isGreatest_levels_nil : IsGreatest (levels weight []) 0 := by
  refine ⟨level_mem_levels, ?_⟩
  rintro _ ⟨before, isPrefix, rfl⟩
  rw [List.prefix_nil.mp isPrefix]
  exact Int.le_refl 0

theorem mem_levels_concat {height : Int} (passed : height ∈ levels weight (word ++ [event])) :
    height = level weight (word ++ [event]) ∨ height ∈ levels weight word := by
  obtain ⟨before, isPrefix, rfl⟩ := passed
  rcases List.prefix_concat_iff.mp isPrefix with rfl | isPrefix'
  · exact Or.inl rfl
  · exact Or.inr ⟨before, isPrefix', rfl⟩

theorem levels_concat_subset {height : Int} (passed : height ∈ levels weight word) :
    height ∈ levels weight (word ++ [event]) := by
  obtain ⟨before, isPrefix, rfl⟩ := passed
  exact ⟨before, isPrefix.trans (List.prefix_append word [event]), rfl⟩

/-- An event that does not rise above the top leaves it. -/
theorem isGreatest_levels_below (greatest : IsGreatest (levels weight word) top)
    (below : level weight (word ++ [event]) ≤ top) :
    IsGreatest (levels weight (word ++ [event])) top := by
  refine ⟨levels_concat_subset greatest.1, fun height passed => ?_⟩
  rcases mem_levels_concat passed with rfl | earlier
  · exact below
  · exact greatest.2 earlier

/-- An event that rises above the top makes the new one. -/
theorem isGreatest_levels_above (greatest : IsGreatest (levels weight word) top)
    (above : top ≤ level weight (word ++ [event])) :
    IsGreatest (levels weight (word ++ [event])) (level weight (word ++ [event])) := by
  refine ⟨level_mem_levels, fun height passed => ?_⟩
  rcases mem_levels_concat passed with rfl | earlier
  · exact Int.le_refl _
  · exact (greatest.2 earlier).trans above

end Levels

/-! ### The first free slot -/

section Slots

variable {size : Nat} {filled : Finset (Fin size)} {used : Nat}

/-- Only slots below `used` are filled, so no more than `used` are. -/
theorem card_le_used (below : ∀ slot ∈ filled, slot.val < used) : filled.card ≤ used := by
  have inside : filled.image Fin.val ⊆ Finset.range used := by
    intro index member
    obtain ⟨slot, member', rfl⟩ := Finset.mem_image.mp member
    exact Finset.mem_range.mpr (below slot member')
  have cards := Finset.card_le_card inside
  rwa [Finset.card_image_of_injective _ Fin.val_injective, Finset.card_range] at cards

/-- A free slot among those below `used` leaves room for one more there. -/
theorem card_lt_used (below : ∀ slot ∈ filled, slot.val < used) {free : Fin size}
    (isFree : free ∉ filled) (inside : free.val < used) : filled.card < used := by
  have below' : ∀ slot ∈ insert free filled, slot.val < used := by
    intro slot member
    rcases Finset.mem_insert.mp member with rfl | member'
    · exact inside
    · exact below slot member'
  have cards := card_le_used below'
  rwa [Finset.card_insert_of_notMem isFree] at cards

/-- When the first free slot is not below `used`, it is the slot `used`, and all the slots
below it are filled. -/
theorem first_free_above (below : ∀ slot ∈ filled, slot.val < used) {free : Fin size}
    (first : ∀ slot < free, slot ∈ filled) (above : used ≤ free.val) :
    free.val = used ∧ filled.card = used := by
  have same : free.val = used := by
    by_contra different
    have inside : used < free.val := lt_of_le_of_ne above (Ne.symm different)
    exact Nat.lt_irrefl used (below ⟨used, inside.trans free.isLt⟩ (first _ inside))
  refine ⟨same, Nat.le_antisymm (card_le_used below) ?_⟩
  have all : Finset.range used ⊆ filled.image Fin.val := by
    intro index member
    have inside : index < free.val := same.symm ▸ Finset.mem_range.mp member
    exact Finset.mem_image.mpr ⟨⟨index, inside.trans free.isLt⟩, first _ inside, rfl⟩
  have cards := Finset.card_le_card all
  rwa [Finset.card_image_of_injective _ Fin.val_injective, Finset.card_range] at cards

end Slots

/-! ### The lowest unused number -/

section Numbers

/-- The numbers that are not used. -/
def unused (used : Finset Int) : Set Int := {number | 0 ≤ number ∧ number ∉ used}

theorem exists_lowest (used : Finset Int) : ∃ lowest, IsLeast (unused used) lowest := by
  have some' : ∃ number : Nat, (number : Int) ∉ used := by
    obtain ⟨number, notMem⟩ := Infinite.exists_notMem_finset (used.preimage _
      (@Nat.cast_injective Int _ _).injOn)
    exact ⟨number, fun member => notMem (Finset.mem_preimage.mpr member)⟩
  refine ⟨Nat.find some', ⟨Int.natCast_nonneg _, Nat.find_spec some'⟩, ?_⟩
  rintro number ⟨nonnegative, notMem⟩
  obtain ⟨index, rfl⟩ := Int.eq_ofNat_of_zero_le nonnegative
  exact Int.ofNat_le.mpr (Nat.find_min' some' notMem)

variable {used : Finset Int} {lowest : Int} {size : Nat}

theorem card_le_size (inside : ∀ number ∈ used, 0 ≤ number ∧ number < size) :
    used.card ≤ size := by
  have range : used ⊆ Finset.Ico 0 (size : Int) := fun number member =>
    Finset.mem_Ico.mpr (inside number member)
  simpa using Finset.card_le_card range

theorem size_le_lowest_iff (inside : ∀ number ∈ used, 0 ≤ number ∧ number < size)
    (least : IsLeast (unused used) lowest) : size ≤ lowest ↔ used.card = size := by
  have range : used ⊆ Finset.Ico 0 (size : Int) := fun number member =>
    Finset.mem_Ico.mpr (inside number member)
  have cards : (Finset.Ico 0 (size : Int)).card = size := by simp
  constructor
  · intro outside
    have all : Finset.Ico 0 (size : Int) ⊆ used := by
      intro number member
      obtain ⟨nonnegative, below⟩ := Finset.mem_Ico.mp member
      by_contra notMem
      exact absurd (least.2 ⟨nonnegative, notMem⟩) (Int.not_le.mpr (below.trans_le outside))
    rw [Finset.Subset.antisymm range all, cards]
  · intro full
    have all := Finset.eq_of_subset_of_card_le range (by rw [cards, full])
    by_contra inRange
    refine least.1.2 ?_
    rw [all]
    exact Finset.mem_Ico.mpr ⟨least.1.1, Int.not_le.mp inRange⟩

end Numbers

end FirstFit
