/-
This file is the arithmetic of one's-complement sums. Digits below a base are added with
an end-around carry: what goes over the base comes back in at the low end. Such a sum is
the ordinary sum modulo one less than the base, where the multiples of the modulus are
written as zero only when everything added was zero. So it does not depend on the order
of the digits, and an ordinary sum in a wider accumulator, folded twice, is the same.
-/

import Mathlib.Algebra.GroupWithZero.Nat
import Mathlib.Algebra.BigOperators.Group.List.Basic
import Mathlib.Data.Nat.ModEq

namespace OnesComplement

variable {base : Nat}

/-- Two digits added with an end-around carry. -/
def add (base first second : Nat) : Nat := (first + second) % base + (first + second) / base

/-- The one's-complement sum of some digits. -/
def sum (base : Nat) (digits : List Nat) : Nat := digits.foldr (add base) 0

/-- An accumulator folded: the part above the base is added to the part below, and the carry
of that once more. -/
def fold (base total : Nat) : Nat :=
  let once := total / base + total % base
  (once + once / base) % base

/-- A total as a one's-complement digit: modulo one less than the base, and zero only for
zero. -/
def digit (base total : Nat) : Nat :=
  if total = 0 then 0 else (total - 1) % (base - 1) + 1

/-! ### The digit of a total -/

theorem digit_modEq (total : Nat) : digit base total ≡ total [MOD base - 1] := by
  unfold digit
  split_ifs with zero
  · rw [zero]
  · have positive : 1 ≤ total := Nat.one_le_iff_ne_zero.mpr zero
    have step := (Nat.mod_modEq (total - 1) (base - 1)).add_right 1
    rwa [Nat.sub_add_cancel positive] at step

theorem digit_eq_zero {total : Nat} : digit base total = 0 ↔ total = 0 := by
  by_cases zero : total = 0
  · rw [digit, if_pos zero]
    exact iff_of_true rfl zero
  · rw [digit, if_neg zero]
    exact iff_of_false (Nat.succ_ne_zero _) zero

theorem digit_lt (large : 2 ≤ base) (total : Nat) : digit base total < base := by
  unfold digit
  split_ifs
  · omega
  · have := Nat.mod_lt (total - 1) (show 0 < base - 1 by omega)
    omega

/-- A digit below the base is known by its residue and by whether it is zero. -/
theorem eq_digit {value total : Nat} (small : value < base) (zero : value = 0 ↔ total = 0)
    (same : value ≡ total [MOD base - 1]) : value = digit base total := by
  unfold digit
  split_ifs with none
  · exact zero.mpr none
  · have positive : 1 ≤ value := Nat.one_le_iff_ne_zero.mpr fun none' => none (zero.mp none')
    have positive' : 1 ≤ total := Nat.one_le_iff_ne_zero.mpr none
    have shifted : value - 1 ≡ total - 1 [MOD base - 1] := by
      refine Nat.ModEq.add_right_cancel' 1 ?_
      rwa [Nat.sub_add_cancel positive, Nat.sub_add_cancel positive']
    have residue : (value - 1) % (base - 1) = value - 1 := Nat.mod_eq_of_lt (by omega)
    have value' := shifted
    rw [Nat.ModEq, residue] at value'
    omega

/-- Totals with the same residue have the same digit, unless just one of them is zero. -/
theorem digit_congr (large : 2 ≤ base) {first second : Nat} (zero : first = 0 ↔ second = 0)
    (same : first ≡ second [MOD base - 1]) : digit base first = digit base second :=
  eq_digit (digit_lt large first) (digit_eq_zero.trans zero) ((digit_modEq first).trans same)

/-- The largest digit is that of the multiples of the modulus other than zero. -/
theorem digit_eq_max (large : 2 ≤ base) {total : Nat} :
    digit base total = base - 1 ↔ total ≠ 0 ∧ base - 1 ∣ total := by
  constructor
  · intro max
    refine ⟨?_, ?_⟩
    · intro zero
      rw [digit_eq_zero.mpr zero] at max
      omega
    · have same : digit base total ≡ total [MOD base - 1] := digit_modEq total
      rw [max] at same
      exact (Nat.modEq_zero_iff_dvd.mp (same.symm.trans (Nat.modEq_zero_iff_dvd.mpr dvd_rfl)))
  · rintro ⟨nonzero, divides⟩
    refine (eq_digit (by omega) (iff_of_false (by omega) nonzero) ?_).symm
    exact (Nat.modEq_zero_iff_dvd.mpr dvd_rfl).trans (Nat.modEq_zero_iff_dvd.mpr divides).symm

/-- The complement of a digit brings the total to all ones. -/
theorem digit_add_sub (large : 2 ≤ base) (total : Nat) :
    digit base (total + (base - 1 - digit base total)) = base - 1 := by
  have small := digit_lt large total
  have whole : digit base total + (base - 1 - digit base total) = base - 1 := by omega
  have same : total + (base - 1 - digit base total) ≡ base - 1 [MOD base - 1] := by
    have shifted := (@digit_modEq base total).symm.add_right (base - 1 - digit base total)
    rwa [whole] at shifted
  refine (digit_eq_max large).mpr ⟨?_, (same.dvd_iff dvd_rfl).mpr dvd_rfl⟩
  intro zero
  obtain ⟨none, rest⟩ := Nat.add_eq_zero_iff.mp zero
  rw [digit_eq_zero.mpr none] at rest
  omega

/-- The complement of a digit, written as all ones in place of zero, brings the total to all
ones. -/
theorem digit_add_complement (large : 2 ≤ base) (total value : Nat)
    (complement : value = if base - 1 - digit base total = 0 then base - 1
      else base - 1 - digit base total) : digit base (total + value) = base - 1 := by
  have small := digit_lt large total
  have divides : base - 1 ∣ digit base total + value := by
    split_ifs at complement with zero
    · have max : digit base total = base - 1 := by omega
      rw [max, complement]
      exact Nat.dvd_add (dvd_refl _) (dvd_refl _)
    · exact ⟨1, by omega⟩
  have same : total + value ≡ digit base total + value [MOD base - 1] :=
    (digit_modEq total).symm.add_right value
  refine (digit_eq_max large).mpr ⟨?_, (same.dvd_iff dvd_rfl).mpr divides⟩
  split_ifs at complement <;> omega

/-! ### Sums and folded accumulators -/

/-- A carry that comes back in at the low end keeps the residue. -/
theorem carry_modEq (positive : 0 < base) (total : Nat) :
    total % base + total / base ≡ total [MOD base - 1] := by
  have split := Nat.mod_add_div total base
  have base' : base ≡ 1 [MOD base - 1] := ((Nat.modEq_iff_dvd' positive).mpr dvd_rfl).symm
  calc total % base + total / base
      = total % base + 1 * (total / base) := by rw [Nat.one_mul]
    _ ≡ total % base + base * (total / base) [MOD base - 1] :=
        (base'.symm.mul_right _).add_left _
    _ = total := split

/-- A carry of at most one that comes back in at the low end leaves a digit, and zero only from
zero. -/
theorem carry_eq_digit (large : 2 ≤ base) {total : Nat} (small : total < 2 * base - 1) :
    total % base + total / base = digit base total := by
  have split := Nat.mod_add_div total base
  have carry : total / base ≤ 1 := Nat.lt_succ_iff.mp
    (Nat.div_lt_of_lt_mul (by omega))
  rcases Nat.le_one_iff_eq_zero_or_eq_one.mp carry with zero | one
  · rw [zero, Nat.mul_zero, Nat.add_zero] at split
    rw [zero, Nat.add_zero]
    refine eq_digit (Nat.mod_lt _ (by omega)) (by rw [split]) ?_
    rw [split]
  · refine eq_digit ?_ ?_ (carry_modEq (by omega) total)
    · rw [one, Nat.mul_one] at split
      omega
    · rw [one, Nat.mul_one] at split
      omega

theorem add_eq_digit (large : 2 ≤ base) {first second : Nat} (first_lt : first < base)
    (second_lt : second < base) : add base first second = digit base (first + second) :=
  carry_eq_digit large (by omega)

/-- The sum of some digits is the digit of their ordinary sum. -/
theorem sum_eq_digit (large : 2 ≤ base) {digits : List Nat}
    (small : ∀ value ∈ digits, value < base) : sum base digits = digit base digits.sum := by
  induction digits with
  | nil => rfl
  | cons first rest inductionHypothesis =>
    have rest' : sum base rest = digit base rest.sum :=
      inductionHypothesis fun value member => small value (List.mem_cons_of_mem _ member)
    have first_lt : first < base := small first List.mem_cons_self
    calc sum base (first :: rest)
        = add base first (digit base rest.sum) := by rw [← rest']; rfl
      _ = digit base (first + digit base rest.sum) :=
          add_eq_digit large first_lt (digit_lt large _)
      _ = digit base (first + rest.sum) := by
          refine digit_congr large ?_ ((digit_modEq rest.sum).add_left first)
          rw [Nat.add_eq_zero_iff, Nat.add_eq_zero_iff, digit_eq_zero]
      _ = digit base (first :: rest).sum := by rw [List.sum_cons]

/-- Two folds are enough for an accumulator of twice the width. -/
theorem fold_eq_digit (large : 2 ≤ base) {total : Nat} (small : total < base * base) :
    fold base total = digit base total := by
  have high : total / base < base := Nat.div_lt_of_lt_mul small
  have low : total % base < base := Nat.mod_lt _ (by omega)
  have bounded : total / base + total % base < 2 * base - 1 := by omega
  have residue := carry_modEq (by omega : 0 < base) total
  rw [Nat.add_comm] at residue
  have zero : total / base + total % base = 0 ↔ total = 0 := by
    constructor
    · intro none
      rw [← Nat.div_add_mod total base, (Nat.add_eq_zero_iff.mp none).1,
        (Nat.add_eq_zero_iff.mp none).2, Nat.mul_zero]
    · intro none
      rw [none, Nat.zero_div, Nat.zero_mod]
  rw [← digit_congr large zero residue, ← carry_eq_digit large bounded]
  unfold fold
  generalize total / base + total % base = once at bounded ⊢
  have fits : once % base + once / base < base :=
    (carry_eq_digit large bounded).symm ▸ digit_lt large once
  calc (once + once / base) % base
      = (once % base + once / base + base * (once / base)) % base := by
        rw [Nat.add_right_comm, Nat.mod_add_div]
    _ = once % base + once / base := by
        rw [Nat.add_mul_mod_self_left, Nat.mod_eq_of_lt fits]

end OnesComplement
