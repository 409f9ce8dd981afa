/-
This file models what the clients use of C strings and of standard input and output:
`strlen`, `fgets` and `fputs` over character arrays. A string is what stands in its
array before the first NUL, and `fgets` cuts a file into pieces that end with a
newline, fill the array, or end with the file.
-/

import SocketProgram.Kernel

namespace SocketProgram

open Memory

/-! ### Strings -/

/-- The string in a character array: what stands before the first NUL. -/
def cstring (array : List Byte) : List Byte := array.takeWhile fun c => c != 0

/-- `strlen`. -/
def strlen (array : List Byte) : Nat := (cstring array).length

/-- A string stored at the start of an array is the string in it. -/
theorem cstring_overwrite (array line : List Byte) (noNul : 0 ∉ line) :
    cstring (overwrite array 0 (line ++ [0])) = line := by
  have kept : ∀ c ∈ line, (c != 0) = true := fun c member =>
    bne_iff_ne.mpr fun same => noNul (same ▸ member)
  rw [cstring, overwrite, List.take_zero, List.nil_append, List.append_assoc,
    List.takeWhile_append_of_pos kept]
  exact List.append_nil _

/-- A string ends at the first NUL, whatever follows. -/
theorem cstring_append_nul (line rest : List Byte) :
    cstring (line ++ 0 :: rest) = cstring line := by
  induction line with
  | nil => rfl
  | cons c line inductionHypothesis =>
    rw [cstring] at inductionHypothesis
    rw [cstring, cstring, List.cons_append, List.takeWhile_cons, List.takeWhile_cons,
      inductionHypothesis]
    rfl

/-- `strlen` stops at the first NUL. -/
theorem cstring_overwrite_takeWhile (array line : List Byte) :
    cstring (overwrite array 0 (line ++ [0])) = line.takeWhile fun c => c != 0 := by
  rw [overwrite_zero, List.append_assoc]
  exact cstring_append_nul line _

/-- A NUL that is stored in an array ends the string there. -/
theorem cstring_overwrite_nul (array : List Byte) (n : Nat) (noNul : 0 ∉ array.take n) :
    cstring (overwrite array n [0]) = array.take n := by
  have kept : ∀ c ∈ array.take n, (c != 0) = true := fun c member =>
    bne_iff_ne.mpr fun same => noNul (same ▸ member)
  rw [cstring, overwrite, List.append_assoc, List.takeWhile_append_of_pos kept]
  exact List.append_nil _

/-- A string is a first part of its array. -/
theorem take_strlen (array : List Byte) : array.take (strlen array) = cstring array :=
  (List.prefix_iff_eq_take.mp (List.takeWhile_prefix _)).symm

/-! ### Lines -/

/-- What `fgets` stores of a file before the NUL, with room for this many bytes. -/
def fgetsLine : Nat → List Byte → List Byte
  | 0, _ => []
  | _ + 1, [] => []
  | room + 1, c :: file => if c = newline then [c] else c :: fgetsLine room file

/-- `fgets(s,size,fp)`: what it stores and what it leaves of the file. `none` is `NULL`. -/
def fgets (size : Nat) (file : List Byte) : Option (List Byte × List Byte) :=
  match file with
  | [] => none
  | _ => some (fgetsLine (size - 1) file ++ [0], file.drop (fgetsLine (size - 1) file).length)

/-- A line as `fgets` and `readline` delimit it: no longer than what they have room for, and
with a newline only at its end. -/
structure IsLine (room : Nat) (line : List Byte) : Prop where
  fits : line.length ≤ room
  ends : ∀ first rest, line = first ++ newline :: rest → rest = []

theorem isLine_nil (room : Nat) : IsLine room [] :=
  ⟨Nat.zero_le _, fun _ _ same => by simp at same⟩

theorem prefix_fgetsLine (room : Nat) (file : List Byte) : fgetsLine room file <+: file := by
  induction room generalizing file with
  | zero => exact List.nil_prefix
  | succ room inductionHypothesis =>
    cases file with
    | nil => exact List.nil_prefix
    | cons c file =>
      rw [fgetsLine]
      split_ifs with same
      · exact List.prefix_append [c] file
      · exact List.cons_prefix_cons.mpr ⟨rfl, inductionHypothesis file⟩

theorem length_fgetsLine (room : Nat) (file : List Byte) :
    (fgetsLine room file).length ≤ room := by
  induction room generalizing file with
  | zero => exact Nat.le_refl 0
  | succ room inductionHypothesis =>
    cases file with
    | nil => exact Nat.zero_le _
    | cons c file =>
      rw [fgetsLine]
      split_ifs with same
      · exact Nat.succ_le_succ (Nat.zero_le _)
      · exact Nat.succ_le_succ (inductionHypothesis file)

theorem fgetsLine_ends (room : Nat) (file first rest : List Byte)
    (split : fgetsLine room file = first ++ newline :: rest) : rest = [] := by
  induction room generalizing file first with
  | zero => exact absurd split.symm (by simp [fgetsLine])
  | succ room inductionHypothesis =>
    cases file with
    | nil => exact absurd split.symm (by simp [fgetsLine])
    | cons c file =>
      rw [fgetsLine] at split
      split_ifs at split with same
      · cases first with
        | nil => exact (List.cons.inj split).2.symm
        | cons d first => exact absurd (List.cons.inj split).2.symm (by simp)
      · cases first with
        | nil => exact absurd (List.cons.inj split).1 same
        | cons d first => exact inductionHypothesis file first (List.cons.inj split).2

/-- `fgets` gives the first line of the file. -/
theorem isLine_fgetsLine (room : Nat) (file : List Byte) : IsLine room (fgetsLine room file) :=
  ⟨length_fgetsLine room file, fun first rest => fgetsLine_ends room file first rest⟩

/-- What `fgets` leaves is what follows the line. -/
theorem fgets_eq_some {size : Nat} {file stored rest : List Byte}
    (got : fgets size file = some (stored, rest)) :
    stored = fgetsLine (size - 1) file ++ [0] ∧ fgetsLine (size - 1) file ++ rest = file := by
  cases file with
  | nil => cases got
  | cons c file =>
    obtain ⟨rfl, rfl⟩ := Prod.mk.inj (Option.some.inj got)
    exact ⟨rfl, (List.prefix_iff_eq_append.mp (prefix_fgetsLine _ _))⟩

theorem fgets_eq_none {size : Nat} {file : List Byte} (ended : fgets size file = none) :
    file = [] := by
  cases file with
  | nil => rfl
  | cons c file => cases ended

end SocketProgram
