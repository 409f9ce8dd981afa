/-
This file is about tables of descriptors: numbers that refer to open files. A new descriptor
takes the lowest number that is free, so it never replaces one that is open, and `close` frees
one number and leaves the others. A file is still open as long as a descriptor refers to it.
-/

import Mathlib.Data.Nat.Find
import Mathlib.Logic.Function.Basic

namespace Descriptors

variable {File Renamed : Type*}

/-- The open files of a process. From `size` on all numbers are free. -/
structure Table (File : Type*) where
  file : Nat → Option File
  size : Nat
  free : ∀ fd, size ≤ fd → file fd = none

namespace Table

theorem exists_free (table : Table File) : ∃ fd, table.file fd = none :=
  ⟨table.size, table.free _ (Nat.le_refl _)⟩

/-- The lowest free number. -/
def lowest (table : Table File) : Nat := Nat.find table.exists_free

/-- The same descriptors, with another name for each file. -/
def map (rename : File → Renamed) (table : Table File) : Table Renamed where
  file fd := (table.file fd).map rename
  size := table.size
  free fd outside := by rw [table.free fd outside, Option.map_none]

/-- A new descriptor, the lowest free one, for a file. -/
def install (table : Table File) (file : File) : Table File where
  file := Function.update table.file table.lowest (some file)
  size := max table.size (table.lowest + 1)
  free fd outside := by
    obtain ⟨above, beyond⟩ := Nat.max_le.mp outside
    rw [Function.update_of_ne (Nat.ne_of_gt beyond), table.free fd above]

/-- New descriptors for some files, in this order. -/
def installAll (table : Table File) : List File → List Nat × Table File
  | [] => ([], table)
  | file :: files =>
    let (descriptors, next) := (table.install file).installAll files
    (table.lowest :: descriptors, next)

/-- `close`. -/
def close (table : Table File) (fd : Nat) : Table File where
  file := Function.update table.file fd none
  size := table.size
  free other outside := by
    by_cases same : other = fd
    · rw [same, Function.update_self]
    · rw [Function.update_of_ne same, table.free other outside]

/-! ### What the numbers refer to -/

theorem file_lowest (table : Table File) : table.file table.lowest = none :=
  Nat.find_spec table.exists_free

@[simp]
theorem file_install_lowest (table : Table File) (file : File) :
    (table.install file).file table.lowest = some file := Function.update_self _ _ _

theorem file_install_of_ne {table : Table File} {fd : Nat} (other : fd ≠ table.lowest)
    (file : File) : (table.install file).file fd = table.file fd := Function.update_of_ne other _ _

@[simp]
theorem file_close_self (table : Table File) (fd : Nat) : (table.close fd).file fd = none :=
  Function.update_self _ _ _

theorem file_close_of_ne {fd closed : Nat} (other : fd ≠ closed) (table : Table File) :
    (table.close closed).file fd = table.file fd := Function.update_of_ne other _ _

/-- The lowest free number depends on what the numbers refer to only. -/
theorem lowest_congr {table other : Table File} (same : table.file = other.file) :
    table.lowest = other.lowest :=
  Nat.find_congr' fun {fd} => by rw [same]

/-- A new descriptor that is closed again leaves nothing behind. -/
theorem file_close_install (table : Table File) (file : File) :
    ((table.install file).close table.lowest).file = table.file := by
  funext fd
  by_cases new : fd = table.lowest
  · rw [new, file_close_self, file_lowest]
  · rw [file_close_of_ne new, file_install_of_ne new]

/-- A free number is the lowest one when none below it is free. -/
theorem lowest_eq {table : Table File} {fd : Nat} (free : table.file fd = none)
    (below : ∀ lower < fd, table.file lower ≠ none) : table.lowest = fd :=
  (Nat.find_eq_iff _).mpr ⟨free, below⟩

/-- Some descriptors are closed one after the other. -/
theorem file_foldl_close (table : Table File) (fds : List Nat) (fd : Nat) :
    (fds.foldl close table).file fd = if fd ∈ fds then none else table.file fd := by
  induction fds generalizing table with
  | nil => rfl
  | cons first rest inductionHypothesis =>
    rw [List.foldl_cons, inductionHypothesis]
    by_cases same : fd = first
    · rw [same, file_close_self, ite_self, if_pos List.mem_cons_self]
    · rw [file_close_of_ne same]
      exact if_congr (by rw [List.mem_cons, or_iff_right same]) rfl rfl

/-! ### Open files -/

/-- Some descriptor refers to the file. -/
def Refers (table : Table File) (file : File) : Prop := ∃ fd, table.file fd = some file

/-- This descriptor refers to the file, and no other does. -/
def Only (table : Table File) (file : File) (fd : Nat) : Prop :=
  ∀ other, table.file other = some file ↔ other = fd

variable {table : Table File} {file other : File} {fd closed : Nat}

theorem not_refers_map {rename : File → Renamed} {renamed : Renamed}
    (fresh : ∀ file, rename file ≠ renamed) : ¬ (table.map rename).Refers renamed := by
  rintro ⟨fd, refers⟩
  obtain ⟨file, -, same⟩ := Option.map_eq_some_iff.mp refers
  exact fresh file same

theorem not_refers_install (closed : ¬ table.Refers file) (different : other ≠ file) :
    ¬ (table.install other).Refers file := by
  rintro ⟨fd, refers⟩
  by_cases new : fd = table.lowest
  · rw [new, file_install_lowest] at refers
    exact different (Option.some.inj refers)
  · rw [file_install_of_ne new] at refers
    exact closed ⟨fd, refers⟩

theorem not_refers_installAll {files : List File} (closed : ¬ table.Refers file)
    (different : ∀ other ∈ files, other ≠ file) : ¬ (table.installAll files).2.Refers file := by
  induction files generalizing table with
  | nil => exact closed
  | cons first rest inductionHypothesis =>
    exact inductionHypothesis (not_refers_install closed (different first List.mem_cons_self))
      fun other member => different other (List.mem_cons_of_mem first member)

theorem not_refers_close (closed : ¬ table.Refers file) : ¬ (table.close fd).Refers file := by
  rintro ⟨other, refers⟩
  by_cases same : other = fd
  · rw [same, file_close_self] at refers
    cases refers
  · rw [file_close_of_ne same] at refers
    exact closed ⟨other, refers⟩

/-- A new descriptor opens its file and nothing else. -/
theorem refers_install_iff :
    (table.install other).Refers file ↔ table.Refers file ∨ file = other := by
  constructor
  · rintro ⟨fd, refers⟩
    by_cases new : fd = table.lowest
    · rw [new, file_install_lowest] at refers
      exact .inr (Option.some.inj refers).symm
    · rw [file_install_of_ne new] at refers
      exact .inl ⟨fd, refers⟩
  · rintro (⟨fd, refers⟩ | rfl)
    · refine ⟨fd, ?_⟩
      rw [file_install_of_ne]
      · exact refers
      · rintro rfl
        rw [file_lowest] at refers
        cases refers
    · exact ⟨table.lowest, file_install_lowest table file⟩

/-- Closing a descriptor of another file leaves a file as open as it was. -/
theorem refers_close_iff (different : table.file fd ≠ some file) :
    (table.close fd).Refers file ↔ table.Refers file := by
  refine exists_congr fun number => ?_
  by_cases same : number = fd
  · rw [same, file_close_self]
    exact iff_of_false (Option.some_ne_none file).symm different
  · rw [file_close_of_ne same]

theorem only_install (closed : ¬ table.Refers file) :
    (table.install file).Only file table.lowest := by
  intro other
  constructor
  · intro refers
    by_contra old
    rw [file_install_of_ne old] at refers
    exact closed ⟨other, refers⟩
  · rintro rfl
    exact file_install_lowest table file

/-- A new number is free, so it is not one that refers to a file. -/
theorem Only.ne_lowest (only : table.Only file fd) : fd ≠ table.lowest := by
  intro same
  have refers := (only fd).mpr rfl
  rw [same, file_lowest] at refers
  cases refers

theorem Only.install (only : table.Only file fd) (different : other ≠ file) :
    (table.install other).Only file fd := by
  intro number
  by_cases new : number = table.lowest
  · rw [new, file_install_lowest]
    exact iff_of_false (fun same => different (Option.some.inj same)) only.ne_lowest.symm
  · rw [file_install_of_ne new]
    exact only number

theorem Only.installAll {files : List File} (only : table.Only file fd)
    (different : ∀ other ∈ files, other ≠ file) : (table.installAll files).2.Only file fd := by
  induction files generalizing table with
  | nil => exact only
  | cons first rest inductionHypothesis =>
    exact inductionHypothesis (only.install (different first List.mem_cons_self))
      fun other member => different other (List.mem_cons_of_mem first member)

theorem Only.close (only : table.Only file fd) (different : closed ≠ fd) :
    (table.close closed).Only file fd := by
  intro number
  by_cases same : number = closed
  · rw [same, file_close_self]
    exact iff_of_false (Option.some_ne_none file).symm different
  · rw [file_close_of_ne same]
    exact only number

/-- Once its only descriptor is closed the file is. -/
theorem Only.not_refers_close (only : table.Only file fd) : ¬ (table.close fd).Refers file := by
  rintro ⟨number, refers⟩
  by_cases same : number = fd
  · rw [same, file_close_self] at refers
    cases refers
  · rw [file_close_of_ne same] at refers
    exact same ((only number).mp refers)

theorem Only.refers (only : table.Only file fd) : table.Refers file := ⟨fd, (only fd).mpr rfl⟩

/-- Two files have two descriptors. -/
theorem Only.ne {first second : Nat} (only : table.Only file first)
    (only' : table.Only other second) (different : other ≠ file) : first ≠ second := by
  rintro rfl
  exact different (Option.some.inj (((only' first).mpr rfl).symm.trans ((only first).mpr rfl)))

end Table

end Descriptors
