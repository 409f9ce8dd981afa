/-
This file models the first loop of `get_ifi_info`, which asks for the list of interfaces with a
buffer that grows until the list fits. A kernel that has more to say than there is room for may
say so, or may fill in what fits and say nothing; the loop therefore goes on until two answers have
the same length.

A truncated answer fills the buffer but for less than one record, and the buffer grows by ten of
the largest records at least between two answers; so a truncated answer is never repeated, and an
answer that is repeated is complete. What ends the argument is the type of `len`: it is an `int`,
and there must be room in it for two buffers that the whole list fits in.
-/

import SocketProgram.Kernel

namespace SocketProgram.GetIfiInfo

/-! ### The source -/

/-- `sizeof(struct ifreq)`. -/
def sizeofIfreq : Nat := 40

/-- `INT_MAX`. -/
def intMax : Nat := 2147483647

/-- What `SIOCGIFCONF` gives for a buffer of so many bytes: what it fills in, where `ifc_len` is
the length of it, or `none` when it fails with `EINVAL`. -/
abbrev Siocgifconf := Nat → Option (List Byte)

/-- The calls the loop makes, with what the environment answered. -/
inductive Call
  | malloc (len : Nat)
  | ioctl (len : Nat) (answer : Option (List Byte))
  | printf (text : String)
  | free
  deriving DecidableEq, Repr

/-- The variables of the loop. -/
structure Sizing where
  lastlen : Nat
  len : Nat
  deriving DecidableEq, Repr

/-- How an iteration ends. After `leavesInt` the sum in `len +=` has been converted to an `int` that
cannot hold it, and `len` is no length of a buffer. -/
inductive Outcome
  | breaks (buf : List Byte)
  | next (vars : Sizing)
  | leavesInt
  deriving DecidableEq, Repr

/-- The variables before the first iteration. -/
def Sizing.initial : Sizing where
  lastlen := 0
  len := 100 * sizeofIfreq

/-- `len += 10 *sizeof(struct ifreq)`. -/
def Sizing.grow (vars : Sizing) : Outcome :=
  if vars.len + 10 * sizeofIfreq ≤ intMax then
    .next { vars with len := vars.len + 10 * sizeofIfreq }
  else .leavesInt

/-- The body of the first `for(;;)`. -/
def iterate (siocgifconf : Siocgifconf) (vars : Sizing) : List Call × Outcome :=
  let asked := [Call.malloc vars.len, .ioctl vars.len (siocgifconf vars.len)]
  match siocgifconf vars.len with
  | none =>
    if vars.lastlen ≠ 0 then (asked ++ [.printf "ioctl error\n", .free], vars.grow)
    else (asked ++ [.free], vars.grow)
  | some filled =>
    if filled.length = vars.lastlen then (asked, .breaks filled)
    else (asked ++ [.free], { vars with lastlen := filled.length }.grow)

/-- So many iterations at most, from these variables on. -/
def sizing (siocgifconf : Siocgifconf) : Nat → Sizing → List Call × Outcome
  | 0, vars => ([], .next vars)
  | fuel + 1, vars =>
    match iterate siocgifconf vars with
    | (calls, .next vars) =>
      (calls ++ (sizing siocgifconf fuel vars).1, (sizing siocgifconf fuel vars).2)
    | (calls, outcome) => (calls, outcome)

/-! ### The kernel -/

/-- The longest first part of whole records that fits. -/
def fitting : List (List Byte) → Nat → List (List Byte)
  | [], _ => []
  | record :: records, len =>
    if record.length ≤ len then record :: fitting records (len - record.length) else []

/-- A kernel with these records: it fills in the longest first part that fits, or fails because
the list does not fit. -/
structure Kernel (records : List (List Byte)) where
  siocgifconf : Siocgifconf
  fills : ∀ len filled, siocgifconf len = some filled → filled = (fitting records len).flatten
  refuses : ∀ len, siocgifconf len = none → len < records.flatten.length

theorem fitting_prefix (records : List (List Byte)) (len : Nat) :
    fitting records len <+: records := by
  induction records generalizing len with
  | nil => exact List.prefix_refl []
  | cons record records inductionHypothesis =>
    rw [fitting]
    split_ifs
    · exact (List.prefix_cons_inj record).mpr (inductionHypothesis _)
    · exact List.nil_prefix

theorem length_fitting_le (records : List (List Byte)) (len : Nat) :
    (fitting records len).flatten.length ≤ len := by
  induction records generalizing len with
  | nil => exact Nat.zero_le len
  | cons record records inductionHypothesis =>
    rw [fitting]
    split_ifs with fits
    · rw [List.flatten_cons, List.length_append]
      have rest := inductionHypothesis (len - record.length)
      omega
    · exact Nat.zero_le len

/-- A list that fits is filled in whole. -/
theorem fitting_of_le {records : List (List Byte)} {len : Nat}
    (fits : records.flatten.length ≤ len) : fitting records len = records := by
  induction records generalizing len with
  | nil => rfl
  | cons record records inductionHypothesis =>
    rw [List.flatten_cons, List.length_append] at fits
    rw [fitting, if_pos (by omega), inductionHypothesis (by omega)]

/-- No first part that fits is longer. -/
theorem fitting_longest {records first : List (List Byte)} {len : Nat}
    (isPrefix : first <+: records) (fits : first.flatten.length ≤ len) :
    first <+: fitting records len := by
  induction records generalizing first len with
  | nil => exact isPrefix
  | cons record records inductionHypothesis =>
    cases first with
    | nil => exact List.nil_prefix
    | cons head first =>
      obtain ⟨rfl, rest⟩ := List.cons_prefix_cons.mp isPrefix
      rw [List.flatten_cons, List.length_append] at fits
      rw [fitting, if_pos (by omega)]
      exact List.cons_prefix_cons.mpr ⟨rfl, inductionHypothesis rest (by omega)⟩

/-- A list that does not fit leaves less than one record of the buffer free. -/
theorem length_fitting_gt {records : List (List Byte)} {len largest : Nat}
    (small : ∀ record ∈ records, record.length ≤ largest) (more : len < records.flatten.length) :
    len < (fitting records len).flatten.length + largest := by
  induction records generalizing len with
  | nil => exact absurd more (Nat.not_lt_zero len)
  | cons record records inductionHypothesis =>
    obtain ⟨here, others⟩ := List.forall_mem_cons.mp small
    rw [List.flatten_cons, List.length_append] at more
    rw [fitting]
    split_ifs with fits
    · have rest := inductionHypothesis others (show len - record.length < _ by omega)
      rw [List.flatten_cons, List.length_append]
      omega
    · exact (Nat.lt_of_not_le fits).trans_le (here.trans (Nat.le_add_left _ _))

/-! ### The loop -/

/-- The longest list that fits in two of the lengths `len` takes, of which the last is the last
multiple of `10 * sizeof(struct ifreq)` that an `int` holds. -/
def longestList : Nat := 2147483200

/-- At the top of the loop, `lastlen` is nothing yet or what was filled in for an earlier length. -/
structure Sizing.Inv (records : List (List Byte)) (vars : Sizing) : Prop where
  large : 100 * sizeofIfreq ≤ vars.len
  held : vars.len ≤ intMax
  steps : 10 * sizeofIfreq ∣ vars.len
  answered : vars.lastlen = 0 ∨ ∃ before, before + 10 * sizeofIfreq ≤ vars.len ∧
    vars.lastlen = (fitting records before).flatten.length

theorem Sizing.inv_initial (records : List (List Byte)) : Sizing.initial.Inv records where
  large := Nat.le_refl _
  held := by decide
  steps := by decide
  answered := Or.inl rfl

section Loop

variable {records : List (List Byte)} (kernel : Kernel records)

/-- What one iteration does: it breaks because an answer has the length of the last one, or it
grows the buffer with what `lastlen` was or with the length of the answer. -/
theorem iterate_cases (vars : Sizing) :
    (∃ filled, kernel.siocgifconf vars.len = some filled ∧ filled.length = vars.lastlen ∧
      (iterate kernel.siocgifconf vars).2 = .breaks filled) ∨
    (kernel.siocgifconf vars.len = none ∧
      (iterate kernel.siocgifconf vars).2 = vars.grow) ∨
    (∃ filled, kernel.siocgifconf vars.len = some filled ∧ filled.length ≠ vars.lastlen ∧
      (iterate kernel.siocgifconf vars).2 = { vars with lastlen := filled.length }.grow) := by
  rw [iterate]
  cases answer : kernel.siocgifconf vars.len with
  | none =>
    refine Or.inr (Or.inl ⟨rfl, ?_⟩)
    dsimp only
    split_ifs <;> rfl
  | some filled =>
    dsimp only
    split_ifs with same
    · exact Or.inl ⟨filled, rfl, same, rfl⟩
    · exact Or.inr (Or.inr ⟨filled, rfl, same, rfl⟩)

theorem Sizing.grow_next {vars next : Sizing} (grown : vars.grow = .next next) :
    next = { vars with len := vars.len + 10 * sizeofIfreq } ∧ next.len ≤ intMax := by
  rw [Sizing.grow] at grown
  split_ifs at grown with held
  cases grown
  exact ⟨rfl, held⟩

theorem Sizing.grow_ne_breaks (vars : Sizing) (buf : List Byte) : vars.grow ≠ .breaks buf := by
  rw [Sizing.grow]
  split_ifs
  · exact Outcome.noConfusion
  · exact Outcome.noConfusion

theorem Sizing.grow_of_le (lastlen : Nat) {len : Nat} (room : len + 10 * sizeofIfreq ≤ intMax) :
    Sizing.grow ⟨lastlen, len⟩ = .next ⟨lastlen, len + 10 * sizeofIfreq⟩ := if_pos room

theorem Sizing.Inv.grow {vars next : Sizing} (inv : vars.Inv records)
    (grown : vars.grow = .next next) : next.Inv records := by
  obtain ⟨rfl, held⟩ := Sizing.grow_next grown
  refine ⟨inv.large.trans (Nat.le_add_right _ _), held, Nat.dvd_add inv.steps (Nat.dvd_refl _), ?_⟩
  obtain none | ⟨before, earlier, answer⟩ := inv.answered
  · exact Or.inl none
  · exact Or.inr ⟨before, earlier.trans (Nat.le_add_right _ _), answer⟩

/-- After an answer, `lastlen` is what was filled in for a buffer one step shorter. -/
theorem Sizing.Inv.grow_answered {vars next : Sizing} {filled : List Byte}
    (inv : vars.Inv records) (answer : kernel.siocgifconf vars.len = some filled)
    (grown : { vars with lastlen := filled.length }.grow = .next next) : next.Inv records := by
  obtain ⟨rfl, held⟩ := Sizing.grow_next grown
  refine ⟨inv.large.trans (Nat.le_add_right _ _), held, Nat.dvd_add inv.steps (Nat.dvd_refl _), ?_⟩
  refine Or.inr ⟨vars.len, Nat.le_refl _, ?_⟩
  rw [kernel.fills _ _ answer]

theorem Sizing.Inv.iterate {vars next : Sizing} (inv : vars.Inv records)
    (goesOn : (iterate kernel.siocgifconf vars).2 = .next next) : next.Inv records := by
  obtain ⟨filled, -, -, broken⟩ | ⟨-, grown⟩ | ⟨filled, answer, -, grown⟩ :=
    iterate_cases kernel vars
  · rw [broken] at goesOn
    exact Outcome.noConfusion goesOn
  · exact inv.grow (grown.symm.trans goesOn)
  · exact inv.grow_answered kernel answer (grown.symm.trans goesOn)

/-- A buffer with room for the list gets the list. -/
theorem siocgifconf_of_le {len : Nat} (fits : records.flatten.length ≤ len) :
    kernel.siocgifconf len = some records.flatten := by
  cases answer : kernel.siocgifconf len with
  | none => exact absurd (kernel.refuses len answer) (Nat.not_lt.mpr fits)
  | some filled => rw [kernel.fills len filled answer, fitting_of_le fits]

/-- The loop only breaks with the whole list, which then has fitted twice. -/
theorem Sizing.Inv.breaks {vars : Sizing} {buf : List Byte} (inv : vars.Inv records)
    (small : ∀ record ∈ records, record.length ≤ 10 * sizeofIfreq)
    (broken : (GetIfiInfo.iterate kernel.siocgifconf vars).2 = .breaks buf) :
    buf = records.flatten ∧ records.flatten.length ≤ longestList := by
  obtain ⟨filled, answer, same, breaks⟩ | ⟨-, grown⟩ | ⟨filled, -, -, grown⟩ :=
    iterate_cases kernel vars
  · obtain rfl : filled = buf := Outcome.breaks.inj (breaks.symm.trans broken)
    have filledIn := kernel.fills _ _ answer
    have large := inv.large
    have held := inv.held
    have steps := inv.steps
    have whole : records.flatten.length ≤ vars.len := by
      -- otherwise less than one step is free, and the last answer was for a shorter buffer
      by_contra more
      have full := length_fitting_gt small (Nat.lt_of_not_le more)
      rw [← filledIn, same] at full
      obtain none | ⟨before, earlier, last⟩ := inv.answered
      · simp only [sizeofIfreq] at *
        omega
      · have room := length_fitting_le records before
        simp only [sizeofIfreq] at *
        omega
    rw [fitting_of_le whole] at filledIn
    refine ⟨filledIn, ?_⟩
    rw [filledIn] at same
    obtain none | ⟨before, earlier, last⟩ := inv.answered
    · rw [same, none]
      exact Nat.zero_le _
    · have room := length_fitting_le records before
      simp only [sizeofIfreq, intMax, longestList] at *
      omega
  · exact absurd (grown.symm.trans broken) (Sizing.grow_ne_breaks _ _)
  · exact absurd (grown.symm.trans broken) (Sizing.grow_ne_breaks _ _)

theorem sizing_succ (siocgifconf : Siocgifconf) (fuel : Nat) (vars : Sizing) :
    (sizing siocgifconf (fuel + 1) vars).2 =
      match (iterate siocgifconf vars).2 with
      | .next vars => (sizing siocgifconf fuel vars).2
      | outcome => outcome := by
  rw [sizing]
  obtain ⟨calls, buf | next | _⟩ := iterate siocgifconf vars
  · rfl
  · rfl
  · rfl

/-- However many iterations there are, what the loop breaks with is the whole list. -/
theorem Sizing.Inv.sizing {vars : Sizing} {buf : List Byte} {fuel : Nat} (inv : vars.Inv records)
    (small : ∀ record ∈ records, record.length ≤ 10 * sizeofIfreq)
    (broken : (sizing kernel.siocgifconf fuel vars).2 = .breaks buf) :
    buf = records.flatten ∧ records.flatten.length ≤ longestList := by
  induction fuel generalizing vars with
  | zero => exact Outcome.noConfusion broken
  | succ fuel inductionHypothesis =>
    rw [sizing_succ] at broken
    cases ended : (GetIfiInfo.iterate kernel.siocgifconf vars).2 with
    | breaks filled =>
      rw [ended] at broken
      exact inv.breaks kernel small (ended.trans broken)
    | next next =>
      rw [ended] at broken
      exact inductionHypothesis (inv.iterate kernel ended) broken
    | leavesInt =>
      rw [ended] at broken
      exact Outcome.noConfusion broken

/-- Once the list fits, the loop breaks at once or in the iteration after. -/
theorem sizing_of_fits {vars : Sizing} (fits : records.flatten.length ≤ vars.len)
    (room : vars.len + 10 * sizeofIfreq ≤ intMax) (fuel : Nat) :
    (sizing kernel.siocgifconf (fuel + 2) vars).2 = .breaks records.flatten := by
  have answer := siocgifconf_of_le kernel fits
  have again := siocgifconf_of_le kernel (fits.trans (Nat.le_add_right _ (10 * sizeofIfreq)))
  rw [sizing_succ, iterate, answer]
  dsimp only
  split_ifs with same
  · rfl
  · dsimp only
    rw [Sizing.grow_of_le _ room]
    dsimp only
    rw [sizing_succ, iterate, again]
    dsimp only
    rw [if_pos rfl]

/-- A list that fits twice is reached: until it fits the buffer has less than one step of room
for more than it needs. -/
theorem sizing_reaches {vars : Sizing} {fuel : Nat} (inv : vars.Inv records)
    (short : records.flatten.length ≤ longestList)
    (near : vars.len = 100 * sizeofIfreq ∨ vars.len < records.flatten.length + 10 * sizeofIfreq)
    (enough : records.flatten.length ≤ vars.len + 10 * sizeofIfreq * fuel) :
    ∃ buf, (sizing kernel.siocgifconf (fuel + 2) vars).2 = .breaks buf := by
  induction fuel generalizing vars with
  | zero =>
    have steps := inv.steps
    refine ⟨_, sizing_of_fits kernel enough ?_ 0⟩
    simp only [sizeofIfreq, intMax, longestList] at *
    omega
  | succ fuel inductionHypothesis =>
    have steps := inv.steps
    have room : vars.len + 10 * sizeofIfreq ≤ intMax := by
      simp only [sizeofIfreq, intMax, longestList] at *
      omega
    obtain fits | more := Nat.lt_or_ge vars.len records.flatten.length |>.symm
    · exact ⟨_, sizing_of_fits kernel fits room (fuel + 1)⟩
    · have grown (lastlen : Nat) (next : Sizing)
          (isNext : next = ⟨lastlen, vars.len + 10 * sizeofIfreq⟩) (holds : next.Inv records) :
          ∃ buf, (GetIfiInfo.sizing kernel.siocgifconf (fuel + 2) next).2 = .breaks buf := by
        subst isNext
        refine inductionHypothesis holds (Or.inr ?_) ?_
        · exact Nat.add_lt_add_right more _
        · rw [Nat.mul_succ] at enough
          dsimp only
          omega
      rw [sizing_succ]
      obtain ⟨filled, -, -, broken⟩ | ⟨-, grows⟩ | ⟨filled, answer, -, grows⟩ :=
        iterate_cases kernel vars
      · rw [broken]
        exact ⟨filled, rfl⟩
      · have next := Sizing.grow_of_le vars.lastlen room
        rw [grows, next]
        exact grown _ _ rfl (inv.grow next)
      · have next := Sizing.grow_of_le filled.length room
        rw [grows, next]
        exact grown _ _ rfl (inv.grow_answered kernel answer next)

/-- The buffer cannot grow for ever: `len` leaves its type if nothing ends the loop before. -/
theorem sizing_ne_next {vars : Sizing} {fuel : Nat}
    (enough : intMax < vars.len + 10 * sizeofIfreq * fuel) (held : vars.len ≤ intMax)
    (next : Sizing) : (sizing kernel.siocgifconf fuel vars).2 ≠ .next next := by
  induction fuel generalizing vars with
  | zero => exact absurd held (Nat.not_le.mpr enough)
  | succ fuel inductionHypothesis =>
    have grown (lastlen : Nat) : (match Sizing.grow ⟨lastlen, vars.len⟩ with
        | .next vars => (sizing kernel.siocgifconf fuel vars).2
        | outcome => outcome) ≠ .next next := by
      by_cases room : vars.len + 10 * sizeofIfreq ≤ intMax
      · rw [Sizing.grow_of_le lastlen room]
        refine inductionHypothesis ?_ room
        rw [Nat.mul_succ] at enough
        dsimp only
        omega
      · rw [Sizing.grow, if_neg room]
        exact Outcome.noConfusion
    rw [sizing_succ]
    obtain ⟨filled, -, -, broken⟩ | ⟨-, grows⟩ | ⟨filled, -, -, grows⟩ :=
      iterate_cases kernel vars
    · rw [broken]
      exact Outcome.noConfusion
    · rw [grows]
      exact grown vars.lastlen
    · rw [grows]
      exact grown filled.length

/-- A list that is too long for two buffers makes `len` leave its type. -/
theorem sizing_leavesInt (small : ∀ record ∈ records, record.length ≤ 10 * sizeofIfreq)
    (long : longestList < records.flatten.length) :
    ∃ fuel, (sizing kernel.siocgifconf fuel .initial).2 = .leavesInt := by
  refine ⟨intMax, ?_⟩
  have enough : intMax < Sizing.initial.len + 10 * sizeofIfreq * intMax := by decide
  have goesOn := sizing_ne_next kernel enough (by decide)
  cases ended : (sizing kernel.siocgifconf intMax .initial).2 with
  | breaks buf =>
    have fits := ((Sizing.inv_initial records).sizing kernel small ended).2
    exact absurd long (Nat.not_lt.mpr fits)
  | next next => exact absurd ended (goesOn next)
  | leavesInt => rfl

end Loop

/-! ### Lists of any length -/

/-- A kernel that truncates the list without a word. -/
def truncating (records : List (List Byte)) : Kernel records where
  siocgifconf len := some (fitting records len).flatten
  fills _ _ answer := (Option.some.inj answer).symm
  refuses _ answer := absurd answer (Option.some_ne_none _)

/-- A kernel that refuses to truncate the list. -/
def refusing (records : List (List Byte)) : Kernel records where
  siocgifconf len := if records.flatten.length ≤ len then some records.flatten else none
  fills len filled answer := by
    split_ifs at answer with fits
    rw [fitting_of_le fits]
    exact (Option.some.inj answer).symm
  refuses len answer := by
    split_ifs at answer with fits
    exact Nat.lt_of_not_le fits

/-- So many records of the size of `struct ifreq`. -/
def alike (count : Nat) : List (List Byte) :=
  List.replicate count (List.replicate sizeofIfreq 0)

theorem alike_length (count : Nat) : ∀ record ∈ alike count, record.length = sizeofIfreq := by
  intro record member
  rw [List.eq_of_mem_replicate member, List.length_replicate]

theorem length_alike (count : Nat) : (alike count).flatten.length = count * sizeofIfreq := by
  rw [alike, List.flatten_replicate_replicate, List.length_replicate]

/-- What the loop breaks with is the whole list, whatever the kernel does with a list that does not
fit; and it breaks, after at most one iteration for every step that fits in the list and two more,
exactly when the list has room in two buffers. -/
theorem sizing_complete {records : List (List Byte)} (kernel : Kernel records)
    (small : ∀ record ∈ records, record.length ≤ 10 * sizeofIfreq) :
    (∀ fuel buf, (sizing kernel.siocgifconf fuel .initial).2 = .breaks buf →
      buf = records.flatten) ∧
    (records.flatten.length ≤ longestList → ∃ buf,
      (sizing kernel.siocgifconf (records.flatten.length / (10 * sizeofIfreq) + 2) .initial).2 =
        .breaks buf) ∧
    ((∃ fuel buf, (sizing kernel.siocgifconf fuel .initial).2 = .breaks buf) →
      records.flatten.length ≤ longestList) := by
  have inv := Sizing.inv_initial records
  refine ⟨fun fuel buf broken => (inv.sizing kernel small broken).1, fun short => ?_, ?_⟩
  · refine sizing_reaches kernel inv short (Or.inl rfl) ?_
    have parts := Nat.div_add_mod records.flatten.length (10 * sizeofIfreq)
    have rest := Nat.mod_lt records.flatten.length (show 10 * sizeofIfreq > 0 by decide)
    have first : 10 * sizeofIfreq ≤ Sizing.initial.len := by decide
    omega
  · rintro ⟨fuel, buf, broken⟩
    exact (inv.sizing kernel small broken).2

/-- A list of a hundred and one records is refused the first time. -/
theorem sizing_complete_refused :
    (∀ fuel buf, (sizing (refusing (alike 101)).siocgifconf fuel .initial).2 = .breaks buf →
      buf = (alike 101).flatten) ∧
    ((alike 101).flatten.length ≤ longestList → ∃ buf,
      (sizing (refusing (alike 101)).siocgifconf
        ((alike 101).flatten.length / (10 * sizeofIfreq) + 2) .initial).2 = .breaks buf) ∧
    ((∃ fuel buf, (sizing (refusing (alike 101)).siocgifconf fuel .initial).2 = .breaks buf) →
      (alike 101).flatten.length ≤ longestList) :=
  sizing_complete (refusing (alike 101)) fun record member =>
    (alike_length 101 record member).le.trans (by decide)

/-- A list that an `int` can count, but that leaves no room for a second buffer: the loop never
breaks. -/
theorem not_sizing_breaks :
    (∀ record ∈ alike 53687082, record.length ≤ 10 * sizeofIfreq) ∧
    (alike 53687082).flatten.length ≤ intMax ∧
    (∀ fuel buf, (sizing (truncating (alike 53687082)).siocgifconf fuel .initial).2 ≠
      .breaks buf) ∧
    ∃ fuel, (sizing (truncating (alike 53687082)).siocgifconf fuel .initial).2 = .leavesInt := by
  have small : ∀ record ∈ alike 53687082, record.length ≤ 10 * sizeofIfreq := by
    intro record member
    exact (alike_length _ record member).le.trans (by decide)
  have long : longestList < (alike 53687082).flatten.length := by
    rw [length_alike]
    decide
  refine ⟨small, ?_, fun fuel buf broken => ?_, sizing_leavesInt _ small long⟩
  · rw [length_alike]
    decide
  · have fits := ((Sizing.inv_initial _).sizing _ small broken).2
    exact absurd long (Nat.not_lt.mpr fits)

end SocketProgram.GetIfiInfo
