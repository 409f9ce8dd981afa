/-
This file is about what a call of `written` hands over. Each `write` is offered the buffer from
`ptr` on, so a call hands the buffer over once and in order if `ptr` is always behind the bytes
that have been accepted, and nowhere else. An interrupted `write` is made into one that has
accepted nothing; a `write` that really accepts nothing ends the call.

With every `write` that is not interrupted the call either ends or has less left, so it returns
as soon as `write` is no longer interrupted.
-/

import Mathlib.Data.Set.Finite.Lattice
import SocketProgram.Library.Runs
import SocketProgram.Transfer

namespace SocketProgram

open Source

/-! ### What a call returns -/

/-- `SSIZE_MAX`. -/
def ssizeMax : Nat := 2 ^ 63 - 1

/-- The value of `written` as its caller gets it, converted to `ssize_t`. -/
def ssize (value : Int) : Int := (BitVec.ofInt 64 value).toInt

theorem ssize_natCast {n : Nat} (fits : n ≤ ssizeMax) : ssize n = n := by
  refine BitVec.toInt_ofInt_eq_self (by decide) ?_ ?_
  · show -2 ^ 63 ≤ (n : Int)
    omega
  · show (n : Int) < 2 ^ 63
    unfold ssizeMax at fits
    omega

theorem ssize_neg_one : ssize (-1) = -1 := by decide

/-! ### What a call hands over -/

/-- The bytes that have been accepted in these writes of a buffer. -/
def accepted (vptr : List Byte) (writes : List (WrittenFrame × WriteOutcome)) : List Byte :=
  writes.flatMap fun write => (write.1.offered vptr).take write.2.count

theorem accepted_append (vptr : List Byte) (first second : List (WrittenFrame × WriteOutcome)) :
    accepted vptr (first ++ second) = accepted vptr first ++ accepted vptr second :=
  List.flatMap_append

theorem accepted_singleton (vptr : List Byte) (frame : WrittenFrame) (outcome : WriteOutcome) :
    accepted vptr [(frame, outcome)] = (frame.offered vptr).take outcome.count :=
  List.flatMap_singleton _ _

/-- Every `write` is offered what the ones before it have left of the buffer, all of it and
nothing behind it. -/
def InOrder (vptr : List Byte) (writes : List (WrittenFrame × WriteOutcome)) : Prop :=
  ∀ before frame outcome after, writes = before ++ (frame, outcome) :: after →
    accepted vptr before ++ frame.offered vptr = vptr ∧ frame.ptr + frame.nleft = vptr.length

/-- The outcomes that end a call: a `write` that accepts nothing, and an error that is
no interruption. -/
def WriteOutcome.Fails (outcome : WriteOutcome) : Prop :=
  outcome.count = 0 ∧ outcome ≠ .error .eintr

instance (outcome : WriteOutcome) : Decidable outcome.Fails :=
  inferInstanceAs (Decidable (_ ∧ _))

/-- The last `write` of a call has failed. -/
def EndsFailing (writes : List (WrittenFrame × WriteOutcome)) : Prop :=
  ∃ before frame outcome, writes = before ++ [(frame, outcome)] ∧ outcome.Fails

/-- A call that has made these writes of a buffer and has returned this value has handed it over
once and in order, and returns something else only because a `write` has failed. -/
structure HandsOver (vptr : List Byte) (writes : List (WrittenFrame × WriteOutcome))
    (value : Int) : Prop where
  all : value = vptr.length ↔ accepted vptr writes = vptr
  failed : value ≠ vptr.length →
    value = -1 ∧ accepted vptr writes <+: vptr ∧ accepted vptr writes ≠ vptr ∧ EndsFailing writes
  inOrder : InOrder vptr writes

/-! ### The loop -/

theorem written_round_fails (n : Nat) (frame : WrittenFrame) {outcome : WriteOutcome}
    (fails : outcome.Fails) : (written n).round outcome frame = .inl (-1) := by
  obtain ⟨nothing, hard⟩ := fails
  have body : (written n).body outcome frame = .inl (-1) := by
    cases outcome with
    | wrote count =>
      obtain rfl : count = 0 := nothing
      rfl
    | error errno =>
      have notInterrupted : ¬ ((-1 : Int) < 0 ∧ some errno = some .eintr) :=
        fun interrupted => hard (congrArg _ (Option.some.inj interrupted.2))
      rw [written]
      dsimp only
      rw [WriteOutcome.value_error, if_pos (by decide)]
      exact if_neg notInterrupted
  exact Text.round_return body

/-- An outcome ends the call, is an interruption, or accepts bytes. -/
theorem WriteOutcome.cases_fails (outcome : WriteOutcome) :
    outcome.Fails ∨ outcome = .error .eintr ∨ ∃ count, 0 < count ∧ outcome = .wrote count := by
  cases outcome with
  | wrote count =>
    rcases Nat.eq_zero_or_pos count with rfl | positive
    · exact .inl (by decide)
    · exact .inr (.inr ⟨count, positive, rfl⟩)
  | error errno =>
    by_cases interrupted : errno = .eintr
    · exact .inr (.inl (by rw [interrupted]))
    · exact .inl ⟨rfl, fun same => interrupted (WriteOutcome.error.inj same)⟩

/-- What holds of a call that has made these writes of a buffer, wherever it is. -/
structure Handing (vptr : List Byte) (writes : List (WrittenFrame × WriteOutcome))
    (progress : Int ⊕ WrittenFrame) : Prop where
  inOrder : InOrder vptr writes
  waiting : ∀ frame, progress = .inr frame →
    accepted vptr writes = vptr.take frame.ptr ∧ frame.ptr + frame.nleft = vptr.length ∧
      0 < frame.nleft
  returned : ∀ value, progress = .inl value →
    (value = vptr.length ∧ accepted vptr writes = vptr) ∨
      (value = -1 ∧ accepted vptr writes <+: vptr ∧ accepted vptr writes ≠ vptr ∧
        EndsFailing writes)

theorem inOrder_nil (vptr : List Byte) : InOrder vptr [] := by
  intro before frame outcome after split
  exact absurd split.symm (List.append_ne_nil_of_right_ne_nil _ (List.cons_ne_nil _ _))

section Loop

variable {vptr : List Byte} {writes : List (WrittenFrame × WriteOutcome)} {frame : WrittenFrame}

/-- One more `write` that is offered the rest. -/
theorem InOrder.append (inOrder : InOrder vptr writes)
    (rest : accepted vptr writes = vptr.take frame.ptr)
    (inside : frame.ptr + frame.nleft = vptr.length) (outcome : WriteOutcome) :
    InOrder vptr (writes ++ [(frame, outcome)]) := by
  intro before frame' outcome' after split
  rcases Runs.place_concat split with ⟨rfl, same, -⟩ | ⟨earlier, front⟩
  · obtain ⟨rfl, rfl⟩ := Prod.mk.inj same
    refine ⟨?_, inside⟩
    rw [rest, offered_eq_drop inside, List.take_append_drop]
  · exact inOrder before frame' outcome' earlier front

/-- At the test of the loop the call goes on, or returns with everything accepted. -/
theorem handing_test (inOrder : InOrder vptr writes)
    (rest : accepted vptr writes = vptr.take frame.ptr)
    (inside : frame.ptr + frame.nleft = vptr.length) :
    Handing vptr writes ((written vptr.length).test frame) := by
  by_cases left : 0 < frame.nleft
  · rw [Text.test_more (decide_eq_true left)]
    refine ⟨inOrder, ?_, ?_⟩
    · rintro _ ⟨⟩
      exact ⟨rest, inside, left⟩
    · rintro _ ⟨⟩
  · rw [Text.test_over (decide_eq_false left)]
    refine ⟨inOrder, ?_, ?_⟩
    · rintro _ ⟨⟩
    · rintro _ ⟨⟩
      exact .inl ⟨rfl, rest.trans (List.take_of_length_le (by omega))⟩

/-- One `write` keeps what holds of the call. -/
theorem Handing.round (handing : Handing vptr writes (.inr frame)) {outcome : WriteOutcome}
    (fits : outcome.Fits frame.nleft) :
    Handing vptr (writes ++ [(frame, outcome)])
      ((written vptr.length).round outcome frame) := by
  obtain ⟨rest, inside, left⟩ := handing.waiting frame rfl
  have inOrder := handing.inOrder.append rest inside outcome
  have bytes : accepted vptr (writes ++ [(frame, outcome)]) =
      vptr.take (frame.ptr + outcome.count) := by
    rw [accepted_append, accepted_singleton, rest, offered_eq_drop inside, List.take_add]
  rcases outcome.cases_fails with fails | rfl | ⟨count, positive, rfl⟩
  · rw [written_round_fails _ frame fails]
    rw [fails.1, Nat.add_zero] at bytes
    refine ⟨inOrder, ?_, ?_⟩
    · rintro _ ⟨⟩
    · rintro _ ⟨⟩
      refine .inr ⟨rfl, bytes ▸ List.take_prefix _ _, fun same => ?_, _, _, _, rfl, fails⟩
      have lengths := congrArg List.length (bytes.symm.trans same)
      rw [List.length_take] at lengths
      omega
  · have body : (written vptr.length).body (.error .eintr) frame = .inr (frame.advance 0) := rfl
    rw [Text.round_next body]
    exact handing_test inOrder bytes inside
  · have room : count ≤ frame.nleft := fits
    rw [Text.round_next (written_body_wrote _ frame positive)]
    refine handing_test inOrder bytes ?_
    show frame.ptr + count + (frame.nleft - count) = vptr.length
    omega

/-- The test of the loop leaves the call where it is. -/
theorem nleft_of_test {n : Nat} {next : WrittenFrame}
    (goes : (written n).test frame = .inr next) : next.nleft = frame.nleft := by
  by_cases left : 0 < frame.nleft
  · rw [Text.test_more (decide_eq_true left)] at goes
    rw [Sum.inr.inj goes]
  · rw [Text.test_over (decide_eq_false left)] at goes
    cases goes

/-- A `write` that is not interrupted leaves less, if the call goes on at all. -/
theorem nleft_lt_of_round {n : Nat} {next : WrittenFrame} {outcome : WriteOutcome}
    (notInterrupted : outcome ≠ .error .eintr)
    (round : (written n).round outcome frame = .inr next) : next.nleft < frame.nleft := by
  rcases outcome.cases_fails with fails | interrupted | ⟨count, positive, rfl⟩
  · rw [written_round_fails n frame fails] at round
    cases round
  · exact absurd interrupted notInterrupted
  · rw [Text.round_next (written_body_wrote n frame positive)] at round
    by_cases left : 0 < (frame.advance count).nleft
    · rw [Text.test_more (decide_eq_true left)] at round
      rw [← Sum.inr.inj round]
      have some' : 0 < frame.nleft - count := left
      show frame.nleft - count < frame.nleft
      omega
    · rw [Text.test_over (decide_eq_false left)] at round
      cases round

/-- A `write` leaves no more than there was. -/
theorem nleft_le_of_round {n : Nat} {next : WrittenFrame} {outcome : WriteOutcome}
    (round : (written n).round outcome frame = .inr next) : next.nleft ≤ frame.nleft := by
  by_cases interrupted : outcome = .error .eintr
  · subst interrupted
    have body : (written n).body (.error .eintr) frame = .inr (frame.advance 0) := rfl
    rw [Text.round_next body] at round
    exact (nleft_of_test round).le
  · exact (nleft_lt_of_round interrupted round).le

end Loop

/-! ### The law -/

/-- The outcomes fit the requests they answer. -/
def Answers (outcomes : Nat → WriteOutcome) (n : Nat) : Prop :=
  ∀ count writes frame, (written n).after outcomes (.enter n) count = (writes, .inr frame) →
    (outcomes count).Fits frame.nleft

theorem handing_after {vptr : List Byte} {outcomes : Nat → WriteOutcome}
    (answers : Answers outcomes vptr.length) (count : Nat) :
    Handing vptr ((written vptr.length).after outcomes (.enter vptr.length) count).1
      ((written vptr.length).after outcomes (.enter vptr.length) count).2 := by
  refine Text.after_invariant (Handing vptr) ?_ ?_ count
  · exact handing_test (inOrder_nil vptr) (List.take_zero).symm (Nat.zero_add _)
  · intro count writes frame waits handing
    exact handing.round (answers count writes frame waits)

/-- `written` of a buffer of at most `SSIZE_MAX` bytes, whatever `write` does as long as it is not
interrupted for ever: the call returns, with `n` if and only if all bytes have been accepted and
with -1 otherwise, after a `write` that has failed, and each of its writes was offered exactly the
bytes that had not been accepted before. -/
theorem written_handsOver (vptr : List Byte) (size : vptr.length ≤ ssizeMax)
    (outcomes : Nat → WriteOutcome) (answers : Answers outcomes vptr.length)
    (finitely : {count | outcomes count = .error .eintr}.Finite) :
    ∃ count writes value,
      (written vptr.length).after outcomes (.enter vptr.length) count = (writes, .inl value) ∧
        HandsOver vptr writes (ssize value) := by
  obtain ⟨last, bound⟩ := finitely.bddAbove
  have nearer : ∀ count, last + 1 ≤ count → ∀ waiting next,
      (written vptr.length).round (outcomes count) waiting = .inr next →
      next.nleft < waiting.nleft := by
    intro count late waiting next round
    refine nleft_lt_of_round (fun interrupted => ?_) round
    exact absurd (bound interrupted) (by omega)
  obtain ⟨count, writes, value, returns⟩ :=
    Text.returns_of_nearer WrittenFrame.nleft (last + 1) nearer
  refine ⟨count, writes, value, returns, ?_⟩
  have handing := handing_after answers count
  rw [returns] at handing
  rcases handing.returned value rfl with ⟨rfl, everything⟩ | ⟨rfl, part, proper, failing⟩
  · rw [ssize_natCast size]
    exact ⟨⟨fun _ => everything, fun _ => rfl⟩, fun wrong => absurd rfl wrong, handing.inOrder⟩
  · rw [ssize_neg_one]
    refine ⟨⟨fun same => ?_, fun same => absurd same proper⟩,
      fun _ => ⟨rfl, part, proper, failing⟩, handing.inOrder⟩
    exact absurd same (by omega)

/-- A `write` that is interrupted once and then accepts a byte at a time. -/
def interruptedOnce : Nat → WriteOutcome
  | 0 => .error .eintr
  | _ + 1 => .wrote 1

/-- Two bytes, written after an interruption. -/
theorem written_handsOver_interrupted :
    ∃ count writes value,
      (written 2).after interruptedOnce (.enter 2) count = (writes, .inl value) ∧
        HandsOver [104, 105] writes (ssize value) := by
  refine written_handsOver [104, 105] (by decide) interruptedOnce ?_ ?_
  · intro count writes frame waits
    have left : 0 < frame.nleft := of_decide_eq_true (Text.more_of_after waits)
    cases count with
    | zero => exact Nat.zero_le _
    | succ count => exact left
  · refine (Set.finite_singleton 0).subset fun count interrupted => ?_
    cases count with
    | zero => rfl
    | succ count => cases interrupted

end SocketProgram
