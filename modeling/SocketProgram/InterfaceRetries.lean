/-
This file is about the first loop of `get_ifi_info` when `SIOCGIFCONF` fails. The branch for an
error tells `EINVAL` at the beginning, which says that the buffer is too small, from every other
error; but all it does in the other case is to print a line. What follows is the same in both
cases: a larger buffer, and another call.

So there is one way out of the loop, and it needs a call that succeeds: the first one that fills
in as much as the last successful call before it. The variables of the loop depend on the answers
alone, and this way out can be read off them.
-/

import Mathlib.Data.Nat.Find
import SocketProgram.InterfaceSizing
import SocketProgram.Library.Source

namespace SocketProgram.GetIfiInfo

open Source

/-! ### The loop -/

/-- What `ioctl(sockfd,SIOCGIFCONF,&ifc)` did: it filled in these bytes, where `ifc_len` is the
length of them, or it failed. -/
inductive Answer
  | filled (bytes : List Byte)
  | failed (errno : Errno)
  deriving DecidableEq, Repr

/-- `EINVAL`. -/
def einval : Errno := .other 22

/-- The variables of the loop, with `len` as the `int` it is, and what has been printed. -/
structure Retries where
  lastlen : Nat
  len : BitVec 32
  stdout : List String
  deriving DecidableEq, Repr

/-- The variables before the first iteration. -/
def Retries.initial : Retries := ⟨0, BitVec.ofNat 32 (100 * sizeofIfreq), []⟩

/-- `len += 10 *sizeof(struct ifreq)`, converted back to an `int`. -/
def Retries.grow (vars : Retries) : Retries :=
  { vars with len := vars.len + BitVec.ofNat 32 (10 * sizeofIfreq) }

/-- `printf(text)`. -/
def Retries.printf (vars : Retries) (text : String) : Retries :=
  { vars with stdout := vars.stdout ++ [text] }

/-- The body of the first `for(;;)` from the `ioctl` on. -/
def retryBody (answer : Answer) (vars : Retries) : List Byte ⊕ Retries :=
  match answer with
  | .failed errno =>
    if errno ≠ einval ∨ vars.lastlen ≠ 0 then .inr (vars.printf "ioctl error\n").grow
    else .inr vars.grow
  | .filled bytes =>
    if bytes.length = vars.lastlen then .inl bytes
    else .inr { vars with lastlen := bytes.length }.grow

/-- The loop, which returns with what is in `buf` at the `break`. It has no test. -/
def retries : Text Answer Retries (List Byte) where
  more _ := true
  finish _ := []
  body := retryBody

/-- The loop is left, whatever follows in the stream of the answers. -/
def Leaves (answers : Nat → Answer) : Prop :=
  ∃ count taken buf, retries.after answers .initial count = (taken, .inl buf)

/-! ### The loop and its iterations -/

/-- The answer of a kernel that fails with `EINVAL` alone. -/
def Answer.ofOption : Option (List Byte) → Answer
  | some bytes => .filled bytes
  | none => .failed einval

/-- The variables as mathematical integers. -/
def Retries.sizing (vars : Retries) : Sizing := ⟨vars.lastlen, vars.len.toNat⟩

theorem sizing_grow (vars : Retries) (room : vars.len.toNat + 10 * sizeofIfreq ≤ intMax) :
    vars.sizing.grow = .next vars.grow.sizing := by
  have sum : (vars.len + BitVec.ofNat 32 (10 * sizeofIfreq)).toNat =
      vars.len.toNat + 10 * sizeofIfreq := by
    unfold sizeofIfreq intMax at *
    rw [BitVec.toNat_add, BitVec.toNat_ofNat]
    omega
  refine (if_pos room).trans ?_
  exact congrArg (fun len => Outcome.next ⟨vars.lastlen, len⟩) sum.symm

/-- While `len` fits, an iteration against a kernel that fails with `EINVAL` alone is one of the
loop. -/
theorem iterate_eq_retryBody (siocgifconf : Siocgifconf) {vars : Retries}
    (room : vars.len.toNat + 10 * sizeofIfreq ≤ intMax) :
    (iterate siocgifconf vars.sizing).2 =
      (retryBody (.ofOption (siocgifconf vars.len.toNat)) vars).elim .breaks
        fun next => .next next.sizing := by
  have len : vars.sizing.len = vars.len.toNat := rfl
  have lastlen : vars.sizing.lastlen = vars.lastlen := rfl
  cases answered : siocgifconf vars.len.toNat with
  | none =>
    have grown := sizing_grow vars room
    simp only [iterate, len, lastlen, answered, Answer.ofOption, retryBody]
    by_cases first : vars.lastlen = 0
    · rw [if_neg (not_not_intro first), if_neg (not_or_intro (not_not_intro rfl)
        (not_not_intro first))]
      exact grown
    · rw [if_pos first, if_pos (.inr first)]
      exact grown
  | some filled =>
    have grown := sizing_grow { vars with lastlen := filled.length } room
    simp only [iterate, len, lastlen, answered, Answer.ofOption, retryBody]
    by_cases same : filled.length = vars.lastlen
    · rw [if_pos same, if_pos same]
      rfl
    · rw [if_neg same, if_neg same]
      exact grown

/-! ### The way out -/

/-- How much the last successful call before this one has filled in, and 0 before the first. -/
def lastLength (answers : Nat → Answer) : Nat → Nat
  | 0 => 0
  | count + 1 =>
    match answers count with
    | .filled bytes => bytes.length
    | .failed _ => lastLength answers count

/-- A call succeeds and fills in as much as the last successful one before it. -/
def Repeats (answers : Nat → Answer) (count : Nat) : Prop :=
  ∃ bytes, answers count = .filled bytes ∧ bytes.length = lastLength answers count

section Answers

variable {answers : Nat → Answer}

/-- An answer that repeats nothing takes the loop on, with its length in `lastlen` if it has
one. -/
theorem retryBody_next {count : Nat} {vars : Retries}
    (lastlen : vars.lastlen = lastLength answers count) (new : ¬ Repeats answers count) :
    ∃ next, retries.round (answers count) vars = .inr next ∧
      next.lastlen = lastLength answers (count + 1) := by
  rw [lastLength]
  cases answer : answers count with
  | filled bytes =>
    have other : bytes.length ≠ vars.lastlen := fun same =>
      new ⟨bytes, answer, same.trans lastlen⟩
    have body : retries.body (.filled bytes) vars =
        .inr { vars with lastlen := bytes.length }.grow := if_neg other
    exact ⟨_, Text.round_next body, rfl⟩
  | failed errno =>
    by_cases told : errno ≠ einval ∨ vars.lastlen ≠ 0
    · have body : retries.body (.failed errno) vars = .inr (vars.printf "ioctl error\n").grow :=
        if_pos told
      exact ⟨_, Text.round_next body, lastlen⟩
    · have body : retries.body (.failed errno) vars = .inr vars.grow := if_neg told
      exact ⟨_, Text.round_next body, lastlen⟩

/-- The loop goes on until an answer repeats the one before it. -/
theorem after_of_new (count : Nat) (new : ∀ earlier < count, ¬ Repeats answers earlier) :
    ∃ taken vars, retries.after answers .initial count = (taken, .inr vars) ∧
      vars.lastlen = lastLength answers count := by
  induction count with
  | zero => exact ⟨[], .initial, rfl, rfl⟩
  | succ count inductionHypothesis =>
    obtain ⟨taken, vars, waits, lastlen⟩ :=
      inductionHypothesis fun earlier before => new earlier (Nat.lt_succ_of_lt before)
    obtain ⟨next, round, lastlen'⟩ := retryBody_next lastlen (new count (Nat.lt_succ_self count))
    exact ⟨_, next, (Text.after_round waits).trans (congrArg _ round), lastlen'⟩

/-- The loop is left just if some answer repeats the one before it. -/
theorem leaves_iff_repeats : Leaves answers ↔ ∃ count, Repeats answers count := by
  constructor
  · rintro ⟨count, taken, buf, left⟩
    by_contra none
    obtain ⟨taken', vars, waits, -⟩ :=
      after_of_new count fun earlier _ repeats => none ⟨earlier, repeats⟩
    cases (congrArg Prod.snd left).symm.trans (congrArg Prod.snd waits)
  · intro repeated
    classical
    obtain ⟨bytes, answer, same⟩ := Nat.find_spec repeated
    obtain ⟨taken, vars, waits, lastlen⟩ :=
      after_of_new (Nat.find repeated) fun earlier before => Nat.find_min repeated before
    have body : retries.body (.filled bytes) vars = .inl bytes := if_pos (same.trans lastlen.symm)
    have round := Text.after_round waits
    rw [answer, Text.round_return body] at round
    exact ⟨_, _, bytes, round⟩

end Answers

/-! ### The law -/

/-- `SIOCGIFCONF` fails from this call on, with some `errno` other than `EINVAL` each time. -/
def FailsFrom (answers : Nat → Answer) (first : Nat) : Prop :=
  ∀ count, first ≤ count → ∃ errno, errno ≠ einval ∧ answers count = .failed errno

/-- When `SIOCGIFCONF` fails for good, the loop is left exactly if, before that, a call has
succeeded and filled in as much as the last successful one before it. -/
theorem sizing_leaves_iff {answers : Nat → Answer} {first : Nat} (fails : FailsFrom answers first) :
    Leaves answers ↔ ∃ count < first, Repeats answers count := by
  rw [leaves_iff_repeats]
  constructor
  · rintro ⟨count, bytes, answer, same⟩
    refine ⟨count, Nat.lt_of_not_le fun late => ?_, bytes, answer, same⟩
    obtain ⟨errno, -, failed⟩ := fails count late
    cases answer.symm.trans failed
  · rintro ⟨count, -, repeats⟩
    exact ⟨count, repeats⟩

/-- Two calls that fill in the same record, and no call after that succeeds. -/
def oneRecord : Nat → Answer
  | 0 => .filled (List.replicate sizeofIfreq 0)
  | 1 => .filled (List.replicate sizeofIfreq 0)
  | _ + 2 => .failed (.other 1)

theorem sizing_leaves_iff_oneRecord : Leaves oneRecord := by
  have fails : FailsFrom oneRecord 2 := by
    intro count late
    obtain ⟨more, rfl⟩ := Nat.exists_eq_add_of_le' late
    exact ⟨.other 1, by decide, rfl⟩
  exact (sizing_leaves_iff fails).mpr ⟨1, by decide, _, rfl, rfl⟩

/-- A call that is not permitted is made for ever. -/
theorem not_sizing_leaves :
    ¬ ∀ answers, (∃ first, FailsFrom answers first) → Leaves answers := by
  intro leaves
  have fails : FailsFrom (fun _ => .failed (.other 1)) 0 := fun _ _ => ⟨.other 1, by decide, rfl⟩
  obtain ⟨count, bytes, answer, -⟩ := leaves_iff_repeats.mp (leaves _ ⟨0, fails⟩)
  cases answer

end SocketProgram.GetIfiInfo
