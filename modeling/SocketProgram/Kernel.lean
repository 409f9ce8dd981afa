/-
This file is the kernel as the programs of the repository see it: bytes, the
error numbers they compare `errno` with, and what one `read` or `write` can
return. A descriptor that is being read is the queue of what will arrive on it;
`read` hands over the data at the front of the queue in pieces of any size from
one byte to what was asked for, and never more than the data that stands before
the next end-of-file mark or error.
-/

import SocketProgram.Library.Memory

namespace SocketProgram

/-- A `char` of the source. -/
abbrev Byte := UInt8

/-- `'\n'`. -/
def newline : Byte := 10

/-- `MAXLINE` of `unp.h`. -/
def maxline : Nat := 4096

/-- The values of `errno` the programs tell apart. -/
inductive Errno
  | eintr
  | ewouldblock
  | other (code : Nat)
  deriving DecidableEq, Repr

/-! ### What one call returns -/

/-- What `read` did: it stored some bytes (none at end of file), or it failed. -/
inductive ReadOutcome
  | data (bytes : List Byte)
  | error (errno : Errno)
  deriving DecidableEq, Repr

namespace ReadOutcome

/-- The value `read` returns. -/
def value : ReadOutcome → Int
  | .data bytes => bytes.length
  | .error _ => -1

/-- The bytes `read` stored. -/
def bytes : ReadOutcome → List Byte
  | .data bytes => bytes
  | .error _ => []

/-- The value of `errno` after a failed `read`. -/
def errno? : ReadOutcome → Option Errno
  | .data _ => none
  | .error errno => some errno

/-- `read` stores no more than it was asked for. -/
def Fits (count : Nat) (outcome : ReadOutcome) : Prop :=
  outcome.bytes.length ≤ count

@[simp] theorem value_data (bytes : List Byte) : (data bytes).value = bytes.length := rfl
@[simp] theorem value_error (errno : Errno) : (error errno).value = -1 := rfl
@[simp] theorem bytes_data (bytes : List Byte) : (data bytes).bytes = bytes := rfl
@[simp] theorem bytes_error (errno : Errno) : (error errno).bytes = [] := rfl
@[simp] theorem errno?_data (bytes : List Byte) : (data bytes).errno? = none := rfl
@[simp] theorem errno?_error (errno : Errno) : (error errno).errno? = some errno := rfl

/-- What the value of a `read` says about it. -/
theorem eq_error_of_value_neg {outcome : ReadOutcome} (failed : outcome.value < 0) :
    ∃ errno, outcome = .error errno := by
  cases outcome with
  | data bytes => exact absurd failed (Int.not_lt.mpr (Int.natCast_nonneg _))
  | error errno => exact ⟨errno, rfl⟩

theorem eq_eof_of_value_eq_zero {outcome : ReadOutcome} (ended : outcome.value = 0) :
    outcome = .data [] := by
  cases outcome with
  | data bytes => rw [List.eq_nil_of_length_eq_zero (Int.natCast_eq_zero.mp ended)]
  | error errno => cases ended

theorem eq_data_of_value_pos {outcome : ReadOutcome} (failed : ¬ outcome.value < 0)
    (ended : ¬ outcome.value = 0) : ∃ bytes, outcome = .data bytes ∧ bytes ≠ [] := by
  cases outcome with
  | data bytes => exact ⟨bytes, rfl, fun nil => ended (by rw [nil]; rfl)⟩
  | error errno => exact absurd (Int.negSucc_lt_zero 0) failed

end ReadOutcome

/-- What `write` did: it took some of the bytes it was offered, or it failed. -/
inductive WriteOutcome
  | wrote (count : Nat)
  | error (errno : Errno)
  deriving DecidableEq, Repr

namespace WriteOutcome

/-- The value `write` returns. -/
def value : WriteOutcome → Int
  | .wrote count => count
  | .error _ => -1

/-- How many bytes `write` took. -/
def count : WriteOutcome → Nat
  | .wrote count => count
  | .error _ => 0

/-- The value of `errno` after a failed `write`. -/
def errno? : WriteOutcome → Option Errno
  | .wrote _ => none
  | .error errno => some errno

/-- `write` takes no more than it was offered. -/
def Fits (offered : Nat) (outcome : WriteOutcome) : Prop :=
  outcome.count ≤ offered

@[simp] theorem value_wrote (count : Nat) : (wrote count).value = count := rfl
@[simp] theorem value_error (errno : Errno) : (error errno).value = -1 := rfl
@[simp] theorem count_wrote (taken : Nat) : (wrote taken).count = taken := rfl
@[simp] theorem count_error (errno : Errno) : (error errno).count = 0 := rfl
@[simp] theorem errno?_wrote (count : Nat) : (wrote count).errno? = none := rfl
@[simp] theorem errno?_error (errno : Errno) : (error errno).errno? = some errno := rfl

/-- What the value of a `write` says about it. -/
theorem eq_error_of_value_neg {outcome : WriteOutcome} (failed : outcome.value < 0) :
    ∃ errno, outcome = .error errno := by
  cases outcome with
  | wrote count => exact absurd failed (Int.not_lt.mpr (Int.natCast_nonneg _))
  | error errno => exact ⟨errno, rfl⟩

theorem eq_wrote_of_value_nonneg {outcome : WriteOutcome} (failed : ¬ outcome.value < 0) :
    outcome = .wrote outcome.count := by
  cases outcome with
  | wrote count => rfl
  | error errno => exact absurd (Int.negSucc_lt_zero 0) failed

end WriteOutcome

/-! ### A descriptor that is being read -/

/-- What arrives on a descriptor: a byte of data, an end-of-file mark, or a failure (an
interrupted call is the failure `EINTR`). -/
inductive Arrival
  | byte (byte : Byte)
  | eof
  | fail (errno : Errno)
  deriving DecidableEq, Repr

/-- The data in front of the next mark or failure. -/
def leading : List Arrival → List Byte
  | .byte byte :: queue => byte :: leading queue
  | _ => []

/-- How much of the available data one `read` hands over, given the queue and the size asked
for. A run never meets the same queue twice with data at its front, so a function of the
queue describes every way of splitting the data. -/
abbrev Split := List Arrival → Nat → Nat

/-- `read(fd, buf, count)` on a descriptor with this queue: what it returns and the queue it
leaves. `none` when nothing has arrived and the call blocks. -/
def read (split : Split) (queue : List Arrival) (count : Nat) :
    Option (ReadOutcome × List Arrival) :=
  match queue with
  | [] => none
  | .eof :: rest => some (.data [], rest)
  | .fail errno :: rest => some (.error errno, rest)
  | .byte byte :: rest =>
    let available := leading (.byte byte :: rest)
    let size := min (max 1 (split (.byte byte :: rest) count)) (min count available.length)
    some (.data (available.take size), (Arrival.byte byte :: rest).drop size)

/-- The data in front of a queue is the queue's own front. -/
theorem leading_append_drop (queue : List Arrival) (size : Nat)
    (available : size ≤ (leading queue).length) :
    ((leading queue).take size).map Arrival.byte ++ queue.drop size = queue := by
  induction queue generalizing size with
  | nil => simp [leading]
  | cons arrival queue inductionHypothesis =>
    cases size with
    | zero => rfl
    | succ size =>
      cases arrival with
      | byte byte =>
        simp only [leading, List.length_cons, Nat.add_le_add_iff_right] at available
        simp only [leading, List.take_succ_cons, List.map_cons, List.cons_append,
          List.drop_succ_cons, inductionHypothesis size available]
      | eof => simp [leading] at available
      | fail errno => simp [leading] at available

/-- Reading data: some of it comes over, at most what was asked for, and it is the front of
the queue. -/
theorem read_byte (split : Split) (byte : Byte) (rest : List Arrival) (count : Nat)
    (positive : 0 < count) :
    ∃ bytes queue, read split (.byte byte :: rest) count = some (.data bytes, queue) ∧
      bytes ≠ [] ∧ bytes.length ≤ count ∧ bytes.map Arrival.byte ++ queue = .byte byte :: rest := by
  have nonempty : 0 < (leading (.byte byte :: rest)).length := by
    simp [leading]
  refine ⟨_, _, rfl, ?_, ?_, leading_append_drop _ _ ?_⟩
  · rw [← List.length_pos_iff, List.length_take]
    omega
  · rw [List.length_take]
    omega
  · omega

/-- A single byte is read off the front. -/
theorem read_one (split : Split) (byte : Byte) (rest : List Arrival) :
    read split (.byte byte :: rest) 1 = some (.data [byte], rest) := by
  have size : min (max 1 (split (.byte byte :: rest) 1))
      (min 1 (leading (.byte byte :: rest)).length) = 1 := by
    simp only [leading, List.length_cons]
    omega
  simp only [read, size]
  rfl

/-- Every `read` that returns has taken something off the queue. -/
theorem length_lt_of_read {split : Split} {queue rest : List Arrival} {count : Nat}
    {outcome : ReadOutcome} (positive : 0 < count)
    (returned : read split queue count = some (outcome, rest)) :
    rest.length < queue.length := by
  cases queue with
  | nil => cases returned
  | cons arrival queue =>
    cases arrival with
    | byte byte =>
      obtain ⟨bytes, left, reads, nonempty, _, split'⟩ :=
        read_byte split byte queue count positive
      rw [reads] at returned
      obtain ⟨rfl, rfl⟩ := Prod.mk.inj (Option.some.inj returned)
      have lengths := congrArg List.length split'
      have some' := List.length_pos_iff.mpr nonempty
      rw [List.length_append, List.length_map] at lengths
      omega
    | eof =>
      obtain ⟨_, rfl⟩ := Prod.mk.inj (Option.some.inj returned)
      exact Nat.lt_succ_self _
    | fail errno =>
      obtain ⟨_, rfl⟩ := Prod.mk.inj (Option.some.inj returned)
      exact Nat.lt_succ_self _

/-! ### A reliable byte channel -/

/-- What `write` to an open channel does: it queues some of the bytes it is offered, from one
to all of them, or is interrupted. -/
inductive ChannelWrite (offered channel : List Byte) : WriteOutcome → List Byte → Prop
  | wrote (count : Nat) (positive : 0 < count) (fits : count ≤ offered.length) :
      ChannelWrite offered channel (.wrote count) (channel ++ offered.take count)
  | interrupted : ChannelWrite offered channel (.error .eintr) channel

/-- What `read` from a channel does: it takes some of the bytes that are queued, from one to
what was asked for, reports the end when the channel is empty and closed, or is
interrupted. -/
inductive ChannelRead (size : Nat) (closed : Bool) :
    List Byte → ReadOutcome → List Byte → Prop
  | data (bytes rest : List Byte) (nonempty : bytes ≠ []) (fits : bytes.length ≤ size) :
      ChannelRead size closed (bytes ++ rest) (.data bytes) rest
  | eof (ended : closed = true) : ChannelRead size closed [] (.data []) []
  | interrupted (channel : List Byte) :
      ChannelRead size closed channel (.error .eintr) channel

end SocketProgram
