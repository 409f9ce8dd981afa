/-
This file models `connect_nonb`, which makes a descriptor nonblocking, starts to connect it, and
waits in `select` for the outcome. There is one way out for each thing that can happen. Those that
go to `done` put the file status flags back as they were; the timeout closes the descriptor; and
those in between, where `connect` fails at once or `getsockopt` does, return at once.

What `select` returns is compared with 0 only. When it fails, the sets are as they were passed,
with the descriptor in them, and when it succeeds without the descriptor in them, a line is
printed; both times the function goes on as if the descriptor were ready.
-/

import Mathlib.Data.BitVec
import SocketProgram.Kernel

namespace SocketProgram.ConnectNonb

/-! ### What the calls do -/

/-- `O_NONBLOCK`. -/
def oNonblock : BitVec 32 := 0x800#32

/-- `EINPROGRESS`. -/
def einprogress : Int := 115

/-- `ETIMEDOUT`. -/
def etimedout : Int := 110

/-- What `connect` did: it has connected the socket, or failed with this `errno`. -/
inductive ConnectOutcome
  | connected
  | failed (errno : Int)
  deriving DecidableEq, Repr

/-- What `select` did: nothing has happened in time, or so many more descriptors than one are ready
and the two sets contain the socket or not, or it failed with this `errno`. -/
inductive SelectOutcome
  | timeout
  | ready (more : Nat) (rset wset : Bool)
  | failed (errno : Int)
  deriving DecidableEq, Repr

/-- What `getsockopt` did: it has stored this error of the socket, or failed with this `errno`. -/
inductive SockoptOutcome
  | stored (error : Int)
  | failed (errno : Int)
  deriving DecidableEq, Repr

namespace ConnectOutcome

/-- The value `connect` returns. -/
def value : ConnectOutcome → Int
  | .connected => 0
  | .failed _ => -1

/-- The value of `errno` after a failed `connect`. -/
def errno? : ConnectOutcome → Option Int
  | .connected => none
  | .failed errno => some errno

end ConnectOutcome

namespace SelectOutcome

/-- The value `select` returns. -/
def value : SelectOutcome → Int
  | .timeout => 0
  | .ready more _ _ => more + 1
  | .failed _ => -1

/-- The value of `errno` after a failed `select`. -/
def errno? : SelectOutcome → Option Int
  | .failed errno => some errno
  | .timeout | .ready _ _ _ => none

/-- `FD_ISSET(sockfd,&rset)`. A call that fails leaves the set as it was passed. -/
def inRset : SelectOutcome → Bool
  | .timeout => false
  | .ready _ rset _ => rset
  | .failed _ => true

/-- `FD_ISSET(sockfd,&wset)`. -/
def inWset : SelectOutcome → Bool
  | .timeout => false
  | .ready _ _ wset => wset
  | .failed _ => true

end SelectOutcome

namespace SockoptOutcome

/-- The value `getsockopt` returns. -/
def value : SockoptOutcome → Int
  | .stored _ => 0
  | .failed _ => -1

/-- The value of `errno` after a failed `getsockopt`. -/
def errno? : SockoptOutcome → Option Int
  | .stored _ => none
  | .failed errno => some errno

/-- What is in `error` afterwards, which was 0. -/
def error : SockoptOutcome → Int
  | .stored error => error
  | .failed _ => 0

end SockoptOutcome

/-- The answers to the three calls. `select` is called with a timeout, or without one. -/
structure Answers where
  connect : ConnectOutcome
  select : Option Int → SelectOutcome
  getsockopt : SockoptOutcome

/-! ### The function -/

/-- What the function changes: the file status flags of the descriptor, whether it is closed,
`errno`, and what has been printed. -/
structure Process where
  flags : BitVec 32
  closed : Bool
  errno : Int
  stdout : List String
  deriving DecidableEq, Repr

namespace Process

/-- `fcntl(sockfd,F_SETFL,flags)`. -/
def setfl (process : Process) (flags : BitVec 32) : Process :=
  { process with flags := flags }

/-- A call has returned, which sets `errno` if it has failed. -/
def called (process : Process) (errno? : Option Int) : Process :=
  { process with errno := errno?.getD process.errno }

/-- `close(sockfd); errno=error; return -1;`. -/
def abandon (process : Process) (error : Int) : Int × Process :=
  (-1, { process with closed := true, errno := error })

/-- `printf(text)`. -/
def printf (process : Process) (text : String) : Process :=
  { process with stdout := process.stdout ++ [text] }

/-- From the label `done` on. -/
def done (process : Process) (flags : BitVec 32) (error : Int) : Int × Process :=
  if error ≠ 0 then (process.setfl flags).abandon error else (0, process.setfl flags)

end Process

/-- `nsec?&tval:NULL`. -/
def timeout (nsec : Int) : Option Int := if nsec ≠ 0 then some nsec else none

/-- After `select` has returned something else than 0, up to the label `done`. -/
def selected (select : SelectOutcome) (getsockopt : SockoptOutcome) (flags : BitVec 32)
    (process : Process) : Int × Process :=
  if select.inRset = true ∨ select.inWset = true then
    let process := process.called getsockopt.errno?
    if getsockopt.value < 0 then (-1, process) else process.done flags getsockopt.error
  else (process.printf "select error: socket not set\n").done flags 0

/-- `connect_nonb(sockfd,saptr,salen,nsec)`. -/
def connectNonb (answers : Answers) (nsec : Int) (process : Process) : Int × Process :=
  let flags := process.flags
  let process := (process.setfl (flags ||| oNonblock)).called answers.connect.errno?
  if answers.connect.value < 0 ∧ process.errno ≠ einprogress then (-1, process)
  else if answers.connect.value = 0 then process.done flags 0
  else
    let select := answers.select (timeout nsec)
    let process := process.called select.errno?
    if select.value = 0 then process.abandon etimedout
    else selected select answers.getsockopt flags process

/-! ### The law -/

/-- The connection is established: `connect` has returned 0, or it is in progress, `select` has
reported the socket ready and `SO_ERROR` is 0. -/
def Established (answers : Answers) (nsec : Int) : Prop :=
  answers.connect.value = 0 ∨
    answers.connect = .failed einprogress ∧ 0 < (answers.select (timeout nsec)).value ∧
      ((answers.select (timeout nsec)).inRset = true ∨
        (answers.select (timeout nsec)).inWset = true) ∧
      answers.getsockopt = .stored 0

/-- The process at the call, with these file status flags and this `errno`. -/
def Process.entered (flags : BitVec 32) (errno : Int) : Process := ⟨flags, false, errno, []⟩

/-- What a return owes the caller of a function that was entered with these flags: it is with 0
only when the connection is established, and the descriptor is closed or its flags are as they
were. -/
structure Owed (answers : Answers) (nsec : Int) (flags : BitVec 32)
    (returned : Int × Process) : Prop where
  established : returned.1 = 0 → Established answers nsec
  restored : returned.2.closed = true ∨ returned.2.flags = flags

/-- The flags have `O_NONBLOCK` already. -/
def Nonblocking (flags : BitVec 32) : Prop := flags ||| oNonblock = flags

/-- The outcomes the function is up to: where it returns at once after a call that fails, the
descriptor was nonblocking before; and `select` does not fail with no error of the socket to be
found, and does not return without the socket in a set. -/
structure Handled (answers : Answers) (nsec : Int) (flags : BitVec 32) : Prop where
  refused : ∀ errno, answers.connect = .failed errno → errno ≠ einprogress → Nonblocking flags
  unasked : ∀ errno, answers.connect = .failed einprogress →
    (answers.select (timeout nsec)).inRset = true ∨ (answers.select (timeout nsec)).inWset = true →
    answers.getsockopt = .failed errno → Nonblocking flags
  pending : ∀ errno, answers.connect = .failed einprogress →
    answers.select (timeout nsec) = .failed errno → answers.getsockopt ≠ .stored 0
  unset : ∀ more, answers.connect = .failed einprogress →
    answers.select (timeout nsec) ≠ .ready more false false

/-! ### The exits -/

section Exits

variable {answers : Answers} {nsec : Int} {flags : BitVec 32} {process : Process}

theorem failing : (-1 : Int) ≠ 0 := by decide

/-- From `done` on the flags are restored, or the descriptor is closed. -/
theorem owed_done {error : Int} (established : error = 0 → Established answers nsec) :
    Owed answers nsec flags (process.done flags error) := by
  rw [Process.done]
  split_ifs with failed
  · exact ⟨fun zero => absurd zero failing, .inl rfl⟩
  · exact ⟨fun _ => established (not_not.mp failed), .inr rfl⟩

/-- Where the function goes to `done` without an error, it owes the connection. -/
theorem owed_done_zero :
    Owed answers nsec flags (process.done flags 0) ↔ Established answers nsec :=
  ⟨fun owed => owed.established rfl, fun established => owed_done fun _ => established⟩

theorem owed_abandon (error : Int) : Owed answers nsec flags (process.abandon error) :=
  ⟨fun zero => absurd zero failing, .inl rfl⟩

/-- Where the function returns at once, it owes the flags. -/
theorem owed_fail (opened : process.closed = false) :
    Owed answers nsec flags (-1, process) ↔ process.flags = flags := by
  refine ⟨fun owed => ?_, fun same => ⟨fun zero => absurd zero failing, .inr same⟩⟩
  rcases owed.restored with closed | same
  · exact absurd (opened.symm.trans closed) Bool.false_ne_true
  · exact same

/-- After `connect` has failed the connection is established in one way only. -/
theorem established_iff (failed : answers.connect = .failed einprogress) :
    Established answers nsec ↔ 0 < (answers.select (timeout nsec)).value ∧
      ((answers.select (timeout nsec)).inRset = true ∨
        (answers.select (timeout nsec)).inWset = true) ∧
      answers.getsockopt = .stored 0 := by
  rw [Established, failed]
  simp only [ConnectOutcome.value, true_and]
  exact or_iff_right (by decide)

/-- The function has set `O_NONBLOCK`, and `connect` is in progress. -/
def inProgress (flags : BitVec 32) : Process := ⟨flags ||| oNonblock, false, einprogress, []⟩

theorem connectNonb_inProgress (failed : answers.connect = .failed einprogress) (errno : Int) :
    connectNonb answers nsec (.entered flags errno) =
      if (answers.select (timeout nsec)).value = 0 then
        ((inProgress flags).called (answers.select (timeout nsec)).errno?).abandon etimedout
      else
        selected (answers.select (timeout nsec)) answers.getsockopt flags
          ((inProgress flags).called (answers.select (timeout nsec)).errno?) := by
  rw [connectNonb, failed]
  rfl

/-- What is owed after `select` when the socket is in a set: the error of the socket is looked at,
which has to say that there is a connection only if `select` has said that there is. -/
theorem owed_selected_iff {select : SelectOutcome} (opened : process.closed = false)
    (isset : select.inRset = true ∨ select.inWset = true) :
    Owed answers nsec flags (selected select answers.getsockopt flags process) ↔
      (∀ errno, answers.getsockopt = .failed errno → process.flags = flags) ∧
        (answers.getsockopt = .stored 0 → Established answers nsec) := by
  rw [selected, if_pos isset]
  cases getsockopt : answers.getsockopt with
  | stored error =>
    refine ⟨fun owed => ⟨by rintro _ ⟨⟩, ?_⟩, fun ⟨_, established⟩ => ?_⟩
    · rintro ⟨⟩
      exact owed_done_zero.mp owed
    · exact owed_done fun zero => established (congrArg _ zero)
  | failed errno =>
    have returned : Owed answers nsec flags (-1, process.called (some errno)) ↔
        process.flags = flags := owed_fail opened
    refine returned.trans ⟨fun same => ⟨fun _ _ => same, by rintro ⟨⟩⟩, fun ⟨same, _⟩ => ?_⟩
    exact same errno rfl

/-- What is asked of the outcomes while `connect` is in progress. -/
theorem handled_iff_inProgress (connect : answers.connect = .failed einprogress) :
    Handled answers nsec flags ↔
      ((answers.select (timeout nsec)).inRset = true ∨
          (answers.select (timeout nsec)).inWset = true →
        ∀ errno, answers.getsockopt = .failed errno → Nonblocking flags) ∧
      (∀ errno, answers.select (timeout nsec) = .failed errno → answers.getsockopt ≠ .stored 0) ∧
      ∀ more, answers.select (timeout nsec) ≠ .ready more false false := by
  constructor
  · intro handled
    exact ⟨fun isset errno => handled.unasked errno connect isset,
      fun errno => handled.pending errno connect, fun more => handled.unset more connect⟩
  · rintro ⟨unasked, pending, unset⟩
    refine ⟨fun errno failed other => ?_, fun errno _ isset => unasked isset errno,
      fun errno _ => pending errno, fun more _ => unset more⟩
    exact absurd (ConnectOutcome.failed.inj (failed.symm.trans connect)) other

end Exits

/-! ### The law -/

section Law

variable {answers : Answers} {nsec : Int} {flags : BitVec 32}

theorem owed_iff_connected (connect : answers.connect = .connected) (errno : Int) :
    Owed answers nsec flags (connectNonb answers nsec (.entered flags errno)) ↔
      Handled answers nsec flags := by
  have returned : connectNonb answers nsec (.entered flags errno) =
      Process.done ⟨flags ||| oNonblock, false, errno, []⟩ flags 0 := by
    rw [connectNonb, connect]
    rfl
  have established : Established answers nsec := .inl (by rw [connect]; rfl)
  have never : ∀ error, answers.connect ≠ .failed error := by
    intro error failed
    cases connect.symm.trans failed
  rw [returned]
  refine iff_of_true (owed_done fun _ => established) ⟨?_, ?_, ?_, ?_⟩
  · exact fun error failed => absurd failed (never error)
  · exact fun _ failed => absurd failed (never _)
  · exact fun _ failed => absurd failed (never _)
  · exact fun _ failed => absurd failed (never _)

theorem owed_iff_refused {error : Int} (connect : answers.connect = .failed error)
    (other : error ≠ einprogress) (errno : Int) :
    Owed answers nsec flags (connectNonb answers nsec (.entered flags errno)) ↔
      Handled answers nsec flags := by
  have returned : connectNonb answers nsec (.entered flags errno) =
      (-1, ⟨flags ||| oNonblock, false, error, []⟩) := by
    rw [connectNonb, connect]
    exact if_pos ⟨Int.negSucc_lt_zero 0, other⟩
  have notStarted : answers.connect ≠ .failed einprogress := fun failed =>
    other (ConnectOutcome.failed.inj (connect.symm.trans failed))
  rw [returned]
  refine (owed_fail rfl).trans ⟨fun same => ⟨fun _ _ _ => same, ?_, ?_, ?_⟩, ?_⟩
  · exact fun _ failed => absurd failed notStarted
  · exact fun _ failed => absurd failed notStarted
  · exact fun _ failed => absurd failed notStarted
  · exact fun handled => handled.refused error connect other

theorem owed_iff_inProgress (connect : answers.connect = .failed einprogress) (errno : Int) :
    Owed answers nsec flags (connectNonb answers nsec (.entered flags errno)) ↔
      Handled answers nsec flags := by
  have established : Established answers nsec ↔ _ := established_iff connect
  rw [connectNonb_inProgress connect, handled_iff_inProgress connect]
  cases select : answers.select (timeout nsec) with
  | timeout =>
    rw [if_pos (show SelectOutcome.timeout.value = 0 from rfl)]
    refine iff_of_true (owed_abandon etimedout) ⟨?_, by rintro _ ⟨⟩, by rintro _ ⟨⟩⟩
    rintro (isset | isset) <;> exact absurd isset Bool.false_ne_true
  | ready more rset wset =>
    rw [select] at established
    have positive : (0 : Int) < (SelectOutcome.ready more rset wset).value :=
      Int.natCast_pos.mpr (Nat.succ_pos more)
    rw [if_neg (Int.ne_of_gt positive)]
    by_cases isset : (SelectOutcome.ready more rset wset).inRset = true ∨
        (SelectOutcome.ready more rset wset).inWset = true
    · have opened : ((inProgress flags).called none).closed = false := rfl
      refine (owed_selected_iff opened isset).trans ⟨?_, ?_⟩
      · rintro ⟨same, -⟩
        refine ⟨fun _ => same, by rintro _ ⟨⟩, ?_⟩
        rintro _ ⟨⟩
        rcases isset with isset | isset <;> exact absurd isset Bool.false_ne_true
      · rintro ⟨same, -, -⟩
        exact ⟨same isset, fun zero => established.mpr ⟨positive, isset, zero⟩⟩
    · rw [selected, if_neg isset]
      refine owed_done_zero.trans (iff_of_false ?_ ?_)
      · exact fun connected => isset (established.mp connected).2.1
      · rintro ⟨-, -, unset⟩
        obtain ⟨noRset, noWset⟩ := not_or.mp isset
        obtain rfl : rset = false := Bool.eq_false_of_not_eq_true noRset
        obtain rfl : wset = false := Bool.eq_false_of_not_eq_true noWset
        exact unset more rfl
  | failed error =>
    rw [select] at established
    rw [if_neg (show (SelectOutcome.failed error).value ≠ 0 from failing)]
    have opened : ((inProgress flags).called (some error)).closed = false := rfl
    have isset : (SelectOutcome.failed error).inRset = true ∨
        (SelectOutcome.failed error).inWset = true := .inl rfl
    refine (owed_selected_iff opened isset).trans ⟨?_, ?_⟩
    · rintro ⟨same, zero⟩
      refine ⟨fun _ => same, fun _ _ stored => ?_, by rintro _ ⟨⟩⟩
      have ready := (established.mp (zero stored)).1
      exact absurd ready (Int.not_lt.mpr (Int.negSucc_le_zero 0))
    · rintro ⟨same, pending, -⟩
      exact ⟨same isset, fun zero => absurd zero (pending error rfl)⟩

end Law

/-- Whatever `connect`, `select` and `getsockopt` do: `connect_nonb` returns 0 only when the
connection is established, and closes the descriptor or leaves its flags as they were, exactly for
the outcomes it is up to. -/
theorem connect_nonb_owed_iff (answers : Answers) (nsec : Int) (flags : BitVec 32) (errno : Int) :
    Owed answers nsec flags (connectNonb answers nsec (.entered flags errno)) ↔
      Handled answers nsec flags := by
  cases connect : answers.connect with
  | connected => exact owed_iff_connected connect errno
  | failed error =>
    by_cases started : error = einprogress
    · exact owed_iff_inProgress (connect.trans (congrArg _ started)) errno
    · exact owed_iff_refused connect started errno

/-- A connection that is refused at once, on a descriptor that is open for reading and writing: it
is left open, and nonblocking. -/
theorem not_connect_nonb_owed :
    ¬ ∀ answers nsec flags errno,
      Owed answers nsec flags (connectNonb answers nsec (.entered flags errno)) := by
  intro owed
  have refused : (111 : Int) ≠ einprogress := by decide
  have handled := (owed_iff_refused rfl refused 0).mp
    (owed ⟨.failed 111, fun _ => .timeout, .stored 0⟩ 0 2 0)
  have nonblocking : (2 : BitVec 32) ||| oNonblock = 2 := handled.refused 111 rfl refused
  exact absurd nonblocking (by decide)

end SocketProgram.ConnectNonb
