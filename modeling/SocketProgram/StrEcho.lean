/-
This file is about `str_echo` on a connection that may fail. It reads until the connection ends
and gives every piece it has read to `written`, whose value it does not look at. When `written`
fails, what it has not written of the piece is lost, and the loop goes on with the next `read`; if
a later `write` succeeds all the same, the bytes that arrive at the other end have a gap.

As long as no `write` has failed, what has been written and what is still in `buf` make up what
has been read. So the bytes written are a first part of the bytes read for as long as nothing is
accepted any more after a `write` that fails.
-/

import SocketProgram.EchoSystem
import SocketProgram.WrittenLaw

namespace SocketProgram.StrEcho

open Memory Source Runs
open EchoSystem (Server pending_echoed echoed_open)

/-! ### The process on its socket -/

/-- The calls on the socket, with what the kernel answered: `read(sockfd,buf,MAXLINE)`, and a
`write` of `written`, which is offered these bytes. -/
inductive Call
  | read (outcome : ReadOutcome)
  | write (offered : List Byte) (outcome : WriteOutcome)
  deriving DecidableEq, Repr

/-- One call. -/
inductive Step : Server → Call → Server → Prop
  | read {server : Server} {outcome : ReadOutcome} (pc : server.pc = .reading)
      (fits : outcome.Fits maxline) : Step server (.read outcome) (server.read outcome)
  | write {server : Server} {n : Nat} {frame : WrittenFrame} {outcome : WriteOutcome}
      (pc : server.pc = .writing n frame) (fits : outcome.Fits frame.nleft) :
      Step server (.write (frame.offered server.buf) outcome)
        (server.echoed n ((written n).round outcome frame))

/-- `str_echo`, whatever its array holds at first. -/
def strEcho : System Server Call where
  start history server := history = [] ∧ server.pc = .reading ∧ server.stdout = []
  step server calls next := ∃ call, Step server call next ∧ calls = [call]

/-! ### What goes in and out -/

/-- The bytes a call has read from the socket. -/
def Call.received : Call → List Byte
  | .read outcome => outcome.bytes
  | .write _ _ => []

/-- The bytes of a call that the socket has accepted. -/
def Call.sent : Call → List Byte
  | .read _ => []
  | .write offered outcome => offered.take outcome.count

/-- The call is a `write` that makes `written` fail. -/
def Call.Fails : Call → Prop
  | .read _ => False
  | .write _ outcome => outcome.Fails

instance : DecidablePred Call.Fails := fun call =>
  match call with
  | .read _ => inferInstanceAs (Decidable False)
  | .write _ outcome => inferInstanceAs (Decidable outcome.Fails)

/-- The bytes read from the socket. -/
def received (history : List Call) : List Byte := history.flatMap Call.received

/-- The bytes written to the socket. -/
def sent (history : List Call) : List Byte := history.flatMap Call.sent

theorem received_append (history : List Call) (call : Call) :
    received (history ++ [call]) = received history ++ call.received := by
  rw [received, List.flatMap_append, List.flatMap_singleton]
  rfl

theorem sent_append (history : List Call) (call : Call) :
    sent (history ++ [call]) = sent history ++ call.sent := by
  rw [sent, List.flatMap_append, List.flatMap_singleton]
  rfl

/-- There is no gap in what has been written, and nothing is missing when `str_echo` has returned
on end of file without any `write` having failed. -/
structure NoGap (history : List Call) (server : Server) : Prop where
  front : sent history <+: received history
  whole : server.pc = .returned → .read (.data []) ∈ history →
    (∀ call ∈ history, ¬ call.Fails) → sent history = received history

/-- After a `write` that fails nothing is accepted any more. -/
def FailsForGood (history : List Call) : Prop :=
  history.Pairwise fun earlier later => earlier.Fails → later.sent = []

instance (history : List Call) : Decidable (FailsForGood history) :=
  inferInstanceAs (Decidable (history.Pairwise _))

/-! ### The steps -/

/-- What is in `buf` and not written yet once a `read` has returned. -/
theorem pending_read (server : Server) (outcome : ReadOutcome) :
    (server.read outcome).pending = outcome.bytes := by
  by_cases failed : outcome.value < 0
  · obtain ⟨errno, rfl⟩ := ReadOutcome.eq_error_of_value_neg failed
    rw [Server.read, if_neg (Int.not_lt.mpr (Int.le_of_lt failed))]
    split_ifs <;> rfl
  · by_cases ended : outcome.value = 0
    · rw [ReadOutcome.eq_eof_of_value_eq_zero ended]
      rfl
    · obtain ⟨bytes, rfl, nonempty⟩ := ReadOutcome.eq_data_of_value_pos failed ended
      exact (EchoSystem.read_data server nonempty).1

/-- A `write` that does not fail takes what it accepts from what is in `buf`. -/
theorem sent_append_pending {server : Server} {n : Nat} {frame : WrittenFrame}
    {outcome : WriteOutcome} (succeeds : ¬ outcome.Fails) :
    (frame.offered server.buf).take outcome.count ++
        (server.echoed n ((written n).round outcome frame)).pending =
      frame.offered server.buf := by
  rw [pending_echoed]
  rcases outcome.cases_fails with fails | rfl | ⟨count, positive, rfl⟩
  · exact absurd fails succeeds
  · exact owed_round_interrupted n server.buf frame
  · exact owed_round_wrote n server.buf frame positive

/-- What holds of every run in which nothing is accepted after a failure. -/
structure Inv (history : List Call) (server : Server) : Prop where
  front : sent history <+: received history
  held : (∀ call ∈ history, ¬ call.Fails) → sent history ++ server.pending = received history

/-- One call keeps it, if it does not follow a failure or the socket accepts nothing in it. -/
theorem Inv.step {history : List Call} {server next : Server} {call : Call}
    (inv : Inv history server) (step : Step server call next)
    (afterwards : ∀ earlier ∈ history, earlier.Fails → call.sent = []) :
    Inv (history ++ [call]) next := by
  by_cases clean : ∀ earlier ∈ history, ¬ earlier.Fails
  · have held := inv.held clean
    cases step with
    | @read outcome pc fits =>
      rw [Server.pending, pc, List.append_nil] at held
      have front : sent (history ++ [.read outcome]) = received history := by
        rw [sent_append]
        exact (List.append_nil _).trans held
      refine ⟨?_, fun _ => ?_⟩
      · rw [front, received_append]
        exact List.prefix_append _ _
      · rw [front, pending_read, received_append]
        rfl
    | @write n frame outcome pc fits =>
      rw [Server.pending, pc] at held
      have same : received (history ++ [.write (frame.offered server.buf) outcome]) =
          received history := by
        rw [received_append]
        exact List.append_nil _
      refine ⟨?_, fun succeed => ?_⟩
      · rw [same, sent_append, ← held]
        exact (List.prefix_append_right_inj _).mpr (List.take_prefix _ _)
      · have succeeds : ¬ outcome.Fails := succeed _ List.mem_concat_self
        rw [same, sent_append, List.append_assoc, ← held]
        exact congrArg _ (sent_append_pending succeeds)
  · obtain ⟨earlier, member, failed⟩ : ∃ earlier ∈ history, earlier.Fails := by
      simpa only [not_forall, not_not, exists_prop] using clean
    have nothing := afterwards earlier member failed
    refine ⟨?_, fun succeed => absurd failed (succeed _ (List.mem_append_left _ member))⟩
    rw [sent_append, nothing, List.append_nil, received_append]
    exact inv.front.trans (List.prefix_append _ _)

theorem inv_of_run {history : List Call} {server : Server} (run : Run strEcho history server)
    (forGood : FailsForGood history) : Inv history server := by
  induction run with
  | start starts =>
    obtain ⟨rfl, pc, -⟩ := starts
    refine ⟨List.nil_prefix, fun _ => ?_⟩
    rw [Server.pending, pc]
    rfl
  | step run steps inductionHypothesis =>
    obtain ⟨call, step, rfl⟩ := steps
    obtain ⟨before, -, afterwards⟩ := List.pairwise_append.mp forGood
    exact (inductionHypothesis before).step step fun earlier member failed =>
      afterwards earlier member call List.mem_cons_self failed

/-! ### The law -/

/-- In every run in which nothing is accepted any more after a `write` that fails, there is no gap
at any moment, and nothing is missing at a return on end of file without a failure. -/
theorem str_echo_noGap {history : List Call} {server : Server}
    (run : Run strEcho history server) (forGood : FailsForGood history) :
    NoGap history server := by
  have inv := inv_of_run run forGood
  refine ⟨inv.front, fun returned _ succeed => ?_⟩
  have held := inv.held succeed
  rw [Server.pending, returned, List.append_nil] at held
  exact held

/-! ### Runs of a piece at a time -/

/-- Where the process waits when it has read a piece. -/
theorem pc_read (server : Server) {bytes : List Byte} (nonempty : bytes ≠ []) :
    (server.read (.data bytes)).pc = .writing bytes.length (.enter bytes.length) := by
  have positive := List.length_pos_iff.mpr nonempty
  have positive' : 0 < (ReadOutcome.data bytes).value := by
    rw [ReadOutcome.value_data]
    exact_mod_cast positive
  have left : (written bytes.length).more (.enter bytes.length) = true := decide_eq_true positive
  rw [Server.read, if_pos positive', ReadOutcome.value_data, Int.toNat_natCast,
    Text.test_more left]
  rfl

/-- The first `write` of a piece that has been read. -/
theorem step_piece (server : Server) {bytes : List Byte} (nonempty : bytes ≠ [])
    {outcome : WriteOutcome} (fits : outcome.Fits bytes.length) :
    Step (server.read (.data bytes)) (.write bytes outcome)
      ((server.read (.data bytes)).echoed bytes.length
        ((written bytes.length).round outcome (.enter bytes.length))) := by
  have writing := pc_read server nonempty
  have offered : WrittenFrame.offered (server.read (.data bytes)).buf (.enter bytes.length) =
      bytes := by
    have pending := pending_read server (.data bytes)
    rw [Server.pending, writing] at pending
    exact pending
  have writes := Step.write writing fits
  rwa [offered] at writes

/-- A piece is read, and the first `write` of it returns. -/
theorem run_piece {history : List Call} {server : Server} (run : Run strEcho history server)
    (pc : server.pc = .reading) {bytes : List Byte} (nonempty : bytes ≠ [])
    (size : bytes.length ≤ maxline) {outcome : WriteOutcome} (fits : outcome.Fits bytes.length) :
    Run strEcho (history ++ [.read (.data bytes)] ++ [.write bytes outcome])
      ((server.read (.data bytes)).echoed bytes.length
        ((written bytes.length).round outcome (.enter bytes.length))) := by
  have reads : Step server (.read (.data bytes)) (server.read (.data bytes)) := .read pc size
  exact (run.step ⟨_, reads, rfl⟩).step ⟨_, step_piece server nonempty fits, rfl⟩

/-- The process at its first `read`. -/
def started : Server := ⟨.reading, List.replicate maxline 0, []⟩

theorem run_started : Run strEcho [] started := .start ⟨rfl, rfl, rfl⟩

/-- A byte is echoed, the `write` of the next two fails, and so does that of the byte behind
them. -/
theorem str_echo_noGap_byte :
    let reset := WriteOutcome.error (.other 104)
    let history := [Call.read (.data [97]), .write [97] (.wrote 1), .read (.data [98, 99]),
      .write [98, 99] reset, .read (.data [100]), .write [100] reset]
    ∃ server, Run strEcho history server ∧ (∃ call ∈ history, call.Fails) ∧
      NoGap history server := by
  intro reset history
  have echoed := run_piece run_started rfl (List.cons_ne_nil 97 []) (by decide)
    (show (WriteOutcome.wrote 1).Fits 1 from Nat.le_refl 1)
  have lost := run_piece echoed rfl (List.cons_ne_nil 98 [99]) (by decide)
    (show reset.Fits 2 from Nat.zero_le 2)
  have lost' := run_piece lost rfl (List.cons_ne_nil 100 []) (by decide)
    (show reset.Fits 1 from Nat.zero_le 1)
  exact ⟨_, lost', by decide, str_echo_noGap lost' (by decide)⟩

/-- The `write` of the first two bytes fails, and the next byte is echoed: the first two are
missing. -/
theorem not_str_echo_noGap :
    ¬ ∀ history server, Run strEcho history server → NoGap history server := by
  intro noGap
  have lost := run_piece run_started rfl (List.cons_ne_nil 97 [98]) (by decide)
    (show (WriteOutcome.error (.other 105)).Fits 2 from Nat.zero_le 2)
  have next := run_piece lost rfl (List.cons_ne_nil 99 []) (by decide)
    (show (WriteOutcome.wrote 1).Fits 1 from Nat.le_refl 1)
  have front := (noGap _ _ next).front
  exact absurd front (by decide)

end SocketProgram.StrEcho
