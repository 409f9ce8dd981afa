/-
This file models the broadcast client of `bcast/dgcclibcast1.c`, which relies on `EINTR`
alone. For every line it sends it arms an alarm and receives replies for ever; what ends
the loop is the alarm, by interrupting a `recvfrom` that waits.

A signal that comes anywhere else runs its handler, which does nothing, and is gone, and so
is every signal where a `recvfrom` goes on after the handler. No other alarm is set before
the loop has ended. So the first signal that interrupts no `recvfrom` is the last thing
that happens but for replies.
-/

import SocketProgram.BroadcastPipe
import SocketProgram.Kernel

namespace SocketProgram.BroadcastAlarm

open Memory Runs

/-! ### The client -/

/-- Where `dg_cli` is: the statement it executes next. At `waiting` it is inside `recvfrom`. -/
inductive Pc
  | gets
  | sendto
  | alarm
  | recvfrom
  | waiting
  | test
  | terminate
  | print
  | returned
  deriving DecidableEq, Repr

/-- The statements of `for(;;)`. -/
def Pc.inLoop : Pc → Bool
  | .recvfrom | .waiting | .test | .terminate | .print => true
  | .gets | .sendto | .alarm | .returned => false

/-- `dg_cli` with what it has from the kernel: whether an alarm is set, and what is in the receive
queue of the socket. -/
structure State (Address : Type*) where
  pc : Pc
  fp : List Byte
  sendline : List Byte
  recvline : List Byte
  n : Int
  errno : Errno
  replyAddr : Option Address
  armed : Bool
  queue : List (BroadcastPipe.Reply Address)

/-- What is seen of a run: the datagrams sent, the alarms set, the signals delivered, with whether
they made `recvfrom` fail, what is printed and the reply loops ended. -/
inductive Event (Address : Type*)
  | sendto (data : List Byte)
  | alarm
  | sigalrm (interrupts : Bool)
  | recvfromError
  | printf (host : Option Address) (text : List Byte)
  | ended
  deriving DecidableEq

variable {Address : Type*}

/-- `recvfrom` fails. -/
def State.failed (state : State Address) (errno : Errno) : State Address :=
  { state with pc := .test, n := -1, errno := errno }

/-- `recvfrom` returns a datagram of at most `MAXLINE` bytes. -/
def State.received (state : State Address) (reply : BroadcastPipe.Reply Address)
    (rest : List (BroadcastPipe.Reply Address)) : State Address :=
  { state with
    pc := .test, n := (reply.data.take maxline).length
    recvline := overwrite state.recvline 0 (reply.data.take maxline)
    replyAddr := some reply.source, queue := rest }

/-- One statement of `dg_cli`. `none` when it blocks or the function has returned; `failure` is
what `recvfrom` fails with on its own. -/
def State.execute (failure : Option Errno) (state : State Address) :
    Option (List (Event Address) × State Address) :=
  match state.pc with
  | .gets =>
    match fgets maxline state.fp with
    | none => some ([], { state with pc := .returned })
    | some (stored, rest) =>
      some ([], { state with
        pc := .sendto, fp := rest, sendline := overwrite state.sendline 0 stored })
  | .sendto =>
    some ([.sendto (state.sendline.take (strlen state.sendline))], { state with pc := .alarm })
  | .alarm => some ([.alarm], { state with pc := .recvfrom, armed := true })
  | .recvfrom =>
    match failure, state.queue with
    | some errno, _ => some ([], state.failed errno)
    | none, [] => some ([], { state with pc := .waiting })
    | none, reply :: rest => some ([], state.received reply rest)
  | .waiting =>
    match failure, state.queue with
    | some errno, _ => some ([], state.failed errno)
    | none, [] => none
    | none, reply :: rest => some ([], state.received reply rest)
  | .test =>
    if state.n < 0 then
      if state.errno = .eintr then some ([.ended], { state with pc := .gets })
      else some ([.recvfromError], { state with pc := .recvfrom })
    else some ([], { state with pc := .terminate })
  | .terminate =>
    some ([], { state with pc := .print, recvline := overwrite state.recvline state.n.toNat [0] })
  | .print =>
    some ([.printf state.replyAddr (cstring state.recvline)], { state with pc := .recvfrom })
  | .returned => none

/-- `recvfrom_alarm`: the alarm goes off and the handler does nothing, but a `recvfrom` that waits
fails, unless `signal` has it restarted. -/
inductive Delivers (restarts : Bool) : State Address → List (Event Address) → State Address → Prop
  | interrupts {state : State Address} (armed : state.armed = true)
      (waiting : state.pc = .waiting) (fails : restarts = false) :
      Delivers restarts state [.sigalrm true] ({ state with armed := false }.failed .eintr)
  | passes {state : State Address} (armed : state.armed = true)
      (unseen : state.pc ≠ .waiting ∨ restarts = true) :
      Delivers restarts state [.sigalrm false] { state with armed := false }

/-- A reply arrives. -/
inductive Arrives : State Address → List (Event Address) → State Address → Prop
  | reply (state : State Address) (reply : BroadcastPipe.Reply Address) :
      Arrives state [] { state with queue := state.queue ++ [reply] }

/-- `dg_cli(fp,sockfd,pservaddr,servlen)` on a file, from its first `fgets` on. No other signal than
`SIGALRM` makes `recvfrom` fail with `EINTR`. -/
def broadcastClient (restarts : Bool) (file : List Byte) :
    Process (State Address) (Event Address) where
  begins state := state.pc = .gets ∧ state.fp = file ∧ state.armed = false
  instruction state events next :=
    ∃ failure, failure ≠ some .eintr ∧ state.execute failure = some (events, next)
  delivery := Delivers restarts
  outside := Arrives

/-! ### The alarm -/

/-- How many lines a history has sent. -/
def sent (history : List (Event Address)) : Nat :=
  history.countP fun event => event matches .sendto _

/-- How many signals a history has delivered that made `recvfrom` fail. -/
def interruptions (history : List (Event Address)) : Nat :=
  history.countP fun event => event matches .sigalrm true

/-- How many signals a history has delivered that nothing came of. -/
def passed (history : List (Event Address)) : Nat :=
  history.countP fun event => event matches .sigalrm false

/-- How many reply loops a history has ended. -/
def ended (history : List (Event Address)) : Nat :=
  history.countP fun event => event matches .ended

/-- The signal has interrupted `recvfrom`, and the loop is about to end. -/
def State.interrupted (state : State Address) : Bool :=
  state.pc = .test ∧ state.n < 0 ∧ state.errno = .eintr

/-- What every run keeps: the alarm of a loop that runs is set, or has interrupted `recvfrom`, or
has passed. -/
structure Inv (history : List (Event Address)) (state : State Address) : Prop where
  alarms : state.pc.inLoop.toNat =
    state.armed.toNat + state.interrupted.toNat + passed history
  signals : interruptions history = ended history + state.interrupted.toNat
  lines : sent history =
    ended history + (state.pc.inLoop.toNat + (decide (state.pc = .alarm)).toNat)

section Counts

variable (history events : List (Event Address))

@[simp]
theorem sent_append : sent (history ++ events) = sent history + sent events :=
  List.countP_append

@[simp]
theorem interruptions_append :
    interruptions (history ++ events) = interruptions history + interruptions events :=
  List.countP_append

@[simp]
theorem passed_append : passed (history ++ events) = passed history + passed events :=
  List.countP_append

@[simp]
theorem ended_append : ended (history ++ events) = ended history + ended events :=
  List.countP_append

end Counts

section Interrupted

variable {state : State Address}

theorem interrupted_of_ne (other : state.pc ≠ .test) : state.interrupted = false :=
  decide_eq_false fun both => other both.1

theorem interrupted_received (reply : BroadcastPipe.Reply Address)
    (rest : List (BroadcastPipe.Reply Address)) : (state.received reply rest).interrupted = false :=
  decide_eq_false fun both => absurd both.2.1 (Int.not_lt.mpr (Int.natCast_nonneg _))

theorem interrupted_failed {errno : Errno} (other : errno ≠ .eintr) :
    (state.failed errno).interrupted = false :=
  decide_eq_false fun both => other both.2.2

end Interrupted

section Inv

variable {history events : List (Event Address)} {state next : State Address}

/-- A statement of the loop that leaves the alarm alone and ends nothing. -/
theorem Inv.quiet (inv : Inv history state)
    (silent : sent events = 0 ∧ interruptions events = 0 ∧ passed events = 0 ∧ ended events = 0)
    (armed : next.armed = state.armed) (interrupted : next.interrupted = state.interrupted)
    (side : next.pc.inLoop = state.pc.inLoop) (alarm : next.pc = .alarm ↔ state.pc = .alarm) :
    Inv (history ++ events) next := by
  obtain ⟨noSent, noInterruption, noPassed, noEnded⟩ := silent
  have sameAlarm : decide (next.pc = .alarm) = decide (state.pc = .alarm) :=
    decide_eq_decide.mpr alarm
  refine ⟨?_, ?_, ?_⟩
  · rw [passed_append, noPassed, armed, interrupted, side]
    exact inv.alarms
  · rw [interruptions_append, ended_append, noInterruption, noEnded, interrupted]
    exact inv.signals
  · rw [sent_append, ended_append, noSent, noEnded, side, sameAlarm]
    exact inv.lines

theorem inv_execute {failure : Option Errno} (inv : Inv history state)
    (other : failure ≠ some .eintr) (executes : state.execute failure = some (events, next)) :
    Inv (history ++ events) next := by
  obtain ⟨pc, fp, sendline, recvline, n, errno, replyAddr, armed, queue⟩ := state
  cases pc with
  | gets =>
    simp only [State.execute] at executes
    split at executes
    · obtain ⟨rfl, rfl⟩ := Prod.mk.inj (Option.some.inj executes)
      exact inv.quiet ⟨rfl, rfl, rfl, rfl⟩ rfl rfl rfl (by simp)
    · obtain ⟨rfl, rfl⟩ := Prod.mk.inj (Option.some.inj executes)
      exact inv.quiet ⟨rfl, rfl, rfl, rfl⟩ rfl rfl rfl (by simp)
  | sendto =>
    obtain ⟨rfl, rfl⟩ := Prod.mk.inj (Option.some.inj executes)
    refine ⟨?_, ?_, ?_⟩
    · rw [passed_append]
      exact inv.alarms
    · rw [interruptions_append, ended_append]
      exact inv.signals
    · rw [sent_append, ended_append, inv.lines]
      rfl
  | alarm =>
    obtain ⟨rfl, rfl⟩ := Prod.mk.inj (Option.some.inj executes)
    have alarms : 0 = armed.toNat + 0 + passed history := inv.alarms
    refine ⟨?_, ?_, ?_⟩
    · rw [passed_append]
      show 1 = 1 + 0 + (passed history + 0)
      omega
    · rw [interruptions_append, ended_append]
      exact inv.signals
    · rw [sent_append, ended_append, inv.lines]
      rfl
  | recvfrom =>
    simp only [State.execute] at executes
    split at executes
    · obtain ⟨rfl, rfl⟩ := Prod.mk.inj (Option.some.inj executes)
      exact inv.quiet ⟨rfl, rfl, rfl, rfl⟩ rfl
        (interrupted_failed fun same => other (congrArg some same)) rfl (by simp [State.failed])
    · obtain ⟨rfl, rfl⟩ := Prod.mk.inj (Option.some.inj executes)
      exact inv.quiet ⟨rfl, rfl, rfl, rfl⟩ rfl rfl rfl (by simp)
    · obtain ⟨rfl, rfl⟩ := Prod.mk.inj (Option.some.inj executes)
      exact inv.quiet ⟨rfl, rfl, rfl, rfl⟩ rfl (interrupted_received _ _) rfl
        (by simp [State.received])
  | waiting =>
    simp only [State.execute] at executes
    split at executes
    · obtain ⟨rfl, rfl⟩ := Prod.mk.inj (Option.some.inj executes)
      exact inv.quiet ⟨rfl, rfl, rfl, rfl⟩ rfl
        (interrupted_failed fun same => other (congrArg some same)) rfl (by simp [State.failed])
    · cases executes
    · obtain ⟨rfl, rfl⟩ := Prod.mk.inj (Option.some.inj executes)
      exact inv.quiet ⟨rfl, rfl, rfl, rfl⟩ rfl (interrupted_received _ _) rfl
        (by simp [State.received])
  | test =>
    simp only [State.execute] at executes
    split_ifs at executes with failed interrupted
    · obtain ⟨rfl, rfl⟩ := Prod.mk.inj (Option.some.inj executes)
      have ends : State.interrupted
          ⟨.test, fp, sendline, recvline, n, errno, replyAddr, armed, queue⟩ = true :=
        decide_eq_true ⟨rfl, failed, interrupted⟩
      obtain ⟨alarms, signals, lines⟩ := inv
      rw [ends] at alarms signals
      refine ⟨?_, ?_, ?_⟩
      · rw [passed_append]
        change 1 = armed.toNat + 1 + passed history at alarms
        show 0 = armed.toNat + 0 + (passed history + 0)
        omega
      · rw [interruptions_append, ended_append, signals]
        rfl
      · rw [sent_append, ended_append, lines]
        rfl
    · obtain ⟨rfl, rfl⟩ := Prod.mk.inj (Option.some.inj executes)
      refine inv.quiet ⟨rfl, rfl, rfl, rfl⟩ rfl ?_ rfl (by simp)
      exact (decide_eq_false fun both => interrupted both.2.2).symm
    · obtain ⟨rfl, rfl⟩ := Prod.mk.inj (Option.some.inj executes)
      refine inv.quiet ⟨rfl, rfl, rfl, rfl⟩ rfl ?_ rfl (by simp)
      exact (decide_eq_false fun both => failed both.2.1).symm
  | terminate | print =>
    obtain ⟨rfl, rfl⟩ := Prod.mk.inj (Option.some.inj executes)
    exact inv.quiet ⟨rfl, rfl, rfl, rfl⟩ rfl rfl rfl (by simp)
  | returned => cases executes

theorem inv_delivers {restarts : Bool} (inv : Inv history state)
    (delivers : Delivers restarts state events next) : Inv (history ++ events) next := by
  obtain ⟨alarms, signals, lines⟩ := inv
  cases delivers with
  | interrupts armed waiting fails =>
    rw [armed, interrupted_of_ne (waiting ▸ nofun), waiting] at alarms
    rw [interrupted_of_ne (waiting ▸ nofun)] at signals
    rw [waiting] at lines
    refine ⟨?_, ?_, ?_⟩
    · rw [passed_append]
      change 1 = 1 + 0 + passed history at alarms
      show 1 = 0 + 1 + (passed history + 0)
      omega
    · rw [interruptions_append, ended_append, signals]
      rfl
    · rw [sent_append, ended_append, lines]
      rfl
  | passes armed unseen =>
    rw [armed] at alarms
    refine ⟨?_, ?_, ?_⟩
    · rw [passed_append]
      show state.pc.inLoop.toNat = 0 + state.interrupted.toNat + (passed history + 1)
      rw [alarms]
      show 1 + _ + _ = _
      omega
    · rw [interruptions_append, ended_append]
      exact signals
    · rw [sent_append, ended_append]
      exact lines

theorem inv_run {restarts : Bool} {file : List Byte}
    (run : Run (broadcastClient restarts file).system history state) : Inv history state := by
  refine Process.invariant Inv ?_ ?_ ?_ ?_ run
  · rintro state ⟨pc, -, armed⟩
    refine ⟨?_, ?_, ?_⟩
    · rw [armed, interrupted_of_ne (pc ▸ nofun), pc]
      rfl
    · rw [interrupted_of_ne (pc ▸ nofun)]
      rfl
    · rw [pc]
      rfl
  · rintro history state events next inv ⟨failure, other, executes⟩
    exact inv_execute inv other executes
  · intro history state events next inv delivers
    exact inv_delivers inv delivers
  · rintro history state events next inv ⟨reply⟩
    exact inv.quiet ⟨rfl, rfl, rfl, rfl⟩ rfl rfl rfl Iff.rfl

end Inv

/-! ### A signal that has passed -/

/-- What is seen of replies alone. -/
def Event.ofReply : Event Address → Bool
  | .recvfromError | .printf _ _ => true
  | .sendto _ | .alarm | .sigalrm _ | .ended => false

/-- The loop runs and nothing will end it. -/
structure Stuck (state : State Address) : Prop where
  inLoop : state.pc.inLoop = true
  armed : state.armed = false
  interrupted : state.interrupted = false

section Stuck

variable {history events : List (Event Address)} {state next : State Address}

theorem stuck_execute {failure : Option Errno} (stuck : Stuck state)
    (other : failure ≠ some .eintr) (executes : state.execute failure = some (events, next)) :
    Stuck next ∧ ∀ event ∈ events, event.ofReply = true := by
  obtain ⟨pc, fp, sendline, recvline, n, errno, replyAddr, armed, queue⟩ := state
  obtain ⟨inLoop, off, notInterrupted⟩ := stuck
  have nothing : ∀ event ∈ ([] : List (Event Address)), event.ofReply = true :=
    fun event member => absurd member List.not_mem_nil
  cases pc with
  | gets | sendto | alarm | returned => cases inLoop
  | recvfrom =>
    simp only [State.execute] at executes
    split at executes
    · obtain ⟨rfl, rfl⟩ := Prod.mk.inj (Option.some.inj executes)
      exact ⟨⟨rfl, off, interrupted_failed fun same => other (congrArg some same)⟩, nothing⟩
    · obtain ⟨rfl, rfl⟩ := Prod.mk.inj (Option.some.inj executes)
      exact ⟨⟨rfl, off, rfl⟩, nothing⟩
    · obtain ⟨rfl, rfl⟩ := Prod.mk.inj (Option.some.inj executes)
      exact ⟨⟨rfl, off, interrupted_received _ _⟩, nothing⟩
  | waiting =>
    simp only [State.execute] at executes
    split at executes
    · obtain ⟨rfl, rfl⟩ := Prod.mk.inj (Option.some.inj executes)
      exact ⟨⟨rfl, off, interrupted_failed fun same => other (congrArg some same)⟩, nothing⟩
    · cases executes
    · obtain ⟨rfl, rfl⟩ := Prod.mk.inj (Option.some.inj executes)
      exact ⟨⟨rfl, off, interrupted_received _ _⟩, nothing⟩
  | test =>
    simp only [State.execute] at executes
    split_ifs at executes with failed interrupted
    · exact absurd ⟨rfl, failed, interrupted⟩ (of_decide_eq_false notInterrupted)
    · obtain ⟨rfl, rfl⟩ := Prod.mk.inj (Option.some.inj executes)
      exact ⟨⟨rfl, off, rfl⟩, List.forall_mem_singleton.mpr rfl⟩
    · obtain ⟨rfl, rfl⟩ := Prod.mk.inj (Option.some.inj executes)
      exact ⟨⟨rfl, off, rfl⟩, nothing⟩
  | terminate =>
    obtain ⟨rfl, rfl⟩ := Prod.mk.inj (Option.some.inj executes)
    exact ⟨⟨rfl, off, rfl⟩, nothing⟩
  | print =>
    obtain ⟨rfl, rfl⟩ := Prod.mk.inj (Option.some.inj executes)
    exact ⟨⟨rfl, off, rfl⟩, List.forall_mem_singleton.mpr rfl⟩

theorem stuck_step {restarts : Bool} {file : List Byte} (stuck : Stuck state)
    (steps : (broadcastClient restarts file).system.step state events next) :
    Stuck next ∧ ∀ event ∈ events, event.ofReply = true := by
  cases steps with
  | instruction executes =>
    obtain ⟨failure, other, executes⟩ := executes
    exact stuck_execute stuck other executes
  | delivery delivers =>
    have off := stuck.armed
    cases delivers with
    | interrupts armed => exact absurd (armed.symm.trans off) nofun
    | passes armed => exact absurd (armed.symm.trans off) nofun
  | outside happens =>
    obtain ⟨reply⟩ := happens
    exact ⟨⟨stuck.inLoop, stuck.armed, stuck.interrupted⟩,
      fun event member => absurd member List.not_mem_nil⟩

/-- Where the alarm of a run goes off and nothing comes of it, the loop is stuck. -/
theorem stuck_passes (inv : Inv history state) (armed : state.armed = true) :
    Stuck { state with armed := false } := by
  have alarms := inv.alarms
  have inside := Bool.toNat_le state.pc.inLoop
  rw [armed] at alarms
  change _ = 1 + _ + _ at alarms
  have running : state.pc.inLoop.toNat = 1 := by omega
  have notYet : state.interrupted.toNat = 0 := by omega
  exact ⟨Bool.toNat_eq_one.mp running, rfl, Bool.toNat_eq_zero.mp notYet⟩

/-- No statement delivers a signal. -/
theorem signal_not_mem_execute {failure : Option Errno}
    (executes : state.execute failure = some (events, next)) (interrupts : Bool) :
    .sigalrm interrupts ∉ events := by
  obtain ⟨pc, fp, sendline, recvline, n, errno, replyAddr, armed, queue⟩ := state
  cases pc with
  | gets | recvfrom | waiting =>
    simp only [State.execute] at executes
    split at executes <;> cases executes <;> exact List.not_mem_nil
  | test =>
    simp only [State.execute] at executes
    split_ifs at executes <;> cases executes <;> simp
  | sendto | alarm | terminate | print =>
    obtain ⟨rfl, -⟩ := Prod.mk.inj (Option.some.inj executes)
    simp
  | returned => cases executes

/-- Whatever follows a signal that has passed is about replies. -/
theorem stuck_run {restarts : Bool} {file : List Byte}
    (run : Run (broadcastClient restarts file).system history state) :
    ∀ (before : List (Event Address)) (_ : Unit) (after : List (Event Address)),
      history = before ++ .sigalrm false :: after →
        Stuck state ∧ ∀ event ∈ after, event.ofReply = true := by
  refine run.reachable.since ?_ ?_ ?_
  · rintro history state ⟨rfl, -⟩ -
    exact List.not_mem_nil
  · rintro - state events next ⟨steps, earlier, run⟩ member
    cases steps with
    | instruction executes =>
      obtain ⟨failure, other, executes⟩ := executes
      exact absurd member (signal_not_mem_execute executes false)
    | delivery delivers =>
      cases delivers with
      | interrupts armed waiting fails => simp at member
      | passes armed unseen => exact ⟨rfl, stuck_passes (inv_run run) armed⟩
    | outside happens =>
      obtain ⟨reply⟩ := happens
      exact absurd member List.not_mem_nil
  · rintro - state events next ⟨steps, -⟩ stuck
    exact stuck_step stuck steps

end Stuck

/-- No signal makes a `recvfrom` fail that goes on after the handler. -/
theorem interruptions_eq_zero {file : List Byte} {history : List (Event Address)}
    {state : State Address} (run : Run (broadcastClient true file).system history state) :
    interruptions history = 0 := by
  refine Process.invariant (fun history _ => interruptions history = 0) ?_ ?_ ?_ ?_ run
  · exact fun _ _ => rfl
  · rintro history state events next none ⟨failure, other, executes⟩
    rw [interruptions_append, none, Nat.zero_add]
    refine List.countP_eq_zero.mpr fun event member => ?_
    cases event with
    | sigalrm interrupts => exact absurd member (signal_not_mem_execute executes interrupts)
    | sendto | alarm | recvfromError | printf | ended => exact Bool.false_ne_true
  · intro history state events next none delivers
    rw [interruptions_append, none]
    cases delivers with
    | interrupts armed waiting fails => cases fails
    | passes armed unseen => rfl
  · rintro history state events next none ⟨reply⟩
    rw [interruptions_append, none]
    rfl

/-- The broadcast client sends the next line only when a signal has interrupted `recvfrom`, and it
has returned only when one has for every line. After the first signal that interrupts nothing, the
loop of that line goes on for ever and nothing is seen any more but replies; where `signal` has
`recvfrom` restarted, that is the first signal there is. -/
theorem alarm_passes (restarts : Bool) (file : List Byte) {history : List (Event Address)}
    {state : State Address} (run : Run (broadcastClient restarts file).system history state) :
    ended history ≤ interruptions history ∧ sent history ≤ interruptions history + 1 ∧
      (state.pc = .returned → passed history = 0 ∧ interruptions history = sent history) ∧
      (restarts = true → interruptions history = 0) ∧
      ∀ before after, history = before ++ .sigalrm false :: after →
        state.pc.inLoop = true ∧ state.armed = false ∧
          ∀ event ∈ after, event.ofReply = true := by
  obtain ⟨alarms, signals, lines⟩ := inv_run run
  refine ⟨?_, ?_, ?_, ?_, ?_⟩
  · rw [signals]
    exact Nat.le_add_right _ _
  · have one : state.pc.inLoop.toNat + (decide (state.pc = .alarm)).toNat ≤ 1 := by
      cases state.pc <;> decide
    omega
  · intro returned
    rw [returned] at alarms lines
    change 0 = _ + _ + _ at alarms
    change _ = _ + 0 at lines
    omega
  · rintro rfl
    exact interruptions_eq_zero run
  · intro before after split
    obtain ⟨stuck, replies⟩ := stuck_run run before () after split
    exact ⟨stuck.inLoop, stuck.armed, replies⟩

/-- A signal that comes before the first `recvfrom`, and the reply after it. -/
theorem alarm_passes_example :
    ∃ (history : List (Event Unit)) (state : State Unit),
      history = [.sendto [104, 10], .alarm, .sigalrm false, .printf (some ()) [111, 107]] ∧
      ended history ≤ interruptions history ∧ sent history ≤ interruptions history + 1 ∧
      (state.pc = .returned → passed history = 0 ∧ interruptions history = sent history) ∧
      (false = true → interruptions history = 0) ∧
      ∀ before after, history = before ++ .sigalrm false :: after →
        state.pc.inLoop = true ∧ state.armed = false ∧
          ∀ event ∈ after, event.ofReply = true := by
  let first : State Unit :=
    { pc := .gets, fp := [104, 10], sendline := [], recvline := [], n := 0, errno := .eintr
      replyAddr := none, armed := false, queue := [] }
  have start : Run (broadcastClient false [104, 10]).system [] first := .start ⟨rfl, rfl, rfl, rfl⟩
  have gets := Run.step start (.instruction ⟨none, nofun, rfl⟩)
  have sendto := Run.step gets (.instruction ⟨none, nofun, rfl⟩)
  have alarm := Run.step sendto (.instruction ⟨none, nofun, rfl⟩)
  have sigalrm := Run.step alarm (.delivery (.passes rfl (.inl nofun)))
  have reply := Run.step sigalrm (.outside (.reply _ ⟨(), [111, 107]⟩))
  have recvfrom := Run.step reply (.instruction ⟨none, nofun, rfl⟩)
  have test := Run.step recvfrom (.instruction ⟨none, nofun, rfl⟩)
  have terminate := Run.step test (.instruction ⟨none, nofun, rfl⟩)
  have print := Run.step terminate (.instruction ⟨none, nofun, rfl⟩)
  exact ⟨_, _, rfl, alarm_passes false [104, 10] print⟩

end SocketProgram.BroadcastAlarm
