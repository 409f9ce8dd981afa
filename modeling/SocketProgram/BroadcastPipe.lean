/-
This file models the broadcast client of `bcast/dgclibcast6.c`. For every line it sends
it arms an alarm and reads replies until a byte comes out of a pipe; the handler of
`SIGALRM` writes that byte. The alarm may go off between any two instructions.

The byte is a token. Arming the alarm makes it, the signal moves it from the alarm to
the pipe, and the `read` that ends the reply loop takes it out of the pipe. So inside
the loop it is in exactly one of the two places, outside of it in neither, and every
line sent, every signal and every loop ended is the same token at another time.
-/

import SocketProgram.Library.Interrupts
import SocketProgram.Stdio

namespace SocketProgram.BroadcastPipe

open Memory Runs

/-! ### The client -/

/-- Where `dg_cli` is: the statement it executes next. -/
inductive Pc
  | gets
  | sendto
  | alarm
  | setSocket
  | setPipe
  | select
  | testSocket
  | recvfrom
  | terminate
  | print
  | testPipe
  | read
  | returned
  deriving DecidableEq, Repr

/-- The statements of `for(;;)`. -/
def Pc.inLoop : Pc → Bool
  | .setSocket | .setPipe | .select | .testSocket | .recvfrom | .terminate | .print
  | .testPipe | .read => true
  | .gets | .sendto | .alarm | .returned => false

/-- The descriptors `dg_cli` waits for: `sockfd` and `pipefd[0]`. -/
structure FdSet where
  sockfd : Bool
  pipefd : Bool
  deriving DecidableEq, Repr

/-- A datagram that waits to be received, with the address it comes from. -/
structure Reply (Address : Type*) where
  source : Address
  data : List Byte

/-- `dg_cli` with what it has from the kernel: whether an alarm is set, what is in the pipe and
what is in the receive queue of the socket. -/
structure State (Address : Type*) where
  pc : Pc
  fp : List Byte
  sendline : List Byte
  recvline : List Byte
  n : Nat
  replyAddr : Option Address
  rset : FdSet
  armed : Bool
  pipe : List Byte
  queue : List (Reply Address)

/-- What is seen of a run: the datagrams sent, the alarms set, the signals delivered, the
replies printed and the reply loops ended. -/
inductive Event (Address : Type*)
  | sendto (data : List Byte)
  | alarm
  | sigalrm
  | printf (host : Option Address) (text : List Byte)
  | ended

variable {Address : Type*}

/-- `select(maxfdp1,&rset,NULL,NULL,NULL)`: the descriptors of `rset` that can be read, when
there are any. -/
def State.readable (state : State Address) : Option FdSet :=
  let ready : FdSet :=
    { sockfd := state.rset.sockfd && !state.queue.isEmpty
      pipefd := state.rset.pipefd && !state.pipe.isEmpty }
  if ready.sockfd || ready.pipefd then some ready else none

/-- One statement of `dg_cli`. `none` when it blocks or the function has returned;
`interrupted` is `select` failing with `EINTR`. -/
def State.execute (interrupted : Bool) (state : State Address) :
    Option (List (Event Address) × State Address) :=
  match state.pc with
  | .gets =>
    match fgets maxline state.fp with
    | none => some ([], { state with pc := .returned })
    | some (stored, rest) =>
      some ([], { state with
        pc := .sendto, fp := rest, sendline := overwrite state.sendline 0 stored })
  | .sendto =>
    some ([.sendto (state.sendline.take (strlen state.sendline))], { state with pc := .alarm })
  | .alarm => some ([.alarm], { state with pc := .setSocket, armed := true })
  | .setSocket =>
    some ([], { state with pc := .setPipe, rset := { state.rset with sockfd := true } })
  | .setPipe =>
    some ([], { state with pc := .select, rset := { state.rset with pipefd := true } })
  | .select =>
    if interrupted then some ([], { state with pc := .setSocket })
    else state.readable.map fun ready => ([], { state with pc := .testSocket, rset := ready })
  | .testSocket =>
    some ([], { state with pc := if state.rset.sockfd then .recvfrom else .testPipe })
  | .recvfrom =>
    match state.queue with
    | [] => none
    | reply :: rest =>
      some ([], { state with
        pc := .terminate, n := (reply.data.take maxline).length
        recvline := overwrite state.recvline 0 (reply.data.take maxline)
        replyAddr := some reply.source, queue := rest })
  | .terminate =>
    some ([], { state with pc := .print, recvline := overwrite state.recvline state.n [0] })
  | .print =>
    some ([.printf state.replyAddr (cstring state.recvline)], { state with pc := .testPipe })
  | .testPipe =>
    some ([], { state with pc := if state.rset.pipefd then .read else .setSocket })
  | .read =>
    match state.pipe with
    | [] => none
    | _ :: rest => some ([.ended], { state with pc := .gets, pipe := rest })
  | .returned => none

/-- `recvfrom_alarm`: the alarm goes off and the handler writes a byte into the pipe. -/
inductive Delivers : State Address → List (Event Address) → State Address → Prop
  | sigalrm {state : State Address} (armed : state.armed = true) :
      Delivers state [.sigalrm] { state with armed := false, pipe := state.pipe ++ [0] }

/-- A reply arrives. -/
inductive Arrives : State Address → List (Event Address) → State Address → Prop
  | reply (state : State Address) (reply : Reply Address) :
      Arrives state [] { state with queue := state.queue ++ [reply] }

/-- `dg_cli(fp,sockfd,pservaddr,servlen)` on a file, from its first `fgets` on. -/
def broadcastClient (file : List Byte) : Process (State Address) (Event Address) where
  begins state :=
    state.pc = .gets ∧ state.fp = file ∧ state.armed = false ∧ state.pipe = []
  instruction state events next := ∃ interrupted, state.execute interrupted = some (events, next)
  delivery := Delivers
  outside := Arrives

/-! ### The token -/

/-- How many lines a history has sent. -/
def sent (history : List (Event Address)) : Nat :=
  history.countP fun event => event matches .sendto _

/-- How many alarms a history has delivered. -/
def delivered (history : List (Event Address)) : Nat :=
  history.countP fun event => event matches .sigalrm

/-- How many reply loops a history has ended. -/
def ended (history : List (Event Address)) : Nat :=
  history.countP fun event => event matches .ended

/-- How many tokens there are: one for a set alarm and one for each byte in the pipe. -/
def State.tokens (state : State Address) : Nat := state.armed.toNat + state.pipe.length

/-- What every run keeps: a token for the loop that is running, every signal accounted for by a
byte in the pipe or a loop ended, and every line by a loop ended, running or about to start. -/
structure Inv (history : List (Event Address)) (state : State Address) : Prop where
  tokens : state.tokens = state.pc.inLoop.toNat
  signals : delivered history = ended history + state.pipe.length
  lines : sent history =
    ended history + (state.pc.inLoop.toNat + (decide (state.pc = .alarm)).toNat)

theorem inv_begins (file : List Byte) (state : State Address)
    (begins : (broadcastClient file).begins state) : Inv [] state := by
  obtain ⟨pc, -, armed, pipe⟩ := begins
  refine ⟨?_, ?_, ?_⟩
  · rw [State.tokens, armed, pipe, pc]
    rfl
  · rw [pipe]
    rfl
  · rw [pc]
    rfl

section Counts

variable (history events : List (Event Address))

@[simp]
theorem sent_append : sent (history ++ events) = sent history + sent events :=
  List.countP_append

@[simp]
theorem delivered_append :
    delivered (history ++ events) = delivered history + delivered events :=
  List.countP_append

@[simp]
theorem ended_append : ended (history ++ events) = ended history + ended events :=
  List.countP_append

end Counts

/-- A statement that leaves alarm and pipe alone and stays on its side of the loop keeps the
token where it is. -/
theorem Inv.quiet {history events : List (Event Address)} {state next : State Address}
    (inv : Inv history state)
    (silent : sent events = 0 ∧ delivered events = 0 ∧ ended events = 0)
    (armed : next.armed = state.armed) (pipe : next.pipe = state.pipe)
    (side : next.pc.inLoop = state.pc.inLoop)
    (alarm : (next.pc = .alarm) ↔ (state.pc = .alarm)) : Inv (history ++ events) next := by
  obtain ⟨noSent, noDelivered, noEnded⟩ := silent
  have sameAlarm : decide (next.pc = .alarm) = decide (state.pc = .alarm) :=
    decide_eq_decide.mpr alarm
  refine ⟨?_, ?_, ?_⟩
  · rw [State.tokens, armed, pipe, side]
    exact inv.tokens
  · rw [delivered_append, ended_append, noDelivered, noEnded, pipe]
    exact inv.signals
  · rw [sent_append, ended_append, noSent, noEnded, side, sameAlarm]
    exact inv.lines

/-- The statement of the client a `pc` names keeps the token. -/
theorem inv_execute (history : List (Event Address)) (state : State Address)
    (events : List (Event Address)) (next : State Address) (inv : Inv history state)
    (executes : ∃ interrupted, state.execute interrupted = some (events, next)) :
    Inv (history ++ events) next := by
  obtain ⟨interrupted, executes⟩ := executes
  obtain ⟨pc, fp, sendline, recvline, n, replyAddr, rset, armed, pipe, queue⟩ := state
  cases pc with
  | gets =>
    simp only [State.execute] at executes
    split at executes <;> obtain ⟨rfl, rfl⟩ := Prod.mk.inj (Option.some.inj executes)
    · exact inv.quiet ⟨rfl, rfl, rfl⟩ rfl rfl rfl (by simp)
    · exact inv.quiet ⟨rfl, rfl, rfl⟩ rfl rfl rfl (by simp)
  | sendto =>
    obtain ⟨rfl, rfl⟩ := Prod.mk.inj (Option.some.inj executes)
    refine ⟨inv.tokens, ?_, ?_⟩
    · rw [delivered_append, ended_append]
      exact inv.signals
    · rw [sent_append, ended_append, inv.lines]
      rfl
  | alarm =>
    obtain ⟨rfl, rfl⟩ := Prod.mk.inj (Option.some.inj executes)
    have empty : State.tokens _ = 0 := inv.tokens
    obtain ⟨-, noByte⟩ := Nat.add_eq_zero_iff.mp empty
    refine ⟨?_, ?_, ?_⟩
    · show 1 + pipe.length = 1
      rw [noByte]
    · rw [delivered_append, ended_append]
      exact inv.signals
    · rw [sent_append, ended_append, inv.lines]
      rfl
  | setSocket =>
    obtain ⟨rfl, rfl⟩ := Prod.mk.inj (Option.some.inj executes)
    exact inv.quiet ⟨rfl, rfl, rfl⟩ rfl rfl rfl (by simp)
  | setPipe =>
    obtain ⟨rfl, rfl⟩ := Prod.mk.inj (Option.some.inj executes)
    exact inv.quiet ⟨rfl, rfl, rfl⟩ rfl rfl rfl (by simp)
  | select =>
    simp only [State.execute] at executes
    split at executes
    · obtain ⟨rfl, rfl⟩ := Prod.mk.inj (Option.some.inj executes)
      exact inv.quiet ⟨rfl, rfl, rfl⟩ rfl rfl rfl (by simp)
    · obtain ⟨ready, -, same⟩ := Option.map_eq_some_iff.mp executes
      obtain ⟨rfl, rfl⟩ := Prod.mk.inj same
      exact inv.quiet ⟨rfl, rfl, rfl⟩ rfl rfl rfl (by simp)
  | testSocket =>
    obtain ⟨rfl, rfl⟩ := Prod.mk.inj (Option.some.inj executes)
    cases rset.sockfd <;> exact inv.quiet ⟨rfl, rfl, rfl⟩ rfl rfl rfl (by simp)
  | recvfrom =>
    cases queue with
    | nil => cases executes
    | cons reply rest =>
      obtain ⟨rfl, rfl⟩ := Prod.mk.inj (Option.some.inj executes)
      exact inv.quiet ⟨rfl, rfl, rfl⟩ rfl rfl rfl (by simp)
  | terminate =>
    obtain ⟨rfl, rfl⟩ := Prod.mk.inj (Option.some.inj executes)
    exact inv.quiet ⟨rfl, rfl, rfl⟩ rfl rfl rfl (by simp)
  | print =>
    obtain ⟨rfl, rfl⟩ := Prod.mk.inj (Option.some.inj executes)
    exact inv.quiet ⟨rfl, rfl, rfl⟩ rfl rfl rfl (by simp)
  | testPipe =>
    obtain ⟨rfl, rfl⟩ := Prod.mk.inj (Option.some.inj executes)
    cases rset.pipefd <;> exact inv.quiet ⟨rfl, rfl, rfl⟩ rfl rfl rfl (by simp)
  | read =>
    cases pipe with
    | nil => cases executes
    | cons byte rest =>
      obtain ⟨rfl, rfl⟩ := Prod.mk.inj (Option.some.inj executes)
      have one : armed.toNat + (rest.length + 1) = 1 := inv.tokens
      have none' : armed.toNat + rest.length = 0 := Nat.succ.inj one
      refine ⟨none', ?_, ?_⟩
      · rw [delivered_append, ended_append, inv.signals]
        show _ + (rest.length + 1) + 0 = _ + 1 + rest.length
        omega
      · rw [sent_append, ended_append, inv.lines]
        rfl
  | returned => cases executes

/-- The signal moves the token from the alarm to the pipe. -/
theorem inv_delivers (history : List (Event Address)) (state : State Address)
    (events : List (Event Address)) (next : State Address) (inv : Inv history state)
    (delivers : Delivers state events next) : Inv (history ++ events) next := by
  obtain ⟨armed⟩ := delivers
  refine ⟨?_, ?_, ?_⟩
  · have tokens := inv.tokens
    rw [State.tokens, armed] at tokens
    rw [State.tokens, List.length_append, ← tokens]
    exact (Nat.zero_add _).trans (Nat.add_comm _ 1)
  · rw [delivered_append, ended_append, inv.signals, List.length_append]
    exact Nat.add_assoc _ _ 1
  · rw [sent_append, ended_append]
    exact inv.lines

theorem inv_arrives (history : List (Event Address)) (state : State Address)
    (events : List (Event Address)) (next : State Address) (inv : Inv history state)
    (arrives : Arrives state events next) : Inv (history ++ events) next := by
  obtain ⟨reply⟩ := arrives
  exact inv.quiet ⟨rfl, rfl, rfl⟩ rfl rfl rfl Iff.rfl

/-- The token is where it should be in every run. -/
theorem inv_run {file : List Byte} {history : List (Event Address)} {state : State Address}
    (run : Run (broadcastClient file).system history state) : Inv history state :=
  Process.invariant Inv (inv_begins file) inv_execute inv_delivers inv_arrives run

/-- The broadcast client. Inside the reply loop an alarm is set or a byte is in the pipe; there
is never more than one byte in the pipe, and none when the next line is read. Every signal
delivered is a loop ended or the byte in the pipe, every line sent is a loop ended or the one
that runs or is about to run, and when the next line is read, or the client has returned, loops
ended, signals and lines are equally many. -/
theorem broadcast_token (file : List Byte) {history : List (Event Address)}
    {state : State Address} (run : Run (broadcastClient file).system history state) :
    (state.pc.inLoop = true → state.armed = true ∨ state.pipe ≠ []) ∧
      state.pipe.length ≤ 1 ∧
      (state.pc = .gets → state.pipe = []) ∧
      delivered history = ended history + state.pipe.length ∧
      sent history = ended history +
        (if state.pc.inLoop = true ∨ state.pc = .alarm then 1 else 0) ∧
      (state.pc = .gets ∨ state.pc = .returned →
        ended history = delivered history ∧ ended history = sent history) := by
  have inv := inv_run run
  have tokens : state.armed.toNat + state.pipe.length = state.pc.inLoop.toNat := inv.tokens
  have noByte (outside : state.pc.inLoop = false) : state.pipe = [] := by
    rw [outside] at tokens
    exact List.eq_nil_of_length_eq_zero (Nat.add_eq_zero_iff.mp tokens).2
  have lines : sent history = ended history +
      (if state.pc.inLoop = true ∨ state.pc = .alarm then 1 else 0) := by
    rw [inv.lines]
    cases state.pc <;> rfl
  refine ⟨?_, ?_, ?_, inv.signals, lines, ?_⟩
  · intro inside
    rw [inside] at tokens
    by_cases armed : state.armed = true
    · exact Or.inl armed
    · rw [Bool.not_eq_true] at armed
      rw [armed] at tokens
      refine Or.inr fun empty => ?_
      rw [empty] at tokens
      cases tokens
  · exact (Nat.le_add_left _ _).trans (tokens ▸ Bool.toNat_le _)
  · intro gets
    exact noByte (by rw [gets]; rfl)
  · intro outside
    have side : state.pc.inLoop = false := by
      rcases outside with gets | returned
      · rw [gets]
        rfl
      · rw [returned]
        rfl
    have notAlarm : state.pc ≠ .alarm := by
      rcases outside with gets | returned
      · rw [gets]
        exact nofun
      · rw [returned]
        exact nofun
    refine ⟨?_, ?_⟩
    · rw [inv.signals, noByte side]
      rfl
    · rw [lines, if_neg (by rw [side]; exact fun either => either.elim nofun notAlarm)]
      rfl

/-- The token of a line that is being answered, with the alarm gone off inside `select`. -/
theorem broadcast_token_example :
    ∃ (history : List (Event Unit)) (state : State Unit),
      (state.pc = .select ∧ state.pipe = [0]) ∧
      (state.pc.inLoop = true → state.armed = true ∨ state.pipe ≠ []) ∧
      state.pipe.length ≤ 1 ∧
      (state.pc = .gets → state.pipe = []) ∧
      delivered history = ended history + state.pipe.length ∧
      sent history = ended history +
        (if state.pc.inLoop = true ∨ state.pc = .alarm then 1 else 0) ∧
      (state.pc = .gets ∨ state.pc = .returned →
        ended history = delivered history ∧ ended history = sent history) := by
  let first : State Unit :=
    { pc := .gets, fp := [104, 10], sendline := [], recvline := [], n := 0, replyAddr := none
      rset := ⟨false, false⟩, armed := false, pipe := [], queue := [] }
  have start : Run (broadcastClient [104, 10]).system [] first :=
    .start ⟨rfl, rfl, rfl, rfl, rfl⟩
  have gets := Run.step start (.instruction ⟨false, rfl⟩)
  have sendto := Run.step gets (.instruction ⟨false, rfl⟩)
  have alarm := Run.step sendto (.instruction ⟨false, rfl⟩)
  have setSocket := Run.step alarm (.instruction ⟨false, rfl⟩)
  have setPipe := Run.step setSocket (.instruction ⟨false, rfl⟩)
  have sigalrm := Run.step setPipe (.delivery (.sigalrm rfl))
  exact ⟨_, _, ⟨rfl, rfl⟩, broadcast_token [104, 10] sigalrm⟩

/-! ### Waiting -/

/-- `select` waits for the pipe, and what it has said holds until `dg_cli` acts on it: there is a
datagram where it calls `recvfrom` and a byte where it calls `read`. -/
def Truthful (state : State Address) : Prop :=
  match state.pc with
  | .select => state.rset.pipefd = true
  | .testSocket =>
    (state.rset.sockfd = true → state.queue ≠ []) ∧ (state.rset.pipefd = true → state.pipe ≠ [])
  | .recvfrom => state.queue ≠ [] ∧ (state.rset.pipefd = true → state.pipe ≠ [])
  | .terminate | .print | .testPipe => state.rset.pipefd = true → state.pipe ≠ []
  | .read => state.pipe ≠ []
  | .gets | .sendto | .alarm | .setSocket | .setPipe | .returned => True

/-- `select` returns only descriptors that can be read. -/
theorem readable_eq_some {state : State Address} {ready : FdSet}
    (readable : state.readable = some ready) :
    (ready.sockfd = true → state.queue ≠ []) ∧ (ready.pipefd = true → state.pipe ≠ []) := by
  simp only [State.readable] at readable
  split_ifs at readable
  obtain rfl := Option.some.inj readable
  refine ⟨?_, ?_⟩
  · intro sockfd empty
    rw [empty] at sockfd
    simp at sockfd
  · intro pipefd empty
    rw [empty] at pipefd
    simp at pipefd

theorem truthful_execute {state next : State Address} {interrupted : Bool}
    {events : List (Event Address)} (truthful : Truthful state)
    (executes : state.execute interrupted = some (events, next)) : Truthful next := by
  obtain ⟨pc, fp, sendline, recvline, n, replyAddr, rset, armed, pipe, queue⟩ := state
  cases pc with
  | gets =>
    simp only [State.execute] at executes
    split at executes <;> obtain ⟨-, rfl⟩ := Prod.mk.inj (Option.some.inj executes)
    · trivial
    · trivial
  | sendto | alarm | setSocket =>
    obtain ⟨-, rfl⟩ := Prod.mk.inj (Option.some.inj executes)
    trivial
  | setPipe =>
    obtain ⟨-, rfl⟩ := Prod.mk.inj (Option.some.inj executes)
    rfl
  | select =>
    simp only [State.execute] at executes
    split at executes
    · obtain ⟨-, rfl⟩ := Prod.mk.inj (Option.some.inj executes)
      trivial
    · obtain ⟨ready, readable, same⟩ := Option.map_eq_some_iff.mp executes
      obtain ⟨-, rfl⟩ := Prod.mk.inj same
      have ready := readable_eq_some readable
      exact ready
  | testSocket =>
    obtain ⟨-, rfl⟩ := Prod.mk.inj (Option.some.inj executes)
    obtain ⟨sockfd, pipefd⟩ := rset
    cases sockfd with
    | false => exact truthful.2
    | true => exact ⟨truthful.1 rfl, truthful.2⟩
  | recvfrom =>
    cases queue with
    | nil => cases executes
    | cons reply rest =>
      obtain ⟨-, rfl⟩ := Prod.mk.inj (Option.some.inj executes)
      exact truthful.2
  | terminate | print =>
    obtain ⟨-, rfl⟩ := Prod.mk.inj (Option.some.inj executes)
    exact truthful
  | testPipe =>
    obtain ⟨-, rfl⟩ := Prod.mk.inj (Option.some.inj executes)
    obtain ⟨sockfd, pipefd⟩ := rset
    cases pipefd with
    | false => trivial
    | true => exact truthful rfl
  | read =>
    cases pipe with
    | nil => cases executes
    | cons byte rest =>
      obtain ⟨-, rfl⟩ := Prod.mk.inj (Option.some.inj executes)
      trivial
  | returned => cases executes

/-- More datagrams and more bytes do not make it wrong. -/
theorem Truthful.grows {state next : State Address} (truthful : Truthful state)
    (pc : next.pc = state.pc) (rset : next.rset = state.rset)
    (queue : state.queue ≠ [] → next.queue ≠ []) (pipe : state.pipe ≠ [] → next.pipe ≠ []) :
    Truthful next := by
  obtain ⟨statePc, _, _, _, _, _, stateRset, _, statePipe, stateQueue⟩ := state
  obtain ⟨nextPc, _, _, _, _, _, nextRset, _, nextPipe, nextQueue⟩ := next
  obtain rfl : nextPc = statePc := pc
  obtain rfl : nextRset = stateRset := rset
  cases nextPc with
  | testSocket =>
    exact ⟨fun sockfd => queue (truthful.1 sockfd), fun pipefd => pipe (truthful.2 pipefd)⟩
  | recvfrom => exact ⟨queue truthful.1, fun pipefd => pipe (truthful.2 pipefd)⟩
  | terminate | print | testPipe => exact fun pipefd => pipe (truthful pipefd)
  | read => exact pipe truthful
  | select => exact truthful
  | gets | sendto | alarm | setSocket | setPipe | returned => trivial

theorem truthful_run {file : List Byte} {history : List (Event Address)} {state : State Address}
    (run : Run (broadcastClient file).system history state) : Truthful state := by
  refine Process.invariant (fun _ state => Truthful state) ?_ ?_ ?_ ?_ run
  · rintro state ⟨gets, -⟩
    unfold Truthful
    rw [gets]
    trivial
  · rintro history state events next truthful ⟨interrupted, executes⟩
    exact truthful_execute truthful executes
  · rintro history state events next truthful ⟨armed⟩
    exact truthful.grows rfl rfl id fun _ => List.append_ne_nil_of_right_ne_nil _ nofun
  · rintro history state events next truthful ⟨reply⟩
    exact truthful.grows rfl rfl (fun _ => List.append_ne_nil_of_right_ne_nil _ nofun) id

/-- The client never waits for ever: until it has returned it can go on, or an alarm is set that
will let it. -/
theorem execute_or_armed {file : List Byte} {history : List (Event Address)}
    {state : State Address} (run : Run (broadcastClient file).system history state) :
    state.pc = .returned ∨ state.armed = true ∨ (state.execute false).isSome = true := by
  have tokens := (inv_run run).tokens
  have truthful := truthful_run run
  obtain ⟨pc, fp, sendline, recvline, n, replyAddr, rset, armed, pipe, queue⟩ := state
  cases pc with
  | returned => exact Or.inl rfl
  | gets =>
    refine Or.inr (Or.inr ?_)
    simp only [State.execute]
    split <;> rfl
  | sendto | alarm | setSocket | setPipe | testSocket | terminate | print | testPipe =>
    exact Or.inr (Or.inr rfl)
  | select =>
    have pipefd : rset.pipefd = true := truthful
    cases armed with
    | true => exact Or.inr (Or.inl rfl)
    | false =>
      refine Or.inr (Or.inr ?_)
      have one : pipe.length = 1 := (Nat.zero_add _).symm.trans tokens
      have byte : pipe.isEmpty = false :=
        List.isEmpty_eq_false_iff.mpr (List.ne_nil_of_length_eq_add_one one)
      simp only [State.execute, State.readable, pipefd, byte, Bool.not_false, Bool.and_true,
        Bool.or_true, if_true, Bool.false_eq_true, if_false, Option.map_some, Option.isSome_some]
  | recvfrom =>
    cases queue with
    | nil => exact absurd rfl truthful.1
    | cons reply rest => exact Or.inr (Or.inr rfl)
  | read =>
    cases pipe with
    | nil => exact absurd rfl truthful
    | cons byte rest => exact Or.inr (Or.inr rfl)

/-- The client waits in `select` for the alarm. -/
theorem execute_or_armed_select : ∃ (history : List (Event Unit)) (state : State Unit),
    Run (broadcastClient [104, 10]).system history state ∧ state.pc = .select ∧
      (state.pc = .returned ∨ state.armed = true ∨ (state.execute false).isSome = true) := by
  have start : Run (broadcastClient [104, 10]).system []
      (⟨.gets, [104, 10], [], [], 0, none, ⟨false, false⟩, false, [], []⟩ : State Unit) :=
    .start ⟨rfl, rfl, rfl, rfl, rfl⟩
  have gets := Run.step start (.instruction ⟨false, rfl⟩)
  have sendto := Run.step gets (.instruction ⟨false, rfl⟩)
  have alarm := Run.step sendto (.instruction ⟨false, rfl⟩)
  have setSocket := Run.step alarm (.instruction ⟨false, rfl⟩)
  have setPipe := Run.step setSocket (.instruction ⟨false, rfl⟩)
  exact ⟨_, _, setPipe, rfl, execute_or_armed setPipe⟩

end SocketProgram.BroadcastPipe
