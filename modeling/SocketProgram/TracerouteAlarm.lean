/-
This file is about the alarm of `recv_v4` and `recv_v6`. Both arm it, test `gotalarm` and
call `recvfrom`, round and round until a packet is an answer or the alarm has gone off. The
handler `sig_alrm` sets `gotalarm` and, as its comment says, interrupts `recvfrom`.

It interrupts only a `recvfrom` that has begun to wait. Between the test and the call there is
nothing to interrupt, and the flag will not be tested again before a packet has come. So the
timeout is lost when the signal comes there and no packet is waiting already; wherever else it
comes, the next test finds it.
-/

import SocketProgram.Library.Interrupts
import SocketProgram.Traceroute

namespace SocketProgram.Traceroute

open Runs Words

/-! ### `recv_v6` -/

/-- `ICMP6_TIME_EXCEEDED`. -/
def icmp6TimeExceeded : Byte := 3

/-- `ICMP6_TIME_EXCEED_TRANSIT`. -/
def icmp6TimeExceedTransit : Byte := 0

/-- `ICMP6_DST_UNREACH`. -/
def icmp6DstUnreach : Byte := 1

/-- `ICMP6_DST_UNREACH_NOPORT`. -/
def icmp6DstUnreachNoport : Byte := 4

/-- `sizeof(struct ip6_hdr)`. -/
def sizeofIp6 : Nat := 40

section ReceiveV6

variable (endian : Endian) (verbose : Bool) (sport dport : Nat) (seq ret : Int)
  (recvbuf : List Byte)

/-- The condition on the quoted datagram that both branches of `recv_v6` test. -/
def quotesProbeV6 : Option Bool := do
  let next ← byteAt recvbuf (8 + 6)
  if next = ipprotoUdp then do
    let source ← shortAt endian recvbuf (8 + sizeofIp6)
    if source = endian.htons sport then do
      let destination ← shortAt endian recvbuf (8 + sizeofIp6 + 2)
      some (decide (destination = endian.htons (probePort dport seq)))
    else some false
  else some false

/-- The loop of `recv_v6` after `recvfrom` has returned a packet. `ret` is what the variable holds;
a time exceeded ends the loop whether or not it quotes the probe. -/
def examineV6 : Option Verdict :=
  if recvbuf.length < 8 then some (.again none)
  else do
    let type ← byteAt recvbuf 0
    let code ← byteAt recvbuf 1
    if type = icmp6TimeExceeded ∧ code = icmp6TimeExceedTransit then
      if recvbuf.length < 8 + sizeofIp6 + 4 then some (.again none)
      else (quotesProbeV6 endian sport dport seq recvbuf).map fun probe =>
        .returns (if probe then -2 else ret)
    else if type = icmp6DstUnreach then
      if recvbuf.length < 8 + sizeofIp6 + 4 then some (.again none)
      else (quotesProbeV6 endian sport dport seq recvbuf).map fun probe =>
        if probe then .returns (if code = icmp6DstUnreachNoport then -1 else code.toNat)
        else .again none
    else some (.again (if verbose then some (.icmp type code) else none))

/-- The body of the loop of `recv_v6`, after `recvfrom`. `err_sys` only prints; what it leaves is
an `icmp6len` below 8. -/
def turnV6 : Received → Option Verdict
  | .error errno =>
    if errno = .eintr then some (.again none) else some (.again (some .recvfromError))
  | .packet recvbuf => examineV6 endian verbose sport dport seq ret recvbuf

end ReceiveV6

/-! ### The two functions, one statement at a time -/

/-- Which of the two functions runs. -/
inductive Version
  | v4
  | v6
  deriving DecidableEq, Repr

/-- What the loop makes of what `recvfrom` has returned. -/
def Version.turn (version : Version) (setup : Setup) (seq ret : Int) (received : Received) :
    Option Verdict :=
  match version with
  | .v4 =>
    Traceroute.turn setup.endian setup.verbose setup.sport setup.dport seq (.recvfrom received)
  | .v6 => turnV6 setup.endian setup.verbose setup.sport setup.dport seq ret received

namespace Alarm

/-- Where the function is: the statement it executes next. At `waiting` it is inside
`recvfrom`. -/
inductive Pc
  | clear
  | alarm
  | test
  | recvfrom
  | waiting
  | body
  | unalarm (ret : Int)
  | gettimeofday (ret : Int)
  | returned (ret : Int)
  deriving DecidableEq, Repr

/-- The function with what it has from the kernel: whether an alarm is armed, and the packets
that wait to be received. -/
structure State where
  pc : Pc
  gotalarm : Bool
  ret : Int
  received : Received
  armed : Bool
  queue : List (List Byte)

/-- What is seen of a run. -/
inductive Event
  | alarm (seconds : Nat)
  | sigalrm
  | recvfrom (received : Received)
  | verbose (printed : Printed)
  | returned (ret : Int)
  deriving DecidableEq, Repr

/-- `recvfrom` returns. -/
def State.receives (state : State) (received : Received) : List Event × State :=
  ([.recvfrom received], { state with pc := .body, received := received })

/-- `recvfrom` takes the next packet, if there is one. -/
def State.takes (state : State) : Option (List Event × State) :=
  match state.queue with
  | [] => none
  | packet :: queue => some ({ state with queue := queue }.receives (.packet packet))

/-- One statement of the function. `none` when it blocks or has returned. `failure` is an error of
`recvfrom`; `unread` is what the loop makes of a packet when it looks at bytes that have not been
received. -/
def State.execute (version : Version) (setup : Setup) (seq : Int) (failure : Option Errno)
    (unread : Verdict) (state : State) : Option (List Event × State) :=
  match state.pc with
  | .clear => some ([], { state with pc := .alarm, gotalarm := false })
  | .alarm => some ([.alarm 3], { state with pc := .test, armed := true })
  | .test =>
    some ([], { state with pc := if state.gotalarm then .returned (-3) else .recvfrom })
  | .recvfrom =>
    match failure with
    | some errno => some (state.receives (.error errno))
    | none =>
      match state.takes with
      | some received => some received
      | none => some ([], { state with pc := .waiting })
  | .waiting =>
    match failure with
    | some errno => some (state.receives (.error errno))
    | none => state.takes
  | .body =>
    match (version.turn setup seq state.ret state.received).getD unread with
    | .again printed => some (printed.toList.map .verbose, { state with pc := .test })
    | .returns ret => some ([], { state with pc := .unalarm ret, ret := ret })
  | .unalarm ret => some ([.alarm 0], { state with pc := .gettimeofday ret, armed := false })
  | .gettimeofday ret => some ([.returned ret], { state with pc := .returned ret })
  | .returned _ => none

/-- The alarm goes off and `sig_alrm` runs. A `recvfrom` that waits fails with `EINTR`. -/
inductive Delivers : State → List Event → State → Prop
  | sigalrm {state : State} (armed : state.armed = true) :
      Delivers state [.sigalrm]
        { state with
          gotalarm := true
          armed := false
          pc := if state.pc = .waiting then .body else state.pc
          received := if state.pc = .waiting then .error .eintr else state.received }

/-- A packet arrives. -/
inductive Arrives : State → List Event → State → Prop
  | packet (state : State) (packet : List Byte) :
      Arrives state [] { state with queue := state.queue ++ [packet] }

/-- `recv_v4(seq,tv)` or `recv_v6(seq,tv)`, with no alarm armed before. -/
def receive (version : Version) (setup : Setup) (seq : Int) : Process State Event where
  begins state := state.pc = .clear ∧ state.armed = false
  instruction state events next :=
    ∃ failure unread, state.execute version setup seq failure unread = some (events, next)
  delivery := Delivers
  outside := Arrives

/-! ### The timeout -/

/-- The timeout is lost: the function waits inside `recvfrom`, `gotalarm` is set, and no alarm is
armed. -/
def State.Lost (state : State) : Prop :=
  state.pc = .waiting ∧ state.gotalarm = true ∧ state.armed = false

/-- `SIGALRM` is not delivered between the test of `gotalarm` and `recvfrom`, unless a packet
waits to be received. -/
def Timely (state next : State) : Prop :=
  state.gotalarm = false → next.gotalarm = true → state.pc = .recvfrom → state.queue ≠ []

/-- What every timely run keeps. -/
structure Inv (state : State) : Prop where
  disarmed : state.pc = .clear ∨ state.pc = .alarm → state.armed = false
  cleared : state.pc = .alarm → state.gotalarm = false
  once : state.armed = true → state.gotalarm = false
  supplied : state.pc = .recvfrom → state.gotalarm = true → state.queue ≠ []
  interrupted : state.pc = .waiting → state.gotalarm = false

theorem Inv.not_lost {state : State} (inv : Inv state) : ¬ state.Lost := by
  rintro ⟨waiting, gotalarm, -⟩
  rw [inv.interrupted waiting] at gotalarm
  cases gotalarm

theorem inv_begins {version : Version} {setup : Setup} {seq : Int} (state : State)
    (begins : (receive version setup seq).begins state) : Inv state := by
  obtain ⟨pc, armed⟩ := begins
  refine ⟨fun _ => armed, ?_, ?_, ?_, ?_⟩
  · rw [pc]
    exact nofun
  · rw [armed]
    exact nofun
  · rw [pc]
    exact nofun
  · rw [pc]
    exact nofun

/-- Away from the beginning and from `recvfrom` there is nothing to show but that an armed alarm
has not gone off. -/
theorem inv_elsewhere {state next : State} (inv : Inv state)
    (armed : next.armed = true → state.armed = true) (gotalarm : next.gotalarm = state.gotalarm)
    (elsewhere : next.pc ∉ [Pc.clear, .alarm, .recvfrom, .waiting]) : Inv next := by
  refine ⟨?_, ?_, fun same => gotalarm.trans (inv.once (armed same)), ?_, ?_⟩
  · rintro (same | same) <;> simp [same] at elsewhere
  · intro same
    simp [same] at elsewhere
  · intro same
    simp [same] at elsewhere
  · intro same
    simp [same] at elsewhere

theorem inv_receives {state : State} (inv : Inv state) (received : Received) :
    Inv (state.receives received).2 :=
  inv_elsewhere inv id rfl (by simp [State.receives])

theorem inv_takes {state next : State} {events : List Event} (inv : Inv state)
    (takes : state.takes = some (events, next)) : Inv next := by
  rw [State.takes] at takes
  split at takes
  · cases takes
  · cases takes
    exact inv_elsewhere inv id rfl (by simp)

theorem inv_execute {version : Version} {setup : Setup} {seq : Int} {failure : Option Errno}
    {unread : Verdict} {state next : State} {events : List Event} (inv : Inv state)
    (executes : state.execute version setup seq failure unread = some (events, next)) :
    Inv next := by
  cases atPc : state.pc with
  | clear =>
    simp only [State.execute, atPc] at executes
    cases executes
    exact ⟨fun _ => inv.disarmed (.inl atPc), fun _ => rfl, fun _ => rfl, nofun, nofun⟩
  | alarm =>
    simp only [State.execute, atPc] at executes
    cases executes
    exact ⟨by simp, nofun, fun _ => inv.cleared atPc, nofun, nofun⟩
  | test =>
    simp only [State.execute, atPc] at executes
    cases executes
    by_cases gotalarm : state.gotalarm = true
    · rw [if_pos gotalarm]
      exact inv_elsewhere inv id rfl (by simp)
    · rw [if_neg gotalarm]
      exact ⟨by simp, nofun, inv.once,
        fun _ set => absurd set gotalarm, nofun⟩
  | recvfrom =>
    simp only [State.execute, atPc] at executes
    split at executes
    · cases executes
      exact inv_receives inv _
    · split at executes
      · rename_i takes
        exact inv_takes inv (takes.trans executes)
      · rename_i nothing
        cases executes
        have empty : state.queue = [] := by
          rw [State.takes] at nothing
          split at nothing
          · assumption
          · cases nothing
        have unset : state.gotalarm = false :=
          Bool.eq_false_iff.mpr fun set => inv.supplied atPc set empty
        exact ⟨by simp, nofun, inv.once, nofun, fun _ => unset⟩
  | waiting =>
    simp only [State.execute, atPc] at executes
    split at executes
    · cases executes
      exact inv_receives inv _
    · exact inv_takes inv executes
  | body =>
    simp only [State.execute, atPc] at executes
    split at executes <;> cases executes
    · exact inv_elsewhere inv id rfl (by simp)
    · exact inv_elsewhere inv id rfl (by simp)
  | unalarm ret =>
    simp only [State.execute, atPc] at executes
    cases executes
    exact inv_elsewhere inv nofun rfl (by simp)
  | gettimeofday ret =>
    simp only [State.execute, atPc] at executes
    cases executes
    exact inv_elsewhere inv id rfl (by simp)
  | returned ret =>
    simp only [State.execute, atPc] at executes
    cases executes

/-- The signal interrupts a wait, and is not late for one. -/
theorem inv_delivers {state next : State} {events : List Event} (inv : Inv state)
    (timely : Timely state next) (delivers : Delivers state events next) : Inv next := by
  obtain ⟨armed⟩ := delivers
  have unset := inv.once armed
  by_cases waiting : state.pc = .waiting
  · simp only [if_pos waiting]
    exact ⟨fun _ => rfl, nofun, nofun, nofun, nofun⟩
  · simp only [if_neg waiting]
    refine ⟨fun _ => rfl, fun atPc => ?_, nofun, fun atPc _ => timely unset rfl atPc,
      fun atPc => absurd atPc waiting⟩
    rw [inv.disarmed (.inr atPc)] at armed
    cases armed

theorem inv_run {version : Version} {setup : Setup} {seq : Int} {history : List Event}
    {state : State} (run : Run ((receive version setup seq).system.restrict Timely) history state) :
    Inv state := by
  refine run.invariant (fun _ state => Inv state) ?_ ?_
  · rintro history state ⟨-, begins⟩
    exact inv_begins state begins
  · rintro history state events next inv ⟨step, timely⟩
    cases step with
    | instruction executes =>
      obtain ⟨failure, unread, executes⟩ := executes
      exact inv_execute inv executes
    | delivery delivers => exact inv_delivers inv timely delivers
    | outside happens =>
      obtain ⟨packet⟩ := happens
      exact ⟨inv.disarmed, inv.cleared, inv.once,
        fun _ _ => List.append_ne_nil_of_right_ne_nil _ (List.cons_ne_nil _ _), inv.interrupted⟩

/-- `recv_v4` and `recv_v6` lose no timeout in a run in which the signal is not delivered between
the test of `gotalarm` and `recvfrom` with no packet there. -/
theorem recv_keeps_timeout {version : Version} {setup : Setup} {seq : Int} {history : List Event}
    {state : State} (run : Run ((receive version setup seq).system.restrict Timely) history state) :
    ¬ state.Lost :=
  (inv_run run).not_lost

/-- A signal that is delivered there does lose the timeout, unless a packet comes just then. -/
theorem lost_of_not_timely {version : Version} {setup : Setup} {seq : Int} {history : List Event}
    {state : State} (run : Run (receive version setup seq).system history state)
    (atRecvfrom : state.pc = .recvfrom) (armed : state.armed = true) (empty : state.queue = []) :
    ∃ lost, Run (receive version setup seq).system (history ++ [.sigalrm]) lost ∧ lost.Lost := by
  have sigalrm := run.step (.delivery (.sigalrm armed))
  have waits : State.execute version setup seq none (.again none)
      { state with
        gotalarm := true
        armed := false
        pc := if state.pc = .waiting then .body else state.pc
        received := if state.pc = .waiting then .error .eintr else state.received } =
      some ([], { state with gotalarm := true, armed := false, pc := .waiting }) := by
    simp only [atRecvfrom, State.execute, State.takes, empty, reduceCtorEq, if_false]
  have recvfrom := sigalrm.step (.instruction ⟨none, .again none, waits⟩)
  rw [List.append_nil] at recvfrom
  exact ⟨_, recvfrom, rfl, rfl, rfl⟩

/-! ### The two runs -/

/-- The function at its first test, the alarm armed. -/
def armedState : State where
  pc := .test
  gotalarm := false
  ret := 0
  received := .packet []
  armed := true
  queue := []

theorem run_armedState (version : Version) (setup : Setup) (seq : Int) :
    Run ((receive version setup seq).system.restrict Timely) [.alarm 3] armedState := by
  have start : Run ((receive version setup seq).system.restrict Timely) []
      ⟨.clear, false, 0, .packet [], false, []⟩ := .start ⟨rfl, rfl, rfl⟩
  have clear := start.step ⟨.instruction ⟨none, .again none, rfl⟩, nofun⟩
  exact clear.step ⟨.instruction ⟨none, .again none, rfl⟩, nofun⟩

/-- The alarm goes off before the test, which finds it. -/
theorem recv_keeps_timeout_test :
    ∃ state : State, state.gotalarm = true ∧ state.armed = false ∧ state.pc = .returned (-3) ∧
      ¬ state.Lost := by
  have sigalrm := (run_armedState .v4 defaults 1).step ⟨.delivery (.sigalrm rfl), nofun⟩
  have test := sigalrm.step ⟨.instruction ⟨none, .again none, rfl⟩, nofun⟩
  exact ⟨_, rfl, rfl, rfl, recv_keeps_timeout test⟩

/-- The alarm goes off right after the test. -/
theorem lost_armedState (version : Version) :
    ∃ history lost, Run (receive version defaults 1).system history lost ∧ lost.Lost := by
  have test := (run_armedState version defaults 1).of_restrict.step
    (.instruction ⟨none, .again none, rfl⟩)
  exact ⟨_, lost_of_not_timely test rfl rfl rfl⟩

theorem not_recv_keeps_timeout :
    (¬ ∀ (history : List Event) (state : State),
      Run (receive .v4 defaults 1).system history state → ¬ state.Lost) ∧
    ¬ ∀ (history : List Event) (state : State),
      Run (receive .v6 defaults 1).system history state → ¬ state.Lost := by
  obtain ⟨history, lost, run, isLost⟩ := lost_armedState .v4
  obtain ⟨history', lost', run', isLost'⟩ := lost_armedState .v6
  exact ⟨fun never => never _ _ run isLost, fun never => never _ _ run' isLost'⟩

end Alarm

end SocketProgram.Traceroute
