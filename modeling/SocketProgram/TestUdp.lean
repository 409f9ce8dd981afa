/-
This file models `test_udp` of `udpcksum/udpcksum.c`, which sends a query, waits for the reply
in `udp_read`, and sends it again when an alarm goes off. The handler `sig_alrm` leaves the wait
by `siglongjmp`, wherever the program is, as long as `canjump` is set.

`canjump` is cleared only in the statement after `udp_read` has returned. A signal that comes
just before it leaves a wait that is over: the reply is forgotten, and the query is sent once
more or, if it was the third, the program quits. When no signal comes there, the reply that has
been returned is the one reported. Never more than three queries are sent.
-/

import SocketProgram.Library.Interrupts
import SocketProgram.UdpRead

namespace SocketProgram.UdpCksum

open Memory Runs Words

namespace TestUdp

/-! ### The program -/

/-- Where `test_udp` is: the statement it executes next. At `sigsetjmp` it calls it, and at
`resumed` it is back in it by a jump. At `read` it waits for a frame inside `udp_read`, and at
`check` it looks at one. -/
inductive Pc
  | signal
  | sigsetjmp
  | resumed
  | printTimeout
  | backoff
  | setCanjump
  | send
  | count
  | alarm
  | read
  | check (frame : List Byte)
  | clearCanjump (ui : List Byte)
  | unalarm (ui : List Byte)
  | report (ui : List Byte)
  | returned
  | exited
  deriving DecidableEq, Repr

/-- `test_udp` with what it has from the kernel: whether an alarm is armed, and the frames that have
been captured and not been read. `nsent` and `timeout` are `volatile`, so a jump leaves them as
they are. -/
structure State where
  pc : Pc
  canjump : Bool
  nsent : Nat
  timeout : Nat
  armed : Bool
  queue : List (List Byte)

/-- What is seen of a run. -/
inductive Event
  | sendDnsQuery
  | alarm (seconds : Nat)
  | sigalrm
  | timeout
  | returned (ui : List Byte)
  | report (printed : Option Report)
  | noResponse
  | quit (quit : Quit)
  deriving DecidableEq, Repr

section Program

variable (endian : Endian) (datalink : Datalink) (verbose : Bool)

/-- One statement of `test_udp`. `none` when it waits, or is over. `unread` is what comes out of
`udp_read` when it looks at bytes that have not been captured. -/
def State.execute (unread : Outcome) (state : State) : Option (List Event × State) :=
  match state.pc with
  | .signal => some ([], { state with pc := .sigsetjmp })
  | .sigsetjmp => some ([], { state with pc := .setCanjump })
  | .resumed =>
    if 3 ≤ state.nsent then some ([.noResponse], { state with pc := .exited })
    else some ([], { state with pc := .printTimeout })
  | .printTimeout => some ([.timeout], { state with pc := .backoff })
  | .backoff => some ([], { state with pc := .setCanjump, timeout := state.timeout * 2 })
  | .setCanjump => some ([], { state with pc := .send, canjump := true })
  | .send => some ([.sendDnsQuery], { state with pc := .count })
  | .count => some ([], { state with pc := .alarm, nsent := state.nsent + 1 })
  | .alarm => some ([.alarm state.timeout], { state with pc := .read, armed := true })
  | .read =>
    match state.queue with
    | [] => none
    | frame :: queue => some ([], { state with pc := .check frame, queue := queue })
  | .check frame =>
    match (udpRead endian datalink frame).getD unread with
    | .quits quit => some ([.quit quit], { state with pc := .exited })
    | .returns ui => some ([.returned ui], { state with pc := .clearCanjump ui })
  | .clearCanjump ui => some ([], { state with pc := .unalarm ui, canjump := false })
  | .unalarm ui => some ([.alarm 0], { state with pc := .report ui, armed := false })
  | .report ui =>
    some ([.report (UdpCksum.report endian verbose ui)], { state with pc := .returned })
  | .returned => none
  | .exited => none

/-- An alarm that is armed goes off, and `sig_alrm` runs: it jumps if it may. -/
inductive Delivers : State → List Event → State → Prop
  | sigalrm {state : State} (armed : state.armed = true) (alive : state.pc ≠ .exited) :
      Delivers state [.sigalrm]
        { state with armed := false, pc := if state.canjump then .resumed else state.pc }

/-- A frame is captured. -/
inductive Captures : State → List Event → State → Prop
  | frame (state : State) (frame : List Byte) :
      Captures state [] { state with queue := state.queue ++ [frame] }

/-- `test_udp()`, with no alarm armed before. -/
def testUdp : Process State Event where
  begins state :=
    state.pc = .signal ∧ state.canjump = false ∧ state.nsent = 0 ∧ state.timeout = 3 ∧
      state.armed = false
  instruction state events next :=
    ∃ unread, state.execute endian datalink verbose unread = some (events, next)
  delivery := Delivers
  outside := Captures

end Program

/-! ### The number of queries -/

/-- The statements at which the next query is still to be counted. -/
def Pc.beforeCount : Pc → Bool
  | .signal | .sigsetjmp | .printTimeout | .backoff | .setCanjump | .send | .count => true
  | _ => false

/-- The statements at which an alarm can be armed. -/
def Pc.behindAlarm : Pc → Bool
  | .read | .check _ | .clearCanjump _ | .unalarm _ | .exited => true
  | _ => false

/-- What every run keeps: `nsent` counts the queries, it is below three where another is to be sent,
and no alarm is armed before the query has been counted. -/
structure Counted (history : List Event) (state : State) : Prop where
  sent : history.count .sendDnsQuery = state.nsent + if state.pc = .count then 1 else 0
  few : state.nsent ≤ 3
  fewer : state.pc.beforeCount = true → state.nsent ≤ 2
  armed : state.armed = true → state.pc.behindAlarm = true

/-- In front of `alarm` no alarm is armed. -/
theorem Counted.unarmed {history : List Event} {state : State} (counted : Counted history state)
    (front : state.pc.behindAlarm = false) : state.armed ≠ true := by
  intro armed
  rw [counted.armed armed] at front
  cases front

/-- A step that sends nothing and counts nothing. -/
theorem Counted.quiet {history events : List Event} {state next : State}
    (counted : Counted history state) (silent : events.count .sendDnsQuery = 0)
    (same : next.nsent = state.nsent) (notCount : state.pc ≠ .count) (notCount' : next.pc ≠ .count)
    (fewer : next.pc.beforeCount = true → state.nsent ≤ 2)
    (armed : next.armed = true → next.pc.behindAlarm = true) :
    Counted (history ++ events) next := by
  refine ⟨?_, same ▸ counted.few, same ▸ fewer, armed⟩
  rw [List.count_append, silent, counted.sent, if_neg notCount, if_neg notCount', same]

section Run

variable {endian : Endian} {datalink : Datalink} {verbose : Bool}

end Run

/-! ### The reply -/

/-- What may be seen after `udp_read` has returned this: no query, no other end of the program, and
only this reported. -/
def Event.Suits (endian : Endian) (verbose : Bool) (ui : List Byte) : Event → Prop
  | .sendDnsQuery | .noResponse | .quit _ | .returned _ => False
  | .report printed => printed = UdpCksum.report endian verbose ui
  | .alarm _ | .sigalrm | .timeout => True

/-- `SIGALRM` is not delivered between the return of `udp_read` and `canjump=0`. -/
def Timely (state next : State) : Prop :=
  ∀ ui, state.pc = .clearCanjump ui → next.armed = state.armed

section Reply

variable {endian : Endian} {datalink : Datalink} {verbose : Bool} {events : List Event}
  {state next : State} {ui : List Byte}

end Reply

/-- A signal that is delivered there loses the reply: the program quits, or sends the query
again. -/
theorem lost_of_not_timely {endian : Endian} {datalink : Datalink} {verbose : Bool}
    {history : List Event} {state : State} {ui : List Byte}
    (run : Run (testUdp endian datalink verbose).system history state)
    (atPc : state.pc = .clearCanjump ui) (armed : state.armed = true)
    (canjump : state.canjump = true) :
    ∃ more next, Run (testUdp endian datalink verbose).system (history ++ more) next ∧
      (.noResponse ∈ more ∨ .sendDnsQuery ∈ more) := by
  have sigalrm := run.step (.delivery (.sigalrm armed (by rw [atPc]; exact nofun)))
  rw [if_pos canjump] at sigalrm
  by_cases third : 3 ≤ state.nsent
  · have quits := sigalrm.step (.instruction ⟨.returns [], if_pos third⟩)
    rw [List.append_assoc] at quits
    exact ⟨_, _, quits, .inl (by simp)⟩
  · have resumed := sigalrm.step (.instruction ⟨.returns [], if_neg third⟩)
    have printed := resumed.step (.instruction ⟨.returns [], rfl⟩)
    have doubled := printed.step (.instruction ⟨.returns [], rfl⟩)
    have set := doubled.step (.instruction ⟨.returns [], rfl⟩)
    have sent := set.step (.instruction ⟨.returns [], rfl⟩)
    simp only [List.append_assoc] at sent
    exact ⟨_, _, sent, .inr (by simp)⟩

/-! ### The two runs -/

/-- The reply that is captured: a packet without options. -/
def reply : List Byte := loopback (packetOf 5)

end TestUdp

end SocketProgram.UdpCksum
