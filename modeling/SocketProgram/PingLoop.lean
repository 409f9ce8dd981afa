/-
This file is about `ping` as it runs: `readloop`, the signal handler that sends a request every
second, and a network that may lose, repeat and reorder what it carries and delivers any other
packets besides, forged answers among them.

The handler may run between any two statements of `readloop` and while it waits. It shares
nothing with them, so what has arrived is handed to `fproc` packet by packet, in the order of
arrival, and what is reported for an answer belongs to the request it answers: its number, and the
time since that very request was sent. Of the other packets those are reported as answers that
carry the identifier of the process, with the number and the time that stand in them.

Both call the functions of a `struct proto`. The runs are followed for any protocol whose
procedures fit together, and then for the one of IPv4.
-/

import SocketProgram.Checksum
import SocketProgram.Kernel
import SocketProgram.Library.Interrupts
import SocketProgram.PingBounds

namespace SocketProgram.PingLoop

open Memory Words Runs Ping

/-! ### The program -/

/-- A packet on its way to the raw socket, with the number of the request it answers if it is an
answer. -/
structure Packet (Host : Type*) where
  host : Host
  answers : Option Nat
  bytes : List Byte

/-- What `recvmsg` puts into `recvbuf` of a packet. -/
def Packet.received {Host : Type*} (packet : Packet Host) : List Byte := packet.bytes.take bufsize

/-- Where `readloop` is: the statement it executes next. `start` is the first call of `sig_alrm`.
Behind `recvmsg` stands the packet that was received, if any. -/
inductive Pc (Host : Type*)
  | start
  | recvmsg
  | gettimeofday (packet : Option (Packet Host))
  | fproc (packet : Option (Packet Host))

/-- The variables of `ping` and what is around it: whether an alarm is set, the time of day, the
requests that have been sent and when, and what is in the receive queue of the socket. -/
structure State (Host : Type*) where
  pc : Pc Host
  nsent : Int
  sendbuf : List Byte
  recvbuf : List Byte
  n : Int
  sarecv : Host
  tval : TimeOfDay
  armed : Bool
  clock : TimeOfDay
  wire : List (TimeOfDay × List Byte)
  queue : List (Packet Host)

/-- What is seen of a run: the requests sent, the packets that arrive, and the calls of `fproc`
with what they print. -/
inductive Event (Host Printed : Type*)
  | sendto (time : TimeOfDay) (data : List Byte)
  | arrives (packet : Packet Host)
  | fproc (packet : Option (Packet Host)) (tval : TimeOfDay) (printed : Option Printed)
  | recvmsgError

/-- The functions of a `struct proto`: what `fsend` leaves in `sendbuf` and hands to `sendto`, from
`nsent` and the time, and what `fproc` prints, from the sender, the buffer, the length and the time
of receiving. -/
structure Protocol (Host Printed : Type*) where
  fsend : Int → Timeval → List Byte → List Byte × List Byte
  fproc : Host → List Byte → Int → Timeval → Option Printed

/-- What passes between the two: the packets that answer what was handed to `sendto`, and what a raw
socket may receive. Of that, as far as it is received, some carries the identifier of the process
in an echo reply, with a time of sending that may be whole. `reply` is the report of an echo reply
from its sender, its packet, its number and its time. -/
structure Meaning (Host Printed : Type*) where
  Answers : List Byte → List Byte → Prop
  Received : List Byte → Prop
  Carries : List Byte → Prop
  Whole : List Byte → Prop
  seq : List Byte → Nat
  tvsend : List Byte → Timeval
  reply : Host → List Byte → Nat → Timeval → Printed
  IsReply : Printed → Prop

variable {Host Printed : Type*} (protocol : Protocol Host Printed)
  (meaning : Meaning Host Printed)

/-- `(*pr->fsend)()`, on the global variables. -/
def State.fsend (state : State Host) : State Host :=
  { state with
    nsent := state.nsent + 1
    sendbuf := (protocol.fsend state.nsent state.clock.toTimeval state.sendbuf).1
    wire := state.wire ++
      [(state.clock, (protocol.fsend state.nsent state.clock.toTimeval state.sendbuf).2)] }

/-- `sig_alrm`. -/
def State.sigAlrm (state : State Host) : List (Event Host Printed) × State Host :=
  ([.sendto state.clock (protocol.fsend state.nsent state.clock.toTimeval state.sendbuf).2],
    { state.fsend protocol with armed := true })

/-- One statement of `readloop`. `none` when it blocks; `failure` is what `recvmsg` fails with.
`err_sys` only prints. -/
def State.execute (failure : Option Errno) (state : State Host) :
    Option (List (Event Host Printed) × State Host) :=
  match state.pc with
  | .start =>
    let (events, next) := state.sigAlrm protocol
    some (events, { next with pc := .recvmsg })
  | .recvmsg =>
    match failure, state.queue with
    | some .eintr, _ => some ([], { state with n := -1 })
    | some _, _ => some ([.recvmsgError], { state with pc := .gettimeofday none, n := -1 })
    | none, [] => none
    | none, packet :: rest =>
      some ([], { state with
        pc := .gettimeofday (some packet), n := packet.received.length
        recvbuf := overwrite state.recvbuf 0 packet.received
        sarecv := packet.host, queue := rest })
  | .gettimeofday packet => some ([], { state with pc := .fproc packet, tval := state.clock })
  | .fproc packet =>
    some ([.fproc packet state.tval
        (protocol.fproc state.sarecv state.recvbuf state.n state.tval.toTimeval)],
      { state with pc := .recvmsg })

/-- The alarm goes off and `sig_alrm` runs. -/
inductive Delivers : State Host → List (Event Host Printed) → State Host → Prop
  | sigalrm {state : State Host} (armed : state.armed = true) :
      Delivers state (state.sigAlrm protocol).1 (state.sigAlrm protocol).2

/-- Time passes, a request that has been sent is answered, once more perhaps, or any other packet
arrives, from whomever. -/
inductive Happens : State Host → List (Event Host Printed) → State Host → Prop
  | passes (state : State Host) (clock : TimeOfDay) (later : state.clock.total ≤ clock.total) :
      Happens state [] { state with clock := clock }
  | answered {state : State Host} {number : Nat} {time : TimeOfDay} {data bytes : List Byte}
      (sent : state.wire[number]? = some (time, data)) (host : Host)
      (answers : meaning.Answers data bytes) :
      Happens state [.arrives ⟨host, some number, bytes⟩]
        { state with queue := state.queue ++ [⟨host, some number, bytes⟩] }
  | other (state : State Host) (host : Host) (bytes : List Byte)
      (received : meaning.Received (bytes.take bufsize)) :
      Happens state [.arrives ⟨host, none, bytes⟩]
        { state with queue := state.queue ++ [⟨host, none, bytes⟩] }

/-- `ping` from `readloop` on. -/
def pinger : Process (State Host) (Event Host Printed) where
  begins state :=
    state.pc = .start ∧ state.nsent = 0 ∧ state.sendbuf.length = bufsize ∧ state.armed = false ∧
      state.wire = [] ∧ state.queue = []
  instruction state events next := ∃ failure, state.execute protocol failure = some (events, next)
  delivery := Delivers protocol
  outside := Happens meaning

/-- The two procedures of a protocol fit together. The answer to a request is received whole, and
carries the number of the request and the time it was sent at. What carries the identifier is
reported with the number in it and with the time since the one in it, whatever stands behind it in
the buffer; nothing else is reported as an answer, and a failed `recvmsg` not at all. -/
structure Lawful : Prop where
  sendbuf : ∀ (nsent : Int) (now : Timeval) (sendbuf : List Byte), sendbuf.length = bufsize →
    (protocol.fsend nsent now sendbuf).1.length = bufsize
  answered : ∀ (number : Nat) (sent : TimeOfDay) (sendbuf packet : List Byte),
    sendbuf.length = bufsize →
      meaning.Answers (protocol.fsend number sent.toTimeval sendbuf).2 packet →
        packet.length ≤ bufsize ∧ meaning.Received packet ∧ meaning.Carries packet ∧
          meaning.Whole packet ∧ meaning.seq packet = number % 65536 ∧
          meaning.tvsend packet = sent.toTimeval
  carried : ∀ (packet : List Byte) (host : Host) (rest : List Byte) (tvrecv : Timeval),
    meaning.Received packet → meaning.Carries packet → ∃ rtt,
      protocol.fproc host (packet ++ rest) packet.length tvrecv =
        some (meaning.reply host packet (meaning.seq packet) rtt) ∧
      (meaning.Whole packet → rtt = tvSub tvrecv (meaning.tvsend packet))
  other : ∀ (packet : List Byte) (host : Host) (rest : List Byte) (tvrecv : Timeval)
    (report : Printed), meaning.Received packet →
      protocol.fproc host (packet ++ rest) packet.length tvrecv = some report →
        meaning.IsReply report → meaning.Carries packet
  failed : ∀ (host : Host) (recvbuf : List Byte) (tvrecv : Timeval),
    protocol.fproc host recvbuf (-1) tvrecv = none

/-! ### Requests and packets -/

/-- The requests of a history, with the times they were sent at. -/
def sent (history : List (Event Host Printed)) : List (TimeOfDay × List Byte) :=
  history.filterMap fun
    | .sendto time data => some (time, data)
    | .arrives _ | .fproc _ _ _ | .recvmsgError => none

/-- The packets that have arrived in a history. -/
def arrived (history : List (Event Host Printed)) : List (Packet Host) :=
  history.filterMap fun
    | .arrives packet => some packet
    | .sendto _ _ | .fproc _ _ _ | .recvmsgError => none

/-- The packets that `fproc` has been called for in a history. -/
def processed (history : List (Event Host Printed)) : List (Packet Host) :=
  history.filterMap fun
    | .fproc packet _ _ => packet
    | .sendto _ _ | .arrives _ | .recvmsgError => none

/-- The packet that has been received and not been looked at. -/
def Pc.inHand : Pc Host → List (Packet Host)
  | .start | .recvmsg => []
  | .gettimeofday packet | .fproc packet => packet.toList

/-- A packet that answers the request of its number, or another one that is received. -/
def Packet.Genuine (wire : List (TimeOfDay × List Byte)) (packet : Packet Host) : Prop :=
  match packet.answers with
  | some number => ∃ time data, wire[number]? = some (time, data) ∧
      meaning.Answers data packet.bytes
  | none => meaning.Received packet.received

/-- The packet stands at the front of the buffer. -/
def State.Stored (state : State Host) : Option (Packet Host) → Prop
  | none => state.n = -1
  | some packet => state.sarecv = packet.host ∧ state.n = packet.received.length ∧
      ∃ rest, state.recvbuf = packet.received ++ rest

/-- The time in `tval` is no earlier than that of the request that the packet answers. -/
def State.Timely (state : State Host) (received : Option (Packet Host)) : Prop :=
  ∀ packet ∈ received, ∀ number ∈ packet.answers, ∀ time data,
    state.wire[number]? = some (time, data) → time.total ≤ state.tval.total

/-- What `readloop` knows of the packet it has received. -/
def State.Held (state : State Host) : Prop :=
  match state.pc with
  | .start | .recvmsg => True
  | .gettimeofday packet => state.Stored packet
  | .fproc packet => state.Stored packet ∧ state.Timely packet

/-- What every run keeps. -/
structure Inv (history : List (Event Host Printed)) (state : State Host) : Prop where
  wire : sent history = state.wire
  nsent : state.nsent = state.wire.length
  room : state.sendbuf.length = bufsize
  requests : ∀ (number : Nat) (time : TimeOfDay) (data : List Byte),
    state.wire[number]? = some (time, data) → time.total ≤ state.clock.total ∧
      ∃ sendbuf : List Byte, sendbuf.length = bufsize ∧
        data = (protocol.fsend number time.toTimeval sendbuf).2
  packets : ∀ packet ∈ state.pc.inHand ++ state.queue, packet.Genuine meaning state.wire
  order : arrived history = processed history ++ (state.pc.inHand ++ state.queue)
  held : state.Held

section Lists

variable (history events : List (Event Host Printed))

@[simp]
theorem sent_append : sent (history ++ events) = sent history ++ sent events :=
  List.filterMap_append

@[simp]
theorem arrived_append : arrived (history ++ events) = arrived history ++ arrived events :=
  List.filterMap_append

@[simp]
theorem processed_append :
    processed (history ++ events) = processed history ++ processed events := List.filterMap_append

end Lists

/-- A request that has been sent keeps its number. -/
theorem getElem?_concat_of_some {wire : List (TimeOfDay × List Byte)} {number : Nat}
    {request last : TimeOfDay × List Byte} (here : wire[number]? = some request) :
    (wire ++ [last])[number]? = some request := by
  obtain ⟨inside, -⟩ := List.getElem?_eq_some_iff.mp here
  rw [List.getElem?_append_left inside, here]

/-- The requests are those before, and the last. -/
theorem getElem?_concat_cases {wire : List (TimeOfDay × List Byte)} {number : Nat}
    {request last : TimeOfDay × List Byte} (here : (wire ++ [last])[number]? = some request) :
    wire[number]? = some request ∨ number = wire.length ∧ request = last := by
  by_cases inside : number < wire.length
  · rw [List.getElem?_append_left inside] at here
    exact .inl here
  · rw [List.getElem?_append_right (Nat.not_lt.mp inside), List.getElem?_singleton] at here
    split_ifs at here with zero
    exact .inr ⟨by omega, (Option.some.inj here).symm⟩

section Genuine

variable {meaning} {wire : List (TimeOfDay × List Byte)} {packet : Packet Host}

theorem Packet.Genuine.grows (genuine : packet.Genuine meaning wire)
    (last : TimeOfDay × List Byte) : packet.Genuine meaning (wire ++ [last]) := by
  obtain ⟨host, answers, bytes⟩ := packet
  cases answers with
  | some number =>
    obtain ⟨time, data, here, answer⟩ := genuine
    exact ⟨time, data, getElem?_concat_of_some here, answer⟩
  | none => exact genuine

/-- A request has been sent for what a packet answers. -/
theorem Packet.Genuine.request (genuine : packet.Genuine meaning wire) {number : Nat}
    (answers : number ∈ packet.answers) : ∃ time data, wire[number]? = some (time, data) ∧
      meaning.Answers data packet.bytes := by
  obtain ⟨host, _, bytes⟩ := packet
  obtain rfl := Option.mem_def.mp answers
  exact genuine

end Genuine

/-! ### The invariant -/

section Inv

variable {protocol meaning} {history events : List (Event Host Printed)} {state next : State Host}

/-- The handler sends the next request; what has been received is not touched. -/
theorem Inv.sigAlrm (lawful : Lawful protocol meaning) (inv : Inv protocol meaning history state) :
    Inv protocol meaning (history ++ (state.sigAlrm protocol).1)
      (state.sigAlrm protocol).2 := by
  obtain ⟨wire, nsent, room, requests, packets, order, held⟩ := inv
  refine ⟨?_, ?_, lawful.sendbuf _ _ _ room, ?_, ?_, ?_, ?_⟩
  · rw [sent_append, wire]
    rfl
  · show state.nsent + 1 = _
    rw [nsent]
    simp [State.sigAlrm, State.fsend]
  · intro number time data here
    rcases getElem?_concat_cases here with old | ⟨rfl, new⟩
    · exact requests number time data old
    · obtain ⟨rfl, rfl⟩ := Prod.mk.inj new
      refine ⟨le_rfl, state.sendbuf, room, ?_⟩
      rw [nsent]
  · exact fun packet member => (packets packet member).grows _
  · rw [arrived_append, processed_append]
    show arrived history ++ [] = (processed history ++ []) ++ _
    rw [List.append_nil, List.append_nil]
    exact order
  · obtain ⟨pc, _, _, recvbuf, n, sarecv, tval, _, clock, _, queue⟩ := state
    cases pc with
    | start | recvmsg => trivial
    | gettimeofday received => exact held
    | fproc received =>
      refine ⟨held.1, fun packet member number answers time data here => ?_⟩
      have genuine := packets packet (List.mem_append_left _ (Option.mem_toList.mpr member))
      obtain ⟨time', data', before, -⟩ := genuine.request answers
      obtain ⟨rfl, rfl⟩ := Prod.mk.inj
        (Option.some.inj (here.symm.trans (getElem?_concat_of_some before)))
      exact held.2 packet member number answers _ _ before

/-- What `readloop` does to the variables of its own. -/
theorem Inv.moves (inv : Inv protocol meaning history state)
    (silent : sent events = [] ∧ arrived events = [])
    (order : state.pc.inHand ++ state.queue = processed events ++ (next.pc.inHand ++ next.queue))
    (wire : next.wire = state.wire) (nsent : next.nsent = state.nsent)
    (sendbuf : next.sendbuf = state.sendbuf) (clock : next.clock = state.clock)
    (held : next.Held) : Inv protocol meaning (history ++ events) next := by
  obtain ⟨noSent, noArrived⟩ := silent
  refine ⟨?_, ?_, ?_, ?_, fun packet member => ?_, ?_, held⟩
  · rw [sent_append, noSent, List.append_nil, wire]
    exact inv.wire
  · rw [nsent, wire]
    exact inv.nsent
  · rw [sendbuf]
    exact inv.room
  · rw [wire, clock]
    exact inv.requests
  · rw [wire]
    refine inv.packets packet ?_
    rw [order]
    exact List.mem_append_right _ member
  · rw [arrived_append, processed_append, noArrived, List.append_nil, inv.order, order,
      List.append_assoc]

theorem inv_execute (lawful : Lawful protocol meaning) {failure : Option Errno}
    (inv : Inv protocol meaning history state)
    (executes : state.execute protocol failure = some (events, next)) :
    Inv protocol meaning (history ++ events) next := by
  obtain ⟨pc, nsent, sendbuf, recvbuf, n, sarecv, tval, armed, clock, wire, queue⟩ := state
  cases pc with
  | start =>
    obtain ⟨rfl, rfl⟩ := Prod.mk.inj (Option.some.inj executes)
    rw [← List.append_nil (history ++ _)]
    exact (inv.sigAlrm lawful).moves ⟨rfl, rfl⟩ rfl rfl rfl rfl rfl trivial
  | recvmsg =>
    simp only [State.execute] at executes
    split at executes
    · obtain ⟨rfl, rfl⟩ := Prod.mk.inj (Option.some.inj executes)
      exact inv.moves ⟨rfl, rfl⟩ rfl rfl rfl rfl rfl trivial
    · obtain ⟨rfl, rfl⟩ := Prod.mk.inj (Option.some.inj executes)
      exact inv.moves ⟨rfl, rfl⟩ rfl rfl rfl rfl rfl rfl
    · cases executes
    · obtain ⟨rfl, rfl⟩ := Prod.mk.inj (Option.some.inj executes)
      exact inv.moves ⟨rfl, rfl⟩ rfl rfl rfl rfl rfl ⟨rfl, rfl, _, overwrite_zero recvbuf _⟩
  | gettimeofday packet =>
    obtain ⟨rfl, rfl⟩ := Prod.mk.inj (Option.some.inj executes)
    refine inv.moves ⟨rfl, rfl⟩ rfl rfl rfl rfl rfl ⟨inv.held, ?_⟩
    intro packet member number answers time data here
    exact (inv.requests number time data here).1
  | fproc packet =>
    obtain ⟨rfl, rfl⟩ := Prod.mk.inj (Option.some.inj executes)
    refine inv.moves ⟨rfl, rfl⟩ ?_ rfl rfl rfl rfl trivial
    cases packet <;> rfl

/-- A packet arrives. -/
theorem Inv.arrives (inv : Inv protocol meaning history state) {packet : Packet Host}
    (genuine : packet.Genuine meaning state.wire) :
    Inv protocol meaning (history ++ [.arrives packet])
      { state with queue := state.queue ++ [packet] } := by
  obtain ⟨wire, nsent, room, requests, packets, order, held⟩ := inv
  refine ⟨?_, nsent, room, requests, ?_, ?_, held⟩
  · rw [sent_append, wire]
    exact List.append_nil _
  · rw [← List.append_assoc]
    exact List.forall_mem_append.mpr ⟨packets, List.forall_mem_singleton.mpr genuine⟩
  · rw [arrived_append, processed_append, order]
    show _ ++ _ = (_ ++ []) ++ (_ ++ (_ ++ _))
    rw [List.append_nil, List.append_assoc, List.append_assoc]
    rfl

theorem inv_happens (inv : Inv protocol meaning history state)
    (happens : Happens meaning state events next) :
    Inv protocol meaning (history ++ events) next := by
  cases happens with
  | passes clock later =>
    obtain ⟨wire, nsent, room, requests, packets, order, held⟩ := inv
    rw [List.append_nil]
    refine ⟨wire, nsent, room, fun number time data here => ?_, packets, order, held⟩
    obtain ⟨before, built⟩ := requests number time data here
    exact ⟨before.trans later, built⟩
  | @answered number time data bytes sent host answers =>
    exact inv.arrives ⟨time, data, sent, answers⟩
  | other host bytes received => exact inv.arrives received

theorem inv_run (lawful : Lawful protocol meaning)
    (run : Run (pinger protocol meaning).system history state) :
    Inv protocol meaning history state := by
  refine Process.invariant (Inv protocol meaning) ?_ ?_ ?_ ?_ run
  · rintro ⟨pc, nsent, sendbuf, recvbuf, n, sarecv, tval, armed, clock, wire, queue⟩
      ⟨rfl, rfl, room, -, rfl, rfl⟩
    refine ⟨rfl, rfl, room, fun number time data here => ?_, ?_, rfl, trivial⟩
    · cases here
    · exact fun packet member => absurd member List.not_mem_nil
  · rintro history state events next inv ⟨failure, executes⟩
    exact inv_execute lawful inv executes
  · rintro history state events next inv ⟨armed⟩
    exact inv.sigAlrm lawful
  · intro history state events next inv happens
    exact inv_happens inv happens

end Inv

/-! ### What is printed -/

section Printed

variable {protocol meaning} {history events : List (Event Host Printed)} {state next : State Host}

/-- The answer to a request that has been received. -/
theorem answered (lawful : Lawful protocol meaning) {packet : Packet Host} {number : Nat}
    (inv : Inv protocol meaning history state)
    (member : packet ∈ state.pc.inHand ++ state.queue) (answers : packet.answers = some number) :
    ∃ time data, state.wire[number]? = some (time, data) ∧ meaning.Answers data packet.bytes ∧
      packet.received = packet.bytes ∧ meaning.Received packet.bytes ∧
      meaning.Carries packet.bytes ∧ meaning.Whole packet.bytes ∧
      meaning.seq packet.bytes = number % 65536 ∧
      meaning.tvsend packet.bytes = time.toTimeval := by
  obtain ⟨time, data, here, answered⟩ := (inv.packets packet member).request answers
  obtain ⟨-, sendbuf, room, rfl⟩ := inv.requests number time data here
  obtain ⟨whole, rest⟩ := lawful.answered number time sendbuf packet.bytes room answered
  exact ⟨time, _, here, answered, List.take_of_length_le whole, rest⟩

/-- What has been received is what the socket may receive. -/
theorem received_of_inHand (lawful : Lawful protocol meaning) {packet : Packet Host}
    (inv : Inv protocol meaning history state)
    (member : packet ∈ state.pc.inHand ++ state.queue) :
    meaning.Received packet.received := by
  cases answers : packet.answers with
  | some number =>
    obtain ⟨-, -, -, -, whole, received, -⟩ := answered lawful inv member answers
    rwa [whole]
  | none =>
    have genuine := inv.packets packet member
    rwa [Packet.Genuine, answers] at genuine

theorem mem_inHand {packet : Packet Host} (atFproc : state.pc = .fproc (some packet)) :
    packet ∈ state.pc.inHand ++ state.queue := by
  rw [atFproc]
  exact List.mem_append_left _ (List.mem_singleton_self packet)

/-- What is printed for a packet that carries the identifier. -/
theorem printed_carried (lawful : Lawful protocol meaning) {packet : Packet Host}
    (inv : Inv protocol meaning history state) (atFproc : state.pc = .fproc (some packet))
    (carries : meaning.Carries packet.received) :
    ∃ rtt, protocol.fproc state.sarecv state.recvbuf state.n state.tval.toTimeval =
        some (meaning.reply packet.host packet.received
          (meaning.seq packet.received) rtt) ∧
      (meaning.Whole packet.received →
        rtt = tvSub state.tval.toTimeval (meaning.tvsend packet.received)) := by
  have held := inv.held
  rw [State.Held, atFproc] at held
  obtain ⟨⟨host, n, rest, recvbuf⟩, -⟩ := held
  rw [host, n, recvbuf]
  exact lawful.carried _ _ _ _ (received_of_inHand lawful inv (mem_inHand atFproc)) carries

/-- What is printed for the answer to a request. -/
theorem printed_answer (lawful : Lawful protocol meaning) {packet : Packet Host} {number : Nat}
    (inv : Inv protocol meaning history state) (atFproc : state.pc = .fproc (some packet))
    (answers : packet.answers = some number) :
    ∃ time data, state.wire[number]? = some (time, data) ∧ meaning.Answers data packet.bytes ∧
      protocol.fproc state.sarecv state.recvbuf state.n state.tval.toTimeval =
        some (meaning.reply packet.host packet.bytes (number % 65536)
          (tvSub state.tval.toTimeval time.toTimeval)) ∧
      time.total ≤ state.tval.total := by
  obtain ⟨time, data, here, answers', take, received, carries, whole, seq, tvsend⟩ :=
    answered lawful inv (mem_inHand atFproc) answers
  have held := inv.held
  rw [State.Held, atFproc] at held
  obtain ⟨-, timely⟩ := held
  obtain ⟨rtt, printed, exact⟩ := printed_carried lawful inv atFproc (take.symm ▸ carries)
  rw [take] at printed exact
  rw [exact whole, seq, tvsend] at printed
  exact ⟨time, data, here, answers', printed, timely packet rfl number answers time data here⟩

/-- A report of an answer is about a packet that carries the identifier. -/
theorem carries_of_isReply (lawful : Lawful protocol meaning) {received : Option (Packet Host)}
    {report : Printed} (inv : Inv protocol meaning history state)
    (atFproc : state.pc = .fproc received)
    (printed : protocol.fproc state.sarecv state.recvbuf state.n state.tval.toTimeval =
      some report) (reply : meaning.IsReply report) :
    ∃ packet, received = some packet ∧ meaning.Carries packet.received := by
  have held := inv.held
  rw [State.Held, atFproc] at held
  obtain ⟨stored, -⟩ := held
  cases received with
  | none =>
    have failed : state.n = -1 := stored
    rw [failed, lawful.failed] at printed
    cases printed
  | some packet =>
    obtain ⟨-, n, rest, recvbuf⟩ := stored
    rw [n, recvbuf] at printed
    exact ⟨packet, rfl, lawful.other _ _ _ _ _
      (received_of_inHand lawful inv (mem_inHand atFproc)) printed reply⟩

/-- A statement shows no more than one event, and a call of `fproc` is that of its statement. -/
theorem execute_events {failure : Option Errno}
    (executes : state.execute protocol failure = some (events, next)) :
    events.length ≤ 1 ∧ ∀ received tval printed, .fproc received tval printed ∈ events →
      state.pc = .fproc received ∧ tval = state.tval ∧
        printed = protocol.fproc state.sarecv state.recvbuf state.n state.tval.toTimeval := by
  obtain ⟨pc, nsent, sendbuf, recvbuf, n, sarecv, tval, armed, clock, wire, queue⟩ := state
  cases pc with
  | start =>
    obtain ⟨rfl, -⟩ := Prod.mk.inj (Option.some.inj executes)
    exact ⟨le_rfl, fun received tval printed member => by cases List.mem_singleton.mp member⟩
  | recvmsg =>
    simp only [State.execute] at executes
    split at executes <;> cases executes <;> simp
  | gettimeofday packet =>
    obtain ⟨rfl, -⟩ := Prod.mk.inj (Option.some.inj executes)
    exact ⟨Nat.zero_le 1, fun received tval printed member => absurd member List.not_mem_nil⟩
  | fproc packet =>
    obtain ⟨rfl, -⟩ := Prod.mk.inj (Option.some.inj executes)
    refine ⟨le_rfl, fun received tval printed member => ?_⟩
    cases List.mem_singleton.mp member
    exact ⟨rfl, rfl, rfl⟩

theorem single_step (state : State Host) (events : List (Event Host Printed)) (next : State Host)
    (steps : (pinger protocol meaning).system.step state events next) : events.length ≤ 1 := by
  cases steps with
  | instruction executes =>
    obtain ⟨failure, executes⟩ := executes
    exact (execute_events executes).1
  | delivery delivers =>
    obtain ⟨armed⟩ := delivers
    exact le_rfl
  | outside happens => cases happens <;> simp

/-- The call of `fproc` in the middle of a run. -/
theorem fproc_run (lawful : Lawful protocol meaning) {before after : List (Event Host Printed)}
    {received : Option (Packet Host)} {tval : TimeOfDay} {printed : Option Printed}
    (run : Run (pinger protocol meaning).system (before ++ .fproc received tval printed :: after)
      state) :
    ∃ middle, Inv protocol meaning before middle ∧ middle.pc = .fproc received ∧
      tval = middle.tval ∧ printed = protocol.fproc middle.sarecv middle.recvbuf middle.n
        middle.tval.toTimeval := by
  have atStart (history : List (Event Host Printed)) (state : State Host)
      (starts : (pinger protocol meaning).system.start history state) : history = [] := starts.1
  obtain ⟨middle, next, run', steps⟩ := run.before_event atStart single_step
  refine ⟨middle, inv_run lawful run', ?_⟩
  cases steps with
  | instruction executes =>
    obtain ⟨failure, executes⟩ := executes
    exact (execute_events executes).2 _ _ _ (List.mem_singleton_self _)
  | delivery delivers => cases delivers
  | outside happens => cases happens

/-- What arrives is handed to `fproc` once and in order. For the answer to a request the report of
that request is printed, with its number and with the time between sending it and receiving the
answer. For any other packet a report of an answer is printed just where it carries the
identifier, with what stands in it. And every request sent is the one of its number. -/
theorem pinger_reports (lawful : Lawful protocol meaning)
    (run : Run (pinger protocol meaning).system history state) :
    arrived history = processed history ++ (state.pc.inHand ++ state.queue) ∧
      (∀ before received tval printed after,
        history = before ++ .fproc received tval printed :: after →
          (∀ packet number, received = some packet → packet.answers = some number →
            ∃ time data, (sent before)[number]? = some (time, data) ∧
              meaning.Answers data packet.bytes ∧
              printed = some (meaning.reply packet.host packet.bytes (number % 65536)
                (tvSub tval.toTimeval time.toTimeval)) ∧ time.total ≤ tval.total) ∧
          (∀ packet, received = some packet → meaning.Carries packet.received →
            ∃ rtt, printed = some (meaning.reply packet.host packet.received
                (meaning.seq packet.received) rtt) ∧
              (meaning.Whole packet.received →
                rtt = tvSub tval.toTimeval (meaning.tvsend packet.received))) ∧
          (∀ report, printed = some report → meaning.IsReply report →
            ∃ packet, received = some packet ∧
              meaning.Carries packet.received)) ∧
      ∀ (number : Nat) (time : TimeOfDay) (data : List Byte),
        (sent history)[number]? = some (time, data) → ∃ sendbuf : List Byte,
          sendbuf.length = bufsize ∧ data = (protocol.fsend number time.toTimeval sendbuf).2 := by
  have inv := inv_run lawful run
  refine ⟨inv.order, ?_, ?_⟩
  · rintro before received tval printed after rfl
    obtain ⟨middle, inv', atFproc, rfl, rfl⟩ := fproc_run lawful run
    refine ⟨?_, ?_, fun report printed reply => carries_of_isReply lawful inv' atFproc printed
      reply⟩
    · rintro packet number rfl answers
      rw [inv'.wire]
      exact printed_answer lawful inv' atFproc answers
    · rintro packet rfl carries
      exact printed_carried lawful inv' atFproc carries
  · intro number time data here
    rw [inv.wire] at here
    exact (inv.requests number time data here).2

end Printed

/-! ### The protocol of IPv4 -/

section V4

variable (endian : Endian) (getpid : Nat) (verbose : Bool)

/-- `proto_v4`: `send_v4` and `proc_v4`. -/
def protocolV4 : Protocol Host (Report Host) where
  fsend nsent now sendbuf :=
    (fillCksum endian (request endian (pidOf getpid) nsent now sendbuf) 2 (8 + datalen),
      sendV4 endian (pidOf getpid) nsent now sendbuf)
  fproc host recvbuf n tval := procV4 endian (pidOf getpid) verbose host recvbuf n tval

theorem sent_protocolV4 (nsent : Int) (now : Timeval) (sendbuf : List Byte) :
    ((protocolV4 endian getpid verbose : Protocol Host (Report Host)).fsend nsent now sendbuf).2 =
      sendV4 endian (pidOf getpid) nsent now sendbuf := by
  simp only [protocolV4]

/-- An echo reply with the identifier of this process, and with the eight bytes of data that
`proc_v4` asks for. -/
structure Carries (bytes : List Byte) : Prop where
  p : bytes.getD 9 0 = ipprotoIcmp
  enough : hlen1 bytes + 16 ≤ bytes.length
  type : (icmpOf bytes).getD 0 0 = icmpEchoreply
  id : icmpId endian (icmpOf bytes) = pidOf getpid

/-- A report that is one of an answer. -/
def IsReply (report : Report Host) : Prop :=
  ∃ icmplen host seq ttl rtt, report = .reply icmplen host seq ttl rtt

/-- A packet with a request comes back as an echo reply, behind an IP header; and whatever a raw
socket receives has an IP header. -/
def meaningV4 : Meaning Host (Report Host) where
  Answers data packet := ∃ answer : Answer data, packet = answer.packet
  Received bytes := 20 ≤ bytes.length
  Carries := Carries endian getpid
  Whole bytes := hlen1 bytes + 24 ≤ bytes.length
  seq bytes := icmpSeq endian (icmpOf bytes)
  tvsend bytes := Timeval.load endian (((icmpOf bytes).drop 8).take 16)
  reply host bytes seq rtt :=
    .reply (bytes.length - hlen1 bytes) host seq (bytes.getD 8 0).toNat rtt
  IsReply := IsReply

/-- `ping` of an IPv4 address. -/
def ping : Process (State Host) (Event Host (Report Host)) :=
  pinger (protocolV4 endian getpid verbose) (meaningV4 endian getpid)

theorem length_kept {memory : List Byte} {offset size : Nat} {data : List Byte}
    (fits : offset + data.length ≤ size) (length : memory.length = size) :
    (overwrite memory offset data).length = size := by
  rw [length_overwrite memory offset data (length ▸ fits), length]

theorem enough_of_bufsize {sendbuf : List Byte} (room : sendbuf.length = bufsize) :
    8 + datalen ≤ sendbuf.length := by
  rw [room]
  decide

/-- A request is built in the buffer. -/
theorem length_request (pid : Nat) (nsent : Int) (now : Timeval) {sendbuf : List Byte}
    (room : sendbuf.length = bufsize) :
    (request endian pid nsent now sendbuf).length = bufsize := by
  have time := Timeval.length_bytes endian now
  refine length_kept ?_ (length_kept ?_ (length_kept ?_ (length_kept ?_ (length_kept ?_
    (length_kept ?_ room)))))
  all_goals first
    | rw [Endian.length_bytes]; decide
    | rw [time]; decide
    | decide

theorem length_fillCksum {icmp : List Byte} (room : icmp.length = bufsize) :
    (fillCksum endian icmp 2 (8 + datalen)).length = bufsize := by
  refine length_kept ?_ (length_kept ?_ room)
  all_goals
    rw [Endian.length_bytes]
    decide

/-- What stands behind a packet in the buffer is not looked at for its header, its identifier and
its number, and where the packet has the whole of a time not for that. -/
theorem procV4_append {bytes : List Byte} (received : 20 ≤ bytes.length) (rest : List Byte) :
    (bytes ++ rest).getD 9 0 = bytes.getD 9 0 ∧ (bytes ++ rest).getD 8 0 = bytes.getD 8 0 ∧
      hlen1 (bytes ++ rest) = hlen1 bytes ∧
      (hlen1 bytes + 16 ≤ bytes.length →
        (icmpOf (bytes ++ rest)).getD 0 0 = (icmpOf bytes).getD 0 0 ∧
        icmpId endian (icmpOf (bytes ++ rest)) = icmpId endian (icmpOf bytes) ∧
        icmpSeq endian (icmpOf (bytes ++ rest)) = icmpSeq endian (icmpOf bytes)) ∧
      (hlen1 bytes + 24 ≤ bytes.length →
        ((icmpOf (bytes ++ rest)).drop 8).take 16 = ((icmpOf bytes).drop 8).take 16) := by
  have inHeader (i : Nat) (inside : i < 20) : (bytes ++ rest).getD i 0 = bytes.getD i 0 :=
    List.getD_append _ _ _ _ (inside.trans_le received)
  have length1 : hlen1 (bytes ++ rest) = hlen1 bytes := by
    rw [hlen1, hlen1, inHeader 0 (by decide)]
  refine ⟨inHeader 9 (by decide), inHeader 8 (by decide), length1, fun enough => ?_,
    fun whole => ?_⟩
  · have icmp : icmpOf (bytes ++ rest) = icmpOf bytes ++ rest := by
      rw [icmpOf, icmpOf, length1, List.drop_append_of_le_length (by omega)]
    have room : 8 ≤ (icmpOf bytes).length := by
      rw [icmpOf, List.length_drop]
      omega
    have inIcmp (i : Nat) (inside : i < 8) :
        (icmpOf bytes ++ rest).getD i 0 = (icmpOf bytes).getD i 0 :=
      List.getD_append _ _ _ _ (inside.trans_le room)
    rw [icmp]
    simp only [icmpId, icmpSeq, inIcmp 0 (by decide), inIcmp 4 (by decide), inIcmp 5 (by decide),
      inIcmp 6 (by decide), inIcmp 7 (by decide), and_self]
  · rw [icmpOf, icmpOf, length1, List.drop_drop, List.drop_drop,
      List.drop_append_of_le_length (by omega), List.take_append_of_le_length]
    rw [List.length_drop]
    omega

/-- What carries the identifier is reported. -/
theorem procV4_carried {bytes : List Byte} (received : 20 ≤ bytes.length)
    (carries : Carries endian getpid bytes) (rest : List Byte) (host : Host) (tvrecv : Timeval) :
    ∃ rtt, procV4 endian (pidOf getpid) verbose host (bytes ++ rest) bytes.length tvrecv =
        some (.reply (bytes.length - hlen1 bytes) host (icmpSeq endian (icmpOf bytes))
          (bytes.getD 8 0).toNat rtt) ∧
      (hlen1 bytes + 24 ≤ bytes.length →
        rtt = tvSub tvrecv (Timeval.load endian (((icmpOf bytes).drop 8).take 16))) := by
  obtain ⟨protocol, ttl, length1, icmp, time⟩ := procV4_append endian received rest
  obtain ⟨type, id, seq⟩ := icmp carries.enough
  have enough := carries.enough
  refine ⟨tvSub tvrecv (Timeval.load endian (((icmpOf (bytes ++ rest)).drop 8).take 16)), ?_,
    fun whole => by rw [time whole]⟩
  unfold procV4
  dsimp only
  rw [protocol, ttl, length1, type, id, seq, carries.p, carries.type, carries.id,
    if_neg (not_not.mpr rfl), if_neg (by omega), if_pos rfl, if_neg (not_not.mpr rfl),
    if_neg (by omega)]

/-- Nothing else is reported as an answer, whatever stands behind it. -/
theorem procV4_other {bytes : List Byte} (received : 20 ≤ bytes.length) (rest : List Byte)
    (host : Host) (tvrecv : Timeval) {report : Report Host}
    (printed : procV4 endian (pidOf getpid) verbose host (bytes ++ rest) bytes.length tvrecv =
      some report) (reply : IsReply report) : Carries endian getpid bytes := by
  obtain ⟨icmplen, host', seq, ttl, rtt, rfl⟩ := reply
  obtain ⟨protocol, -, length1, icmp, -⟩ := procV4_append endian received rest
  simp only [procV4, protocol, length1] at printed
  split_ifs at printed with notIcmp short type id cut verb
  · have enough : hlen1 bytes + 16 ≤ bytes.length := by omega
    obtain ⟨type', id', -⟩ := icmp enough
    rw [type'] at type
    rw [id'] at id
    exact ⟨not_not.mp notIcmp, enough, type, not_not.mp id⟩
  · cases printed

/-- An answer carries the identifier, the number of its request and the time of it. -/
theorem carries_answer (number : Nat) (sent : TimeOfDay) {sendbuf : List Byte}
    (room : 8 + datalen ≤ sendbuf.length)
    (answer : Answer (sendV4 endian (pidOf getpid) number sent.toTimeval sendbuf)) :
    (answer.packet.length = hlen1 answer.packet + 64 ∧ answer.packet.length ≤ bufsize ∧
        20 ≤ answer.packet.length) ∧
      Carries endian getpid answer.packet ∧
      icmpSeq endian (icmpOf answer.packet) = number % 65536 ∧
      Timeval.load endian (((icmpOf answer.packet).drop 8).take 16) = sent.toTimeval := by
  have hlen1 := answer.hlen1_packet []
  have protocol := answer.getD_packet [] (show 9 < 20 by decide)
  have bytes := answer_bytes endian (pidOf_lt getpid) number sent room answer []
  rw [List.append_nil] at hlen1 protocol bytes
  obtain ⟨length, type, id, seq, tvsend⟩ := bytes
  have shortest := answer.shortest
  have longest := answer.longest
  have fits : answer.packet.length ≤ bufsize := by
    rw [length, bufsize]
    omega
  have modulo : ((number : Int) % 65536).toNat = number % 65536 := by omega
  refine ⟨⟨by rw [hlen1, length], fits, by omega⟩, ⟨protocol.trans answer.p, ?_, type, id⟩,
    seq.trans modulo, tvsend⟩
  rw [hlen1, length]
  omega

theorem lawful_v4 :
    Lawful (protocolV4 endian getpid verbose : Protocol Host (Report Host))
      (meaningV4 endian getpid) where
  sendbuf nsent now sendbuf room :=
    length_fillCksum endian (length_request endian (pidOf getpid) nsent now room)
  answered number sent sendbuf packet room answers := by
    rw [sent_protocolV4] at answers
    obtain ⟨answer, rfl⟩ := answers
    obtain ⟨⟨length, fits, received⟩, carries, seq, tvsend⟩ :=
      carries_answer endian getpid number sent (enough_of_bufsize room) answer
    have whole : hlen1 answer.packet + 24 ≤ answer.packet.length := by omega
    exact ⟨fits, received, carries, whole, seq, tvsend⟩
  carried packet host rest tvrecv received carries :=
    procV4_carried endian getpid verbose received carries rest host tvrecv
  other packet host rest tvrecv report received printed reply :=
    procV4_other endian getpid verbose received rest host tvrecv printed reply
  failed host recvbuf tvrecv :=
    procV4_ignores endian (pidOf getpid) verbose host recvbuf (-1) tvrecv (.inr (.inl (by omega)))

end V4

/-- `ping` as it runs, whatever the network loses, repeats, reorders, forges or adds and wherever
the signal comes. What arrives is handed to `proc_v4` once and in order. For the answer to a request
the number of that request is printed, and the time between sending it and receiving the answer is
computed, but not printed. For any other packet a line about an answer is printed just where it
carries the identifier of the process, and with what stands in the packet. And every request sent
is the one of its number, and verifies. -/
theorem ping_reports (endian : Endian) (getpid : Nat) (verbose : Bool)
    {history : List (Event Host (Report Host))} {state : State Host}
    (run : Run (ping endian getpid verbose).system history state) :
    arrived history = processed history ++ (state.pc.inHand ++ state.queue) ∧
      (∀ before received tval printed after,
        history = before ++ .fproc received tval printed :: after →
          (∀ packet number, received = some packet → packet.answers = some number →
            ∃ time data ttl rtt, (sent before)[number]? = some (time, data) ∧
              printed = some (.reply 64 packet.host (number % 65536) ttl rtt) ∧
              rtt.total = tval.total - time.total ∧ time.total ≤ tval.total ∧
              ∀ (ntop : Host → List Char) (message : List Char),
                (Report.reply 64 packet.host (number % 65536) ttl rtt).line ntop message =
                  some (replyFront (ntop packet.host) (number % 65536) ttl ++
                    (message.take 3 ++ "s\n".toList))) ∧
          (∀ packet, received = some packet → Carries endian getpid packet.received →
            ∃ rtt, printed = some (.reply (packet.received.length - hlen1 packet.received)
                packet.host (icmpSeq endian (icmpOf packet.received))
                (packet.received.getD 8 0).toNat rtt) ∧
              (hlen1 packet.received + 24 ≤ packet.received.length →
                rtt = tvSub tval.toTimeval
                  (Timeval.load endian (((icmpOf packet.received).drop 8).take 16)))) ∧
          (∀ report, printed = some report → IsReply report →
            ∃ packet, received = some packet ∧ Carries endian getpid packet.received)) ∧
      ∀ (number : Nat) (time : TimeOfDay) (data : List Byte),
        (sent history)[number]? = some (time, data) →
          inCksum endian data (8 + datalen) = 0 ∧ ∃ sendbuf,
            data = sendV4 endian (pidOf getpid) number time.toTimeval sendbuf := by
  obtain ⟨order, reports, requests⟩ := pinger_reports (lawful_v4 endian getpid verbose) run
  refine ⟨order, fun before received tval printed after split => ?_, ?_⟩
  · obtain ⟨answer, others⟩ := reports before received tval printed after split
    refine ⟨fun packet number isPacket answers => ?_, others⟩
    obtain ⟨time, data, here, answers', report, later⟩ := answer packet number isPacket answers
    have here' : (sent history)[number]? = some (time, data) := by
      rw [split, sent_append, List.getElem?_append_left (List.getElem?_eq_some_iff.mp here).1]
      exact here
    obtain ⟨sendbuf, room, built⟩ := requests number time data here'
    rw [sent_protocolV4] at built
    subst built
    obtain ⟨answer', bytes⟩ := answers'
    obtain ⟨⟨length, -⟩, -⟩ :=
      carries_answer endian getpid number time (enough_of_bufsize room) answer'
    have icmplen : (packet.bytes.length : Int) - hlen1 packet.bytes = 64 := by
      rw [bytes, length]
      omega
    have printed64 : printed = some (.reply (packet.bytes.length - hlen1 packet.bytes) packet.host
        (number % 65536) (packet.bytes.getD 8 0).toNat
        (tvSub tval.toTimeval time.toTimeval)) := report
    rw [icmplen] at printed64
    exact ⟨time, _, _, _, here, printed64, (tvSub_total _ _).1, later, fun ntop message =>
      line_reply ntop message packet.host (Nat.mod_lt _ (by decide)) (UInt8.toNat_lt _) _⟩
  · intro number time data here
    obtain ⟨sendbuf, room, built⟩ := requests number time data here
    rw [sent_protocolV4] at built
    rw [built]
    refine ⟨inCksum_sendV4 endian _ _ _ sendbuf ?_, sendbuf, rfl⟩
    rw [length_request endian _ _ _ room]
    decide

/-- A request, another half a second later, and then a forged answer to an eighth and the answer to
the first. -/
theorem ping_reports_example :
    ∃ (before : List (Event Unit (Report Unit))) (forged packet : Packet Unit) (tval : TimeOfDay)
      (printed printed' : Option (Report Unit)) (state : State Unit),
      Run (ping .little 70000 false).system
        (before ++ [.fproc (some forged) tval printed] ++ [.fproc (some packet) tval printed'])
        state ∧
      (sent before).length = 2 ∧ forged.answers = none ∧
      (∃ rtt, printed = some (.reply 24 () 7 64 rtt)) ∧ packet.answers = some 0 ∧
      ∃ ttl rtt, printed' = some (.reply 64 () 0 ttl rtt) ∧ rtt.total = 500000 ∧
        (Report.reply 64 () 0 ttl rtt).line (fun _ => "10.0.0.1".toList) "Success".toList =
          some (replyFront "10.0.0.1".toList 0 ttl ++ "Sucs\n".toList) := by
  let first : TimeOfDay := ⟨⟨1000, 800000⟩, by decide, by decide, by decide, by decide⟩
  let second : TimeOfDay := ⟨⟨1001, 300000⟩, by decide, by decide, by decide, by decide⟩
  let header : List Byte := [0x46, 0, 0, 88, 0, 0, 0, 0, 64, 1] ++ List.replicate 14 0
  let forged : List Byte := [0x45, 0, 0, 44, 0, 0, 0, 0, 64, 1] ++ List.replicate 10 0 ++
    [icmpEchoreply, 0, 0, 0, 0x70, 0x11, 7, 0] ++ List.replicate 16 0
  let initial : State Unit :=
    { pc := .start, nsent := 0, sendbuf := List.replicate bufsize 0, recvbuf := [], n := 0
      sarecv := (), tval := first, armed := false, clock := first, wire := [], queue := [] }
  have begins : Run (ping .little 70000 false).system [] initial :=
    .start ⟨rfl, rfl, rfl, List.length_replicate, rfl, rfl, rfl⟩
  have start := Run.step begins (.instruction ⟨none, rfl⟩)
  have passes := Run.silent start (.outside (.passes _ second (by decide)))
  have sigalrm := Run.step passes (.delivery (.sigalrm rfl))
  have received : 20 ≤ (forged.take bufsize).length := by decide
  have other := Run.step sigalrm (.outside (.other _ () forged received))
  have answered := Run.step other (.outside (@Happens.answered _ _ _ _ 0 _ _ _ rfl ()
    ⟨⟨header, 0, (0, 0), by decide, by decide, by decide, by decide⟩, rfl⟩))
  have recvmsg := Run.silent answered (.instruction ⟨none, rfl⟩)
  have gettimeofday := Run.silent recvmsg (.instruction ⟨none, rfl⟩)
  have fproc := Run.step gettimeofday (.instruction ⟨none, rfl⟩)
  have recvmsg' := Run.silent fproc (.instruction ⟨none, rfl⟩)
  have gettimeofday' := Run.silent recvmsg' (.instruction ⟨none, rfl⟩)
  have fproc' := Run.step gettimeofday' (.instruction ⟨none, rfl⟩)
  obtain ⟨-, reports, -⟩ := ping_reports .little 70000 false fproc
  obtain ⟨-, reports', -⟩ := ping_reports .little 70000 false fproc'
  have carries : Carries .little 70000 forged := ⟨by decide, by decide, by decide, by decide⟩
  have whole : Packet.received ⟨(), none, forged⟩ = forged := by decide
  have icmplen : (forged.length : Int) - hlen1 forged = 24 := by decide
  have seq : icmpSeq .little (icmpOf forged) = 7 := by decide
  have ttl' : (forged.getD 8 0).toNat = 64 := by decide
  rw [← whole] at carries
  obtain ⟨rtt, printed, -⟩ := (reports _ _ _ _ [] rfl).2.1 _ rfl carries
  obtain ⟨time, data, ttl, rtt', here, printed', total, -, line⟩ :=
    (reports' _ _ _ _ [] rfl).1 _ 0 rfl rfl
  have text : "Success".toList.take 3 ++ "s\n".toList = "Sucs\n".toList := by decide
  refine ⟨_, _, _, _, _, _, _, fproc', rfl, rfl, ⟨rtt, printed.trans ?_⟩, rfl, ttl, rtt', printed',
    ?_, ?_⟩
  · rw [whole, icmplen, seq, ttl']
  · obtain ⟨rfl, -⟩ := Prod.mk.inj (Option.some.inj here)
    exact total
  · rw [← text]
    exact line _ _

end SocketProgram.PingLoop
