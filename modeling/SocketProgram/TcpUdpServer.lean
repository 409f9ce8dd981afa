/-
This file is about `udpcliserv/udpservselect01.c`, which serves TCP and UDP on the same port.
One `select` waits for the listening socket and the UDP socket. A connection is accepted and
given to a child of its own as in `tcpserv01.c`; a datagram is sent back by the parent itself.

Without the UDP socket the server is `tcpserv01.c`: every run of the one is a run of the other,
once what it does about datagrams is left out. The datagrams are sent back one by one in the
order they are received, and the parent never waits for one in `recvfrom`. It waits in `accept`
only where a connection that `select` has reported is gone again.
-/

import SocketProgram.ForkServer

namespace SocketProgram.TcpUdpServer

open Descriptors Memory Runs Workers
open EchoSystem (Server)
open ForkServer (File Child lookup closeFd nothingOpen tcpserv01 forkServer)
open StrEcho (Call strEcho)

/-! ### The program -/

/-- A datagram, with the address it comes from or goes to. -/
structure Datagram (Address : Type*) where
  address : Address
  data : List Byte
  deriving DecidableEq, Repr

/-- What the two bits of `rset` are. -/
structure FdSet where
  listenfd : Bool
  udpfd : Bool
  deriving DecidableEq, Repr

/-- Where the parent is: the statement of the `for(;;)` it executes next. -/
inductive Pc
  | setListen
  | setUdp
  | select
  | testListen
  | accept
  | fork (connfd : Option Nat)
  | close (connfd : Option Nat)
  | testUdp
  | recvfrom
  | sendto
  | returned
  deriving DecidableEq, Repr

/-- The parent and its children, and what waits for the parent: how many connections can be
accepted, and the datagrams in the receive queue. -/
structure State (Address : Type*) where
  pc : Pc
  rset : FdSet
  table : Table File
  mesg : List Byte
  n : Int
  cliaddr : Address
  children : List Child
  connections : Nat
  pending : Nat
  queue : List (Datagram Address)

/-- What is seen besides a child being forked and its calls: what is seen of the TCP side, and what
is seen of the UDP side and of `select`. A call of `sendto` may fail. -/
inductive Seen (Address : Type*)
  | tcp (event : ForkServer.Other)
  | connects
  | aborts
  | selectError (errno : Errno)
  | arrives (datagram : Datagram Address)
  | recvfrom (datagram : Datagram Address)
  | recvfromError (errno : Errno)
  | sendto (datagram : Datagram Address) (sent : Bool)
  | sendtoError
  deriving DecidableEq

variable {Address : Type*}

abbrev Event (Address : Type*) := Workers.Event File Call (Seen Address)

/-- `select(maxfdp1,&rset,NULL,NULL,NULL)`: the descriptors of `rset` that can be read, when there
are any. -/
def State.readable (state : State Address) : Option FdSet :=
  let ready : FdSet :=
    { listenfd := state.rset.listenfd && decide (0 < state.pending)
      udpfd := state.rset.udpfd && !state.queue.isEmpty }
  if ready.listenfd || ready.udpfd then some ready else none

/-- The state with this child in its place. -/
def State.setChild (state : State Address) (place : Nat) (child : Child) : State Address :=
  { state with children := state.children.set place child }

/-- One step of one of the processes, or of what is around them. -/
inductive Step (listenfd : Nat) : State Address → List (Event Address) → State Address → Prop
  | setListen {state : State Address} (pc : state.pc = .setListen) :
      Step listenfd state []
        { state with pc := .setUdp, rset := { state.rset with listenfd := true } }
  | setUdp {state : State Address} (pc : state.pc = .setUdp) :
      Step listenfd state []
        { state with pc := .select, rset := { state.rset with udpfd := true } }
  | select {state : State Address} {ready : FdSet} (pc : state.pc = .select)
      (readable : state.readable = some ready) :
      Step listenfd state [] { state with pc := .testListen, rset := ready }
  | selectAgain {state : State Address} (pc : state.pc = .select) :
      Step listenfd state [.other (.selectError .eintr)] { state with pc := .setListen }
  | selectLeave {state : State Address} {errno : Errno} (pc : state.pc = .select)
      (other : errno ≠ .eintr) :
      Step listenfd state [.other (.selectError errno)] { state with pc := .returned }
  | testListen {state : State Address} (pc : state.pc = .testListen) :
      Step listenfd state []
        { state with pc := if state.rset.listenfd then .accept else .testUdp }
  | accept {state : State Address} {pending : Nat} (client : Address) (pc : state.pc = .accept)
      (some' : state.pending = pending + 1) :
      Step listenfd state [.other (.tcp (.accepted state.connections))]
        { state with
          pc := .fork (some state.table.lowest)
          table := state.table.install (.connection state.connections)
          cliaddr := client
          connections := state.connections + 1
          pending := pending }
  | acceptError {state : State Address} {errno : Errno} (pc : state.pc = .accept) :
      Step listenfd state [.other (.tcp (.acceptError errno))] { state with pc := .fork none }
  | fork {state : State Address} {connfd : Option Nat} (buf : List Byte)
      (pc : state.pc = .fork connfd) :
      Step listenfd state [.started state.children.length (lookup state.table connfd)]
        { state with
          pc := .close connfd
          children := state.children ++
            [{ pc := .closing
               connfd := connfd
               table := state.table
               server := { pc := .reading, buf := buf, stdout := [] } }] }
  | forkError {state : State Address} {connfd : Option Nat} (pc : state.pc = .fork connfd) :
      Step listenfd state [.other (.tcp .forkError)] { state with pc := .close connfd }
  | close {state : State Address} {connfd : Option Nat} (pc : state.pc = .close connfd) :
      Step listenfd state [.other (.tcp (.closed (lookup state.table connfd)))]
        { state with pc := .testUdp, table := closeFd state.table connfd }
  | testUdp {state : State Address} (pc : state.pc = .testUdp) :
      Step listenfd state []
        { state with pc := if state.rset.udpfd then .recvfrom else .setListen }
  | recvfrom {state : State Address} {datagram : Datagram Address}
      {rest : List (Datagram Address)} (pc : state.pc = .recvfrom)
      (first : state.queue = datagram :: rest) :
      Step listenfd state [.other (.recvfrom datagram)]
        { state with
          pc := .sendto
          mesg := overwrite state.mesg 0 (datagram.data.take maxline)
          n := (datagram.data.take maxline).length
          cliaddr := datagram.address
          queue := rest }
  | recvfromError {state : State Address} {errno : Errno} (pc : state.pc = .recvfrom) :
      Step listenfd state [.other (.recvfromError errno)] { state with pc := .sendto, n := -1 }
  | sendto {state : State Address} (sent : Bool) (pc : state.pc = .sendto) (size : 0 ≤ state.n) :
      Step listenfd state
        [.other (.sendto ⟨state.cliaddr, state.mesg.take state.n.toNat⟩ sent)]
        { state with pc := .setListen }
  | sendtoError {state : State Address} (pc : state.pc = .sendto) (size : state.n < 0) :
      Step listenfd state [.other .sendtoError] { state with pc := .setListen }
  | closeListenfd {state : State Address} {place : Nat} {child : Child}
      (there : state.children[place]? = some child) (pc : child.pc = .closing) :
      Step listenfd state []
        (state.setChild place
          { child with pc := .serving, table := child.table.close listenfd })
  | call {state : State Address} {place : Nat} {child : Child} {call : Call} {server : Server}
      (there : state.children[place]? = some child) (pc : child.pc = .serving)
      (steps : StrEcho.Step child.server call server)
      (answers : ForkServer.Answers (lookup child.table child.connfd) call) :
      Step listenfd state [.call place (lookup child.table child.connfd) call]
        (state.setChild place { child with server := server })
  | exit {state : State Address} {place : Nat} {child : Child}
      (there : state.children[place]? = some child) (pc : child.pc = .serving)
      (returned : child.server.pc = .returned) :
      Step listenfd state [.other (.tcp (.exited place))]
        (state.setChild place { child with pc := .exited, table := nothingOpen })
  | connects (state : State Address) :
      Step listenfd state [.other .connects] { state with pending := state.pending + 1 }
  | aborts {state : State Address} {pending : Nat} (some' : state.pending = pending + 1) :
      Step listenfd state [.other .aborts] { state with pending := pending }
  | arrives (state : State Address) (datagram : Datagram Address) :
      Step listenfd state [.other (.arrives datagram)]
        { state with queue := state.queue ++ [datagram] }

/-- The server from its `for(;;)` on. -/
def udpservselect01 (base : Table File) (listenfd : Nat) :
    System (State Address) (Event Address) where
  start history state :=
    history = [] ∧ state.pc = .setListen ∧ state.rset = ⟨false, false⟩ ∧ state.table = base ∧
      state.children = [] ∧ state.connections = 0 ∧ state.pending = 0 ∧ state.queue = []
  step := Step listenfd

/-! ### The TCP side -/

/-- Where `tcpserv01.c` would be. -/
def Pc.tcp : Pc → ForkServer.ParentPc
  | .fork connfd => .fork connfd
  | .close connfd => .close connfd
  | _ => .accept

/-- The processes without the UDP side. -/
def State.tcp (state : State Address) : ForkServer.State where
  parent := { pc := state.pc.tcp, table := state.table }
  children := state.children
  connections := state.connections

/-- What is seen of the TCP side. -/
def shows : Event Address → Option ForkServer.Event
  | .started worker resource => some (.started worker resource)
  | .call worker resource call => some (.call worker resource call)
  | .other (.tcp event) => some (.other event)
  | .other _ => none

/-- Some process has a descriptor of the file. -/
def State.Open (state : State Address) (file : File) : Prop :=
  (state.pc ≠ .returned ∧ state.table.Refers file) ∨
    ∃ (place : Nat) (child : Child), state.children[place]? = some child ∧
      child.table.Refers file

section Tcp

variable {base : Table File} {listenfd : Nat} {history events : List (Event Address)}
  {state next : State Address}

/-- The parent goes from one statement to another that `tcpserv01.c` does not have. -/
theorem tcp_same (children : next.children = state.children) (table : next.table = state.table)
    (connections : next.connections = state.connections) (pc : next.pc.tcp = state.pc.tcp) :
    next.tcp = state.tcp := by
  rw [State.tcp, State.tcp, children, table, connections, pc]

/-- A step is one of `tcpserv01.c`, or there is nothing to see of it on the TCP side. -/
theorem matched_step (step : Step listenfd state events next) :
    events.filterMap shows = [] ∧ next.tcp = state.tcp ∨
      ForkServer.Step tcpserv01 listenfd state.tcp (events.filterMap shows) next.tcp := by
  cases step with
  | setListen pc | setUdp pc | select pc readable | selectAgain pc | selectLeave pc other
  | recvfrom pc first | recvfromError pc | sendto sent pc size | sendtoError pc size =>
    exact .inl ⟨rfl, tcp_same rfl rfl rfl (by rw [pc]; rfl)⟩
  | testListen pc | testUdp pc =>
    refine .inl ⟨rfl, tcp_same rfl rfl rfl ?_⟩
    rw [pc]
    dsimp only
    split <;> rfl
  | connects | aborts some' | arrives datagram => exact .inl ⟨rfl, rfl⟩
  | accept client pc some' =>
    have atAccept : state.tcp.parent.pc = .accept := congrArg Pc.tcp pc
    exact .inr (.accept atAccept)
  | acceptError pc =>
    have atAccept : state.tcp.parent.pc = .accept := congrArg Pc.tcp pc
    exact .inr (.acceptGoOn atAccept rfl)
  | fork buf pc =>
    have atFork : state.tcp.parent.pc = .fork _ := congrArg Pc.tcp pc
    exact .inr (.fork buf atFork)
  | forkError pc =>
    have atFork : state.tcp.parent.pc = .fork _ := congrArg Pc.tcp pc
    exact .inr (.forkError atFork)
  | close pc =>
    have atClose : state.tcp.parent.pc = .close _ := congrArg Pc.tcp pc
    exact .inr (.close atClose)
  | closeListenfd there pc => exact .inr (@ForkServer.Step.closeListenfd _ _ state.tcp _ _ there pc)
  | call there pc steps answers =>
    exact .inr (@ForkServer.Step.call _ _ state.tcp _ _ _ _ there pc steps answers)
  | exit there pc returned =>
    exact .inr (@ForkServer.Step.exit _ _ state.tcp _ _ there pc returned)

/-- Without its UDP side, a run of the server is one of `tcpserv01.c`. -/
theorem run_tcp (run : Run (udpservselect01 base listenfd) history state) :
    Run (forkServer tcpserv01 base listenfd) (history.filterMap shows) state.tcp := by
  refine run.simulates State.tcp shows ?_ fun _ _ _ _ _ step => matched_step step
  rintro _ ⟨pc, rset, table, mesg, n, cliaddr, children, connections, pending, queue⟩
    ⟨rfl, rfl, -, rfl, rfl, rfl, -, -⟩
  exact ⟨rfl, rfl⟩

theorem callsOn_shows (file : File) (history : List (Event Address)) :
    callsOn file (history.filterMap shows) = callsOn file history := by
  rw [callsOn, callsOn, List.filterMap_filterMap]
  refine List.filterMap_congr fun event _ => ?_
  cases event with
  | started worker resource | call worker resource call => rfl
  | other seen => cases seen <;> rfl

theorem other_mem_shows {seen : ForkServer.Other} :
    .other seen ∈ history.filterMap shows ↔ .other (.tcp seen) ∈ history := by
  rw [List.mem_filterMap]
  constructor
  · rintro ⟨event, member, shown⟩
    cases event with
    | started | call => cases shown
    | other event =>
      cases event with
      | tcp event =>
        cases shown
        exact member
      | _ => cases shown
  · exact fun member => ⟨_, member, rfl⟩

theorem started_mem_shows {child : Nat} {resource : Option File} :
    .started child resource ∈ history.filterMap shows ↔ .started child resource ∈ history := by
  rw [List.mem_filterMap]
  constructor
  · rintro ⟨event, member, shown⟩
    cases event with
    | started =>
      cases shown
      exact member
    | call => cases shown
    | other event => cases event <;> cases shown
  · exact fun member => ⟨_, member, rfl⟩

end Tcp

/-! ### The UDP side -/

/-- The datagrams that have arrived. -/
def arrived (history : List (Event Address)) : List (Datagram Address) :=
  history.filterMap fun
    | .other (.arrives datagram) => some datagram
    | _ => none

/-- The datagrams that have been received. -/
def received (history : List (Event Address)) : List (Datagram Address) :=
  history.filterMap fun
    | .other (.recvfrom datagram) => some datagram
    | _ => none

/-- The datagrams that `sendto` has been called for. -/
def sentBack (history : List (Event Address)) : List (Datagram Address) :=
  history.filterMap fun
    | .other (.sendto datagram _) => some datagram
    | _ => none

/-- What there is room for in `mesg`. -/
def Datagram.truncate (datagram : Datagram Address) : Datagram Address :=
  { datagram with data := datagram.data.take maxline }

/-- The datagram that has been received and not sent back. -/
def State.inHand (state : State Address) : List (Datagram Address) :=
  if state.pc = .sendto ∧ 0 ≤ state.n then [⟨state.cliaddr, state.mesg.take state.n.toNat⟩] else []

/-- What `select` has said holds until the parent acts on it, unless a connection is gone again. -/
def State.Ready (state : State Address) (noneGone : Prop) : Prop :=
  match state.pc with
  | .setUdp => state.rset.listenfd = true
  | .select => state.rset = ⟨true, true⟩
  | .testListen => (noneGone → state.rset.listenfd = true → 0 < state.pending) ∧
      (state.rset.udpfd = true → state.queue ≠ [])
  | .accept => (noneGone → 0 < state.pending) ∧ (state.rset.udpfd = true → state.queue ≠ [])
  | .fork _ | .close _ | .testUdp => state.rset.udpfd = true → state.queue ≠ []
  | .recvfrom => state.queue ≠ []
  | .setListen | .sendto | .returned => True

/-- What every run keeps. -/
structure Inv (history : List (Event Address)) (state : State Address) : Prop where
  queue : arrived history = received history ++ state.queue
  order : (received history).map Datagram.truncate = sentBack history ++ state.inHand
  ready : state.Ready (.other .aborts ∉ history)

section Udp

variable {listenfd : Nat} {history events : List (Event Address)} {state next : State Address}

@[simp]
theorem arrived_append : arrived (history ++ events) = arrived history ++ arrived events :=
  List.filterMap_append

@[simp]
theorem received_append : received (history ++ events) = received history ++ received events :=
  List.filterMap_append

@[simp]
theorem sentBack_append : sentBack (history ++ events) = sentBack history ++ sentBack events :=
  List.filterMap_append

theorem inHand_of_ne {pc : Pc} (here : state.pc = pc) (elsewhere : pc ≠ .sendto) :
    state.inHand = [] := if_neg fun both => elsewhere (here.symm.trans both.1)

/-- `select` returns only descriptors that can be read. -/
theorem readable_eq_some {ready : FdSet} (readable : state.readable = some ready) :
    (ready.listenfd = true → 0 < state.pending) ∧ (ready.udpfd = true → state.queue ≠ []) := by
  simp only [State.readable] at readable
  split_ifs at readable
  obtain rfl := Option.some.inj readable
  refine ⟨fun listenfd => ?_, fun udpfd empty => ?_⟩
  · simp only [Bool.and_eq_true, decide_eq_true_eq] at listenfd
    exact listenfd.2
  · simp [empty] at udpfd

/-- More datagrams do not make it wrong, nor do more connections. -/
theorem State.Ready.grows {noneGone noneGone' : Prop} (ready : state.Ready noneGone)
    (pc : next.pc = state.pc) (rset : next.rset = state.rset)
    (queue : state.queue ≠ [] → next.queue ≠ [])
    (pending : noneGone' → noneGone ∧ (0 < state.pending → 0 < next.pending)) :
    next.Ready noneGone' := by
  unfold State.Ready at ready ⊢
  rw [pc, rset]
  cases here : state.pc with
  | setListen | sendto | returned => trivial
  | setUdp | select =>
    rw [here] at ready
    exact ready
  | testListen =>
    rw [here] at ready
    exact ⟨fun none listenfd => (pending none).2 (ready.1 (pending none).1 listenfd),
      fun udpfd => queue (ready.2 udpfd)⟩
  | accept =>
    rw [here] at ready
    exact ⟨fun none => (pending none).2 (ready.1 (pending none).1),
      fun udpfd => queue (ready.2 udpfd)⟩
  | fork | close | testUdp =>
    rw [here] at ready
    exact fun udpfd => queue (ready udpfd)
  | recvfrom =>
    rw [here] at ready
    exact queue ready

/-- Nothing happens to the datagrams. -/
theorem Inv.moves (inv : Inv history state)
    (silent : arrived events = [] ∧ received events = [] ∧ sentBack events = [])
    (queue : next.queue = state.queue) (inHand : next.inHand = state.inHand)
    (ready : next.Ready (.other .aborts ∉ history ++ events)) : Inv (history ++ events) next := by
  obtain ⟨noArrived, noReceived, noSent⟩ := silent
  refine ⟨?_, ?_, ready⟩
  · rw [arrived_append, received_append, noArrived, noReceived, List.append_nil, List.append_nil,
      queue]
    exact inv.queue
  · rw [received_append, sentBack_append, noReceived, noSent, List.append_nil, List.append_nil,
      inHand]
    exact inv.order

/-- The parent goes on without a datagram in hand. -/
theorem Inv.parent (inv : Inv history state)
    (silent : arrived events = [] ∧ received events = [] ∧ sentBack events = []) {pc : Pc}
    (here : state.pc = pc) (elsewhere : pc ≠ .sendto) (queue : next.queue = state.queue)
    (after : next.pc ≠ .sendto) (ready : next.Ready (.other .aborts ∉ history ++ events)) :
    Inv (history ++ events) next := by
  refine inv.moves silent queue ?_ ready
  rw [inHand_of_ne rfl after, inHand_of_ne here elsewhere]

/-- A child goes on. -/
theorem Inv.child (inv : Inv history state)
    (silent : arrived events = [] ∧ received events = [] ∧ sentBack events = [])
    (place : Nat) (child : Child) : Inv (history ++ events) (state.setChild place child) :=
  inv.moves silent rfl rfl (inv.ready.grows rfl rfl id fun none =>
    ⟨fun member => none (List.mem_append_left _ member), id⟩)

theorem inv_step (inv : Inv history state) (step : Step listenfd state events next) :
    Inv (history ++ events) next := by
  have ready := inv.ready
  have before (none : .other .aborts ∉ history ++ events) : .other .aborts ∉ history :=
    fun member => none (List.mem_append_left _ member)
  unfold State.Ready at ready
  cases step with
  | setListen pc => exact inv.parent ⟨rfl, rfl, rfl⟩ pc nofun rfl nofun rfl
  | setUdp pc =>
    rw [pc] at ready
    exact inv.parent ⟨rfl, rfl, rfl⟩ pc nofun rfl nofun (congrArg (FdSet.mk · true) ready)
  | select pc readable =>
    obtain ⟨listenfd, udpfd⟩ := readable_eq_some readable
    exact inv.parent ⟨rfl, rfl, rfl⟩ pc nofun rfl nofun ⟨fun _ => listenfd, udpfd⟩
  | selectAgain pc => exact inv.parent ⟨rfl, rfl, rfl⟩ pc nofun rfl nofun trivial
  | selectLeave pc other => exact inv.parent ⟨rfl, rfl, rfl⟩ pc nofun rfl nofun trivial
  | testListen pc =>
    rw [pc] at ready
    obtain ⟨tcp, udp⟩ := ready
    cases listenfd : state.rset.listenfd with
    | true =>
      exact inv.parent ⟨rfl, rfl, rfl⟩ pc nofun rfl nofun
        ⟨fun none => tcp (before none) listenfd, udp⟩
    | false => exact inv.parent ⟨rfl, rfl, rfl⟩ pc nofun rfl nofun udp
  | accept client pc some' =>
    rw [pc] at ready
    exact inv.parent ⟨rfl, rfl, rfl⟩ pc nofun rfl nofun ready.2
  | acceptError pc =>
    rw [pc] at ready
    exact inv.parent ⟨rfl, rfl, rfl⟩ pc nofun rfl nofun ready.2
  | fork buf pc =>
    rw [pc] at ready
    exact inv.parent ⟨rfl, rfl, rfl⟩ pc nofun rfl nofun ready
  | forkError pc =>
    rw [pc] at ready
    exact inv.parent ⟨rfl, rfl, rfl⟩ pc nofun rfl nofun ready
  | close pc =>
    rw [pc] at ready
    exact inv.parent ⟨rfl, rfl, rfl⟩ pc nofun rfl nofun ready
  | testUdp pc =>
    rw [pc] at ready
    cases udpfd : state.rset.udpfd with
    | true => exact inv.parent ⟨rfl, rfl, rfl⟩ pc nofun rfl nofun (ready udpfd)
    | false => exact inv.parent ⟨rfl, rfl, rfl⟩ pc nofun rfl nofun trivial
  | @recvfrom datagram rest pc first =>
    obtain ⟨queue, order, -⟩ := inv
    rw [inHand_of_ne pc nofun, List.append_nil] at order
    refine ⟨?_, ?_, trivial⟩
    · rw [arrived_append, received_append, queue, first]
      exact (List.append_nil _).trans (List.append_assoc _ [datagram] rest).symm
    · rw [received_append, sentBack_append, List.map_append, order]
      show sentBack history ++ [datagram.truncate] = (sentBack history ++ []) ++ State.inHand _
      rw [List.append_nil, State.inHand, if_pos ⟨rfl, Int.natCast_nonneg _⟩, Int.toNat_natCast,
        take_overwrite_zero]
      rfl
  | recvfromError pc =>
    refine inv.moves ⟨rfl, rfl, rfl⟩ rfl ?_ trivial
    rw [inHand_of_ne pc nofun]
    exact if_neg fun both => absurd both.2 (show ¬ (0 : Int) ≤ -1 by decide)
  | sendto sent pc size =>
    obtain ⟨queue, order, -⟩ := inv
    rw [State.inHand, if_pos ⟨pc, size⟩] at order
    refine ⟨?_, ?_, trivial⟩
    · rw [arrived_append, received_append, queue]
      exact (List.append_nil _).trans (congrArg (· ++ state.queue) (List.append_nil _).symm)
    · rw [received_append, sentBack_append, List.map_append, order]
      rfl
  | sendtoError pc size =>
    refine inv.moves ⟨rfl, rfl, rfl⟩ rfl ?_ trivial
    exact (if_neg fun both => absurd both.2 (Int.not_le.mpr size)).symm
  | closeListenfd there pc => exact inv.child ⟨rfl, rfl, rfl⟩ _ _
  | call there pc steps answers => exact inv.child ⟨rfl, rfl, rfl⟩ _ _
  | exit there pc returned => exact inv.child ⟨rfl, rfl, rfl⟩ _ _
  | connects =>
    exact inv.moves ⟨rfl, rfl, rfl⟩ rfl rfl (inv.ready.grows rfl rfl id fun none =>
      ⟨before none, fun _ => Nat.succ_pos _⟩)
  | aborts some' =>
    exact inv.moves ⟨rfl, rfl, rfl⟩ rfl rfl (inv.ready.grows rfl rfl id fun none =>
      absurd (List.mem_append_right _ (List.mem_singleton_self _)) none)
  | arrives datagram =>
    obtain ⟨queue, order, still⟩ := inv
    refine ⟨?_, ?_, still.grows rfl rfl (fun _ => ?_) fun none => ⟨before none, id⟩⟩
    · rw [arrived_append, received_append, queue]
      show _ ++ [datagram] = (_ ++ []) ++ (_ ++ _)
      rw [List.append_nil, List.append_assoc]
    · rw [received_append, sentBack_append]
      show (received history ++ []).map _ = (sentBack history ++ []) ++ state.inHand
      rw [List.append_nil, List.append_nil]
      exact order
    · exact List.append_ne_nil_of_right_ne_nil state.queue (List.cons_ne_nil datagram [])

theorem inv_of_run {base : Table File} (run : Run (udpservselect01 base listenfd) history state) :
    Inv history state := by
  refine run.invariant Inv ?_ fun _ _ _ _ => inv_step
  rintro _ ⟨pc, rset, table, mesg, n, cliaddr, children, connections, pending, queue⟩
    ⟨rfl, rfl, -, -, -, -, -, rfl⟩
  exact ⟨rfl, rfl, trivial⟩

end Udp

/-- Whatever is done about connections in between, `sendto` is called for every datagram that is
received, once and in order, with the address it came from and as much of it as there is room for;
and every datagram that arrives is received, in order, or still waits. The parent calls `recvfrom`
only where there is a datagram, and `accept` only where there is a connection, unless one was gone
again before it was accepted. -/
theorem datagrams_echoed (base : Table File) (listenfd : Nat) {history : List (Event Address)}
    {state : State Address} (run : Run (udpservselect01 base listenfd) history state) :
    arrived history = received history ++ state.queue ∧
      (received history).map Datagram.truncate = sentBack history ++ state.inHand ∧
      (state.pc = .recvfrom → state.queue ≠ []) ∧
      (state.pc = .accept → .other .aborts ∉ history → 0 < state.pending) := by
  obtain ⟨queue, order, ready⟩ := inv_of_run run
  unfold State.Ready at ready
  refine ⟨queue, order, fun pc => ?_, fun pc none => ?_⟩
  · rw [pc] at ready
    exact ready
  · rw [pc] at ready
    exact ready.1 none

/-- A call on a connection. -/
theorem step_call {listenfd place : Nat} {state : State Address} {child : Child} {call : Call}
    {server : Server} {file : File} (there : state.children[place]? = some child)
    (pc : child.pc = .serving) (held : lookup child.table child.connfd = some file)
    (steps : StrEcho.Step child.server call server) :
    Step listenfd state [.call place (some file) call]
      (state.setChild place { child with server := server }) := by
  have answers : ForkServer.Answers (lookup child.table child.connfd) call := by
    rw [held]
    exact trivial
  have step : Step listenfd state _ _ := .call there pc steps answers
  rwa [held] at step

/-- A datagram and a connection come together, and the parent deals with both in one round. The
child reads two bytes and has written the first of them when the parent sends the datagram back. -/
theorem run_both : ∃ (history : List (Event Unit)) (state : State Unit),
    Run (udpservselect01 ForkServer.table3 3) history state ∧ 0 < state.connections ∧
      sentBack history = [⟨(), [104]⟩] ∧
      .started 0 (some (.connection 0)) ∈ history ∧ .other (.tcp (.exited 0)) ∉ history ∧
      callsOn (.connection 0) history =
        [.read (.data [97, 98]), .write [97, 98] (.wrote 1)] := by
  have start : Run (udpservselect01 ForkServer.table3 3) []
      { pc := .setListen, rset := ⟨false, false⟩, table := ForkServer.table3, mesg := [], n := 0
        cliaddr := (), children := [], connections := 0, pending := 0, queue := [] } :=
    .start ⟨rfl, rfl, rfl, rfl, rfl, rfl, rfl, rfl⟩
  have waiting := (start.step (.arrives _ ⟨(), [104]⟩)).step (.connects _)
  have selected := ((waiting.step (.setListen rfl)).step (.setUdp rfl)).step (.select rfl rfl)
  have accepted := (selected.step (.testListen rfl)).step (.accept () rfl rfl)
  have closed := (accepted.step (.fork [] rfl)).step (.close rfl)
  have received := (closed.step (.testUdp rfl)).step (.recvfrom rfl rfl)
  have serving := received.step (@Step.closeListenfd _ _ _ 0 _ rfl rfl)
  have held := ForkServer.lookup_serving ForkServer.listening_table3 (.connection 0)
  have nonempty : ([97, 98] : List Byte) ≠ [] := List.cons_ne_nil 97 [98]
  have fits : (ReadOutcome.data [97, 98]).Fits maxline := show 2 ≤ maxline by decide
  have reads := serving.step (@step_call _ _ 0 _ _ _ _ _ rfl rfl held (.read rfl fits))
  have writes := reads.step (@step_call _ _ 0 _ _ _ _ _ rfl rfl held
    (StrEcho.step_piece _ nonempty (show (WriteOutcome.wrote 1).Fits 2 from Nat.le_succ 1)))
  have started : lookup (ForkServer.table3.install (.connection 0))
      (some ForkServer.table3.lowest) = some (.connection 0) := Table.file_install_lowest _ _
  refine ⟨_, _, writes.step (.sendto true rfl (by decide)), Nat.one_pos, rfl, ?_, ?_, rfl⟩
  · simp [started]
  · simp

theorem datagrams_echoed_both : ∃ (history : List (Event Unit)) (state : State Unit),
    sentBack history = [⟨(), [104]⟩] ∧
      (received history).map Datagram.truncate = sentBack history ++ state.inHand := by
  obtain ⟨history, state, run, -, sent, -⟩ := run_both
  exact ⟨history, state, sent, (datagrams_echoed ForkServer.table3 3 run).2.1⟩

/-- A connection is served as `tcpserv01.c` serves it, whatever datagrams come in between: the calls
on it are those of one `str_echo`, and what has been written is a first part of what has been read,
if the connection takes nothing after a `write` that fails. It is open until the parent has closed
it, or returned, and its child has exited. -/
theorem connection_served {base : Table File} {listenfd number : Nat}
    {history : List (Event Address)} {state : State Address}
    (listening : ForkServer.Listening base listenfd)
    (run : Run (udpservselect01 base listenfd) history state)
    (below : number < state.connections) :
    (∃ server, Run strEcho (callsOn (.connection number) history) server) ∧
      (StrEcho.FailsForGood (callsOn (.connection number) history) →
        StrEcho.sent (callsOn (.connection number) history) <+:
          StrEcho.received (callsOn (.connection number) history)) ∧
      (state.Open (.connection number) ↔
        .other (.tcp (.closed (some (.connection number)))) ∉ history ∨
          ∃ child, .started child (some (.connection number)) ∈ history ∧
            .other (.tcp (.exited child)) ∉ history) := by
  have tcp := run_tcp run
  obtain ⟨server, run'⟩ := ForkServer.run_connection listening tcp number
  rw [callsOn_shows] at run'
  have parent := ForkServer.parent_refers_iff listening tcp below
  have children := ForkServer.children_refer_iff listening tcp number
  rw [other_mem_shows] at parent
  simp only [started_mem_shows, other_mem_shows] at children
  refine ⟨⟨server, run'⟩, fun forGood => (StrEcho.inv_of_run run' forGood).front, ?_⟩
  rw [State.Open, ← parent, ← children]
  refine or_congr ⟨fun both => both.2, fun refers => ⟨fun returned => ?_, refers⟩⟩ Iff.rfl
  have atAccept : state.tcp.parent.pc = .accept := congrArg Pc.tcp returned
  have same := ForkServer.parent_accepting listening tcp atAccept
  exact ForkServer.not_refers_base listening same number refers

theorem connection_served_both : ∃ (history : List (Event Unit)) (state : State Unit),
    sentBack history = [⟨(), [104]⟩] ∧
      callsOn (.connection 0) history = [.read (.data [97, 98]), .write [97, 98] (.wrote 1)] ∧
      (∃ server, Run strEcho (callsOn (.connection 0) history) server) ∧
      StrEcho.sent (callsOn (.connection 0) history) <+:
        StrEcho.received (callsOn (.connection 0) history) ∧
      state.Open (.connection 0) := by
  obtain ⟨history, state, run, below, sent, started, alive, calls⟩ := run_both
  obtain ⟨served, front, open'⟩ := connection_served ForkServer.listening_table3 run below
  refine ⟨history, state, sent, calls, served, front ?_, open'.mpr (.inr ⟨0, started, alive⟩)⟩
  rw [calls]
  decide

end SocketProgram.TcpUdpServer
