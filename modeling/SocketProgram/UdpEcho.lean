/-
This file is about the UDP clients of `udpcliserv/udpcli01.c` and `udpcliserv/dgcliconnect.c`, any
number of them, and the one server of `udpcliserv/udpserv01.c` they talk to. The network may lose,
delay and reorder datagrams, but it does not duplicate any, and strangers may send datagrams to
a client. The first client takes them; the socket of the second is connected, so its kernel does
not.

The server keeps nothing of a client but the address a datagram has come from, and that is where it
sends it back. A client that gets nothing from strangers prints its own lines in order, whatever
the others do, and has printed its whole file when it returns. But there is no timeout: once a
datagram of its own is lost it waits for good. Nor is the result of `recvfrom` tested: a client for
which it fails stores a byte in front of `recvline`, and prints what it finds there.
-/

import Mathlib.Algebra.Order.Group.Multiset
import Mathlib.Data.Multiset.Filter
import Mathlib.Tactic.Abel
import SocketProgram.Library.Runs
import SocketProgram.Stdio

namespace SocketProgram.UdpEcho

open Memory Runs

/-! ### A client -/

/-- The two versions of `dg_cli`. -/
inductive Version
  | udpcli01
  | dgcliconnect
  deriving DecidableEq, Repr

/-- Where `dg_cli` is: the statement it executes next. -/
inductive ClientPc
  | gets
  | sendto
  | recvfrom
  | terminate
  | print
  | returned
  deriving DecidableEq, Repr

/-- `dg_cli`. -/
structure Client where
  pc : ClientPc
  fp : List Byte
  sendline : List Byte
  recvline : List Byte
  n : Int

/-- What a statement of a client does outside of it. With `underrun` the null byte goes in front of
`recvline`. -/
inductive Action
  | none
  | sendto (data : List Byte)
  | underrun
  | fputs (text : List Byte)

/-- One statement of a client, with the datagrams that have arrived for it: what it does, the
client, and the datagrams that are left. `none` when it blocks or is at its end; `fails` says
whether a `recvfrom` or `read` fails. -/
def Client.execute (fails : Bool) (client : Client) (replies : List (List Byte)) :
    Option (Action × Client × List (List Byte)) :=
  match client.pc with
  | .gets =>
    match fgets maxline client.fp with
    | none => some (.none, { client with pc := .returned }, replies)
    | some (stored, rest) =>
      some (.none,
        { client with pc := .sendto, fp := rest, sendline := overwrite client.sendline 0 stored },
        replies)
  | .sendto =>
    some (.sendto (client.sendline.take (strlen client.sendline)),
      { client with pc := .recvfrom }, replies)
  | .recvfrom =>
    if fails then some (.none, { client with pc := .terminate, n := -1 }, replies)
    else
      match replies with
      | [] => none
      | data :: rest =>
        some (.none,
          { client with
            pc := .terminate, n := (data.take maxline).length
            recvline := overwrite client.recvline 0 (data.take maxline) }, rest)
  | .terminate =>
    if client.n < 0 then some (.underrun, { client with pc := .print }, replies)
    else
      some (.none,
        { client with pc := .print, recvline := overwrite client.recvline client.n.toNat [0] },
        replies)
  | .print => some (.fputs (cstring client.recvline), { client with pc := .gets }, replies)
  | .returned => none

/-! ### The server -/

variable {Host : Type*}

/-- Where `dg_echo` is, with the address in `pcliaddr`. -/
inductive ServerPc (Host : Type*)
  | recvfrom
  | sendto (pcliaddr : Host)

/-- `dg_echo`. -/
structure Server (Host : Type*) where
  pc : ServerPc Host
  mesg : List Byte
  n : Nat

/-- The clients and the server, the datagrams in the network with the host they come from or go to,
and those that have arrived and wait to be received. -/
structure State (Host : Type*) where
  client : Host → Client
  server : Server Host
  toServer : Multiset (Host × List Byte)
  requests : List (Host × List Byte)
  toClient : Multiset (Host × List Byte)
  replies : Host → List (List Byte)

/-- One statement of the server. `none` when it blocks. -/
def State.executeServer (state : State Host) : Option (State Host) :=
  match state.server.pc with
  | .recvfrom =>
    match state.requests with
    | [] => none
    | (pcliaddr, data) :: rest =>
      some { state with
        server :=
          { pc := .sendto pcliaddr
            mesg := overwrite state.server.mesg 0 (data.take maxline)
            n := (data.take maxline).length }
        requests := rest }
  | .sendto pcliaddr =>
    some { state with
      server := { state.server with pc := .recvfrom }
      toClient := {(pcliaddr, state.server.mesg.take state.server.n)} + state.toClient }

/-! ### The system -/

/-- What is seen of a run: what the clients send and print, the bytes that they store outside, what
the network loses, and the datagrams of strangers that a client gets. -/
inductive Event (Host : Type*)
  | sendto (host : Host) (data : List Byte)
  | underrun (host : Host)
  | fputs (host : Host) (text : List Byte)
  | lost (host : Host) (data : List Byte)
  | stranger (host : Host)

/-- What is seen of an action. -/
def Action.events (host : Host) : Action → List (Event Host)
  | .none => []
  | .sendto data => [.sendto host data]
  | .underrun => [.underrun host]
  | .fputs text => [.fputs host text]

/-- What an action puts into the network. -/
def Action.datagrams (host : Host) : Action → Multiset (Host × List Byte)
  | .sendto data => {(host, data)}
  | .none | .underrun | .fputs _ => 0

variable [DecidableEq Host]

/-- What a statement of the client of a host leaves. -/
def State.act (state : State Host) (host : Host) (action : Action) (client : Client)
    (replies : List (List Byte)) : State Host :=
  { state with
    client := Function.update state.client host client
    toServer := action.datagrams host + state.toServer
    replies := Function.update state.replies host replies }

/-- A datagram arrives at a host. -/
def State.arrive (state : State Host) (host : Host) (data : List Byte) : State Host :=
  { state with replies := Function.update state.replies host (state.replies host ++ [data]) }

/-- One step of one of the processes, of the network or of a stranger. -/
inductive Step (version : Host → Version) : State Host → List (Event Host) → State Host → Prop
  | client {state : State Host} {host : Host} {fails : Bool} {action : Action} {client : Client}
      {replies : List (List Byte)}
      (executes : (state.client host).execute fails (state.replies host) =
        some (action, client, replies)) :
      Step version state (action.events host) (state.act host action client replies)
  | server {state next : State Host} (executes : state.executeServer = some next) :
      Step version state [] next
  | request {state : State Host} {datagram : Host × List Byte}
      {rest : Multiset (Host × List Byte)} (inNetwork : state.toServer = {datagram} + rest) :
      Step version state []
        { state with toServer := rest, requests := state.requests ++ [datagram] }
  | reply {state : State Host} {host : Host} {data : List Byte}
      {rest : Multiset (Host × List Byte)} (inNetwork : state.toClient = {(host, data)} + rest) :
      Step version state [] { state.arrive host data with toClient := rest }
  | loseRequest {state : State Host} {host : Host} {data : List Byte}
      {rest : Multiset (Host × List Byte)} (inNetwork : state.toServer = {(host, data)} + rest) :
      Step version state [.lost host data] { state with toServer := rest }
  | loseReply {state : State Host} {host : Host} {data : List Byte}
      {rest : Multiset (Host × List Byte)} (inNetwork : state.toClient = {(host, data)} + rest) :
      Step version state [.lost host data] { state with toClient := rest }
  | stranger {state : State Host} {host : Host} {data : List Byte}
      (unconnected : version host = .udpcli01) :
      Step version state [.stranger host] (state.arrive host data)

/-- The clients on their files and the server, at their first statements, and an empty network. -/
def udpEcho (version : Host → Version) (file : Host → List Byte) :
    System (State Host) (Event Host) where
  start history state :=
    history = [] ∧ (∀ host, (state.client host).pc = .gets ∧ (state.client host).fp = file host) ∧
      state.server.pc = .recvfrom ∧ state.toServer = 0 ∧ state.requests = [] ∧
        state.toClient = 0 ∧ ∀ host, state.replies host = []
  step := Step version

/-! ### What a host sees -/

/-- What the event shows of a datagram that this host sends. -/
def Event.sent? (host : Host) : Event Host → Option (List Byte)
  | .sendto other data => if other = host then some data else none
  | _ => none

/-- What the event shows of a text that this host prints. -/
def Event.printed? (host : Host) : Event Host → Option (List Byte)
  | .fputs other text => if other = host then some text else none
  | _ => none

/-- What the event shows of a datagram that comes from this host or goes to it and is lost. -/
def Event.lost? (host : Host) : Event Host → Option (List Byte)
  | .lost other data => if other = host then some data else none
  | _ => none

/-- The lines a host has sent. -/
def sent (host : Host) (history : List (Event Host)) : List (List Byte) :=
  history.filterMap (Event.sent? host)

/-- The texts a host has printed. -/
def printed (host : Host) (history : List (Event Host)) : List (List Byte) :=
  history.filterMap (Event.printed? host)

/-- The datagrams of a host that have been lost. -/
def lost (host : Host) (history : List (Event Host)) : List (List Byte) :=
  history.filterMap (Event.lost? host)

/-- The datagrams of a host among these. -/
def ofHost (host : Host) (datagrams : Multiset (Host × List Byte)) : Multiset (List Byte) :=
  (datagrams.filter fun datagram => datagram.1 = host).map Prod.snd

/-- The datagram a client has received and not yet printed. -/
def Client.held (client : Client) : Multiset (List Byte) :=
  match client.pc with
  | .terminate => if client.n < 0 then 0 else {client.recvline.take client.n.toNat}
  | .print => {cstring client.recvline}
  | .gets | .sendto | .recvfrom | .returned => 0

/-- The datagram of a host that the server has received and not yet sent back. -/
def Server.held (server : Server Host) (host : Host) : Multiset (List Byte) :=
  match server.pc with
  | .recvfrom => 0
  | .sendto pcliaddr => if pcliaddr = host then {server.mesg.take server.n} else 0

/-- Everything that is on its way from a client back to it. -/
def State.underWay (state : State Host) (host : Host) : Multiset (List Byte) :=
  ofHost host state.toServer + ofHost host state.requests + state.server.held host +
    ofHost host state.toClient + (state.replies host : Multiset (List Byte)) +
      (state.client host).held

/-- The line a client has got and not yet sent. -/
def Client.unsent (client : Client) : List Byte :=
  if client.pc = .sendto then cstring client.sendline else []

/-- A client that has lost a datagram is not heard of any more. -/
def Stalls (host : Host) (history : List (Event Host)) : Prop :=
  ∀ before data after, history = before ++ .lost host data :: after →
    sent host after = [] ∧ printed host after = []

/-- What every run keeps for a host that gets nothing from strangers and none of whose calls of
`recvfrom` has failed: there is at most one line that it has sent and not printed, and that one is
under way or has been lost. -/
structure Inv (file : List Byte) (history : List (Event Host)) (state : State Host) (host : Host)
    (pending : Option (List Byte)) : Prop where
  sent : sent host history = printed host history ++ pending.toList
  underWay : state.underWay host + (lost host history : Multiset (List Byte)) =
    (pending.toList : Multiset (List Byte))
  between : pending = none ↔ (state.client host).pc ∈ [ClientPc.gets, .sendto, .returned]
  text : ∀ data ∈ pending, 0 ∉ data ∧ data.length ≤ maxline
  line : (state.client host).pc = .sendto → strlen (state.client host).sendline ≤ maxline
  whole : 0 ∉ file → (UdpEcho.sent host history).flatten ++ (state.client host).unsent ++
    (state.client host).fp = file
  ended : (state.client host).pc = .returned → (state.client host).fp = []
  stalls : Stalls host history

theorem inv_start {version : Host → Version} {file : Host → List Byte}
    {history : List (Event Host)} {state : State Host}
    (starts : (udpEcho version file).start history state) (host : Host) :
    Inv (file host) history state host none := by
  obtain ⟨rfl, clients, server, toServer, requests, toClient, replies⟩ := starts
  obtain ⟨pc, fp⟩ := clients host
  have nothing : state.underWay host = 0 := by
    rw [State.underWay, Server.held, Client.held, pc, server, toServer, requests, toClient, replies]
    rfl
  refine ⟨rfl, nothing.symm ▸ rfl, by simp [pc], nofun, by simp [pc], fun _ => ?_, by simp [pc], ?_⟩
  · rw [Client.unsent, pc, fp]
    rfl
  · intro before data after split
    simp at split

section Datagrams

variable (host : Host) {other : Host}

@[simp]
theorem ofHost_add (first second : Multiset (Host × List Byte)) :
    ofHost host (first + second) = ofHost host first + ofHost host second := by
  rw [ofHost, Multiset.filter_add, Multiset.map_add, ofHost, ofHost]

@[simp]
theorem ofHost_singleton_self (data : List Byte) : ofHost host {(host, data)} = {data} := by
  rw [ofHost, Multiset.filter_singleton, if_pos rfl, Multiset.map_singleton]

theorem ofHost_singleton_of_ne (different : other ≠ host) (data : List Byte) :
    ofHost host {(other, data)} = 0 := by
  rw [ofHost, Multiset.filter_singleton, if_neg different]
  rfl

variable (first second : List (Event Host))

theorem sent_append : sent host (first ++ second) = sent host first ++ sent host second :=
  List.filterMap_append

theorem printed_append :
    printed host (first ++ second) = printed host first ++ printed host second :=
  List.filterMap_append

theorem lost_append : lost host (first ++ second) = lost host first ++ lost host second :=
  List.filterMap_append

end Datagrams

/-- A step keeps a client silent that has lost a datagram, if it shows at most one event and none
that the client would send or print. -/
theorem Stalls.append {host : Host} {history events : List (Event Host)}
    (stalls : Stalls host history) (single : events.length ≤ 1)
    (quiet : lost host history = [] ∨ sent host events = [] ∧ printed host events = []) :
    Stalls host (history ++ events) := by
  intro before data after split
  rcases List.append_eq_append_iff.mp split with ⟨more, rfl, tail⟩ | ⟨more, earlier, rest⟩
  · rw [tail, List.length_append, List.length_cons] at single
    rw [List.eq_nil_of_length_eq_zero (l := after) (by omega)]
    exact ⟨rfl, rfl⟩
  · cases more with
    | nil =>
      rw [List.nil_append] at rest
      rw [← rest, List.length_cons] at single
      rw [List.eq_nil_of_length_eq_zero (l := after) (by omega)]
      exact ⟨rfl, rfl⟩
    | cons first more =>
      obtain ⟨rfl, rfl⟩ := List.cons.inj rest
      obtain ⟨silent, silent'⟩ := stalls before data more earlier
      have some' : lost host history ≠ [] := by
        rw [earlier, lost_append]
        simp [lost, Event.lost?]
      obtain ⟨quiet, quiet'⟩ := quiet.resolve_left some'
      show sent host (more ++ events) = [] ∧ printed host (more ++ events) = []
      rw [sent_append, printed_append, silent, silent', quiet, quiet']
      exact ⟨rfl, rfl⟩

section Steps

variable {file : List Byte} {history events : List (Event Host)} {state next : State Host}
  {host : Host} {pending : Option (List Byte)}

/-- What is under way has been sent and not printed. -/
theorem Inv.mem_pending (inv : Inv file history state host pending) {data : List Byte}
    (member : data ∈ state.underWay host) : data ∈ pending := by
  have one : data ∈ (pending.toList : Multiset (List Byte)) := by
    rw [← inv.underWay]
    exact Multiset.mem_add.mpr (.inl member)
  rw [Multiset.mem_coe, Option.mem_toList] at one
  exact one

theorem Inv.lost_eq_nil (inv : Inv file history state host pending)
    (free : pending = none ∨ state.underWay host ≠ 0) : lost host history = [] := by
  have sizes := congrArg Multiset.card inv.underWay
  rw [Multiset.card_add, Multiset.coe_card, Multiset.coe_card] at sizes
  refine List.eq_nil_of_length_eq_zero ?_
  rcases free with rfl | some'
  · rw [Option.toList_none, List.length_nil] at sizes
    omega
  · have positive := Multiset.card_pos.mpr some'
    have few : pending.toList.length ≤ 1 := by cases pending <;> simp
    omega

/-- A step that shows nothing of the host and moves its datagram at most. -/
theorem Inv.moves (inv : Inv file history state host pending) (single : events.length ≤ 1)
    (noneSent : UdpEcho.sent host events = []) (nonePrinted : printed host events = [])
    (noneLost : lost host events = []) (underWay : next.underWay host = state.underWay host)
    (between : (next.client host).pc ∈ [ClientPc.gets, .sendto, .returned] ↔
      (state.client host).pc ∈ [ClientPc.gets, .sendto, .returned])
    (line : (next.client host).pc = .sendto → strlen (next.client host).sendline ≤ maxline)
    (whole : 0 ∉ file → (next.client host).unsent ++ (next.client host).fp =
      (state.client host).unsent ++ (state.client host).fp)
    (ended : (next.client host).pc = .returned → (next.client host).fp = []) :
    Inv file (history ++ events) next host pending := by
  have sent := sent_append host history events
  have printed := printed_append host history events
  have lost := lost_append host history events
  rw [noneSent, List.append_nil] at sent
  rw [nonePrinted, List.append_nil] at printed
  rw [noneLost, List.append_nil] at lost
  refine ⟨?_, ?_, inv.between.trans between.symm, inv.text, line, ?_, ended,
    inv.stalls.append single (.inr ⟨noneSent, nonePrinted⟩)⟩
  · rw [sent, printed]
    exact inv.sent
  · rw [underWay, lost]
    exact inv.underWay
  · intro noNul
    rw [sent, List.append_assoc, whole noNul, ← List.append_assoc]
    exact inv.whole noNul

/-- A step that is not about the host. -/
theorem Inv.frame (inv : Inv file history state host pending) (single : events.length ≤ 1)
    (noneSent : UdpEcho.sent host events = []) (nonePrinted : printed host events = [])
    (noneLost : lost host events = []) (underWay : next.underWay host = state.underWay host)
    (client : next.client host = state.client host) :
    Inv file (history ++ events) next host pending := by
  refine inv.moves single noneSent nonePrinted noneLost underWay ?_ ?_ ?_ ?_
  · rw [client]
  · rw [client]
    exact inv.line
  · rw [client]
    exact fun _ => rfl
  · rw [client]
    exact inv.ended

/-- A datagram of the host is lost. -/
theorem Inv.loses (inv : Inv file history state host pending) {data : List Byte}
    (underWay : state.underWay host = {data} + next.underWay host)
    (client : next.client host = state.client host) :
    Inv file (history ++ [.lost host data]) next host pending := by
  have some' : state.underWay host ≠ 0 := by
    rw [underWay, Multiset.singleton_add]
    exact Multiset.cons_ne_zero
  have before := inv.lost_eq_nil (.inr some')
  have sent : UdpEcho.sent host (history ++ [.lost host data]) = UdpEcho.sent host history :=
    (sent_append _ _ _).trans (List.append_nil _)
  have printed : printed host (history ++ [.lost host data]) = printed host history :=
    (printed_append _ _ _).trans (List.append_nil _)
  have lost : lost host (history ++ [.lost host data]) = [data] := by
    rw [lost_append, before]
    simp [UdpEcho.lost, Event.lost?]
  refine ⟨?_, ?_, ?_, inv.text, ?_, ?_, ?_, inv.stalls.append (Nat.le_refl 1) (.inl before)⟩
  · rw [sent, printed]
    exact inv.sent
  · have whole := inv.underWay
    rw [before, underWay, Multiset.coe_nil, add_zero] at whole
    rw [lost, Multiset.coe_singleton, add_comm]
    exact whole
  · rw [client]
    exact inv.between
  · rw [client]
    exact inv.line
  · rw [client, sent]
    exact inv.whole
  · rw [client]
    exact inv.ended

/-- A statement of the client that only goes on with the datagram it has, or has none. -/
theorem Inv.goesOn (inv : Inv file history state host pending) {client : Client}
    {replies : List (List Byte)}
    (held : (replies : Multiset (List Byte)) + client.held =
      state.replies host + (state.client host).held)
    (between : client.pc ∈ [ClientPc.gets, .sendto, .returned] ↔
      (state.client host).pc ∈ [ClientPc.gets, .sendto, .returned])
    (line : client.pc = .sendto → strlen client.sendline ≤ maxline)
    (whole : 0 ∉ file → client.unsent ++ client.fp =
      (state.client host).unsent ++ (state.client host).fp)
    (ended : client.pc = .returned → client.fp = []) :
    Inv file (history ++ Action.none.events host) (state.act host .none client replies) host
      pending := by
  have underWay : (state.act host .none client replies).underWay host = state.underWay host := by
    simp only [State.underWay, State.act, Action.datagrams, Function.update_self, zero_add]
    rw [add_assoc, held, ← add_assoc]
  refine inv.moves (Nat.zero_le 1) rfl rfl rfl underWay ?_ ?_ ?_ ?_
  · simpa [State.act] using between
  · simpa [State.act] using line
  · simpa [State.act] using whole
  · simpa [State.act] using ended

theorem Inv.gets (inv : Inv file history state host pending) (pc : (state.client host).pc = .gets)
    {stored rest : List Byte} (got : fgets maxline (state.client host).fp = some (stored, rest)) :
    Inv file (history ++ Action.none.events host)
      (state.act host .none
        { state.client host with
          pc := .sendto, fp := rest
          sendline := overwrite (state.client host).sendline 0 stored } (state.replies host))
      host pending := by
  obtain ⟨rfl, parts⟩ := fgets_eq_some got
  refine inv.goesOn ?_ (by simp [pc]) (fun _ => ?_) (fun noNul => ?_) nofun
  · simp only [Client.held, pc]
  · show strlen (overwrite (state.client host).sendline 0 _) ≤ maxline
    rw [strlen, cstring_overwrite_takeWhile]
    have short := (List.takeWhile_prefix fun c : Byte => c != 0).length_le.trans
      (length_fgetsLine (maxline - 1) (state.client host).fp)
    exact short.trans (Nat.sub_le _ _)
  · have inFile : 0 ∉ fgetsLine (maxline - 1) (state.client host).fp := by
      intro member
      refine noNul ?_
      rw [← inv.whole noNul, ← parts]
      exact List.mem_append_right _ (List.mem_append_left _ member)
    rw [Client.unsent, Client.unsent, if_pos rfl, if_neg (by simp [pc]),
      cstring_overwrite _ _ inFile]
    exact parts

theorem Inv.sendto (inv : Inv file history state host pending)
    (pc : (state.client host).pc = .sendto) :
    Inv file
      (history ++ (Action.sendto ((state.client host).sendline.take
        (strlen (state.client host).sendline))).events host)
      (state.act host (.sendto ((state.client host).sendline.take
          (strlen (state.client host).sendline)))
        { state.client host with pc := .recvfrom } (state.replies host)) host
      (some (cstring (state.client host).sendline)) := by
  rw [take_strlen]
  obtain rfl : pending = none := inv.between.mpr (by simp [pc])
  have noneLost := inv.lost_eq_nil (.inl rfl)
  have nothing := inv.underWay
  rw [noneLost, Multiset.coe_nil, add_zero, Option.toList_none, Multiset.coe_nil] at nothing
  have sent : UdpEcho.sent host
      (history ++ (Action.sendto (cstring (state.client host).sendline)).events host) =
        UdpEcho.sent host history ++ [cstring (state.client host).sendline] := by
    rw [sent_append]
    simp [UdpEcho.sent, Action.events, Event.sent?]
  have printed : printed host
      (history ++ (Action.sendto (cstring (state.client host).sendline)).events host) =
        printed host history := (printed_append _ _ _).trans (List.append_nil _)
  have lost : lost host
      (history ++ (Action.sendto (cstring (state.client host).sendline)).events host) = [] :=
    (lost_append _ _ _).trans ((List.append_nil _).trans noneLost)
  refine ⟨?_, ?_, ?_, ?_, ?_, fun noNul => ?_, ?_,
    inv.stalls.append (Nat.le_refl 1) (.inl noneLost)⟩
  · rw [sent, printed, inv.sent]
    simp
  · rw [lost, Multiset.coe_nil, add_zero, Option.toList_some, Multiset.coe_singleton]
    have added : (state.act host (.sendto (cstring (state.client host).sendline))
        { state.client host with pc := .recvfrom } (state.replies host)).underWay host =
          {cstring (state.client host).sendline} + state.underWay host := by
      simp only [State.underWay, State.act, Action.datagrams, Function.update_self, ofHost_add,
        ofHost_singleton_self, Client.held, pc]
      abel
    rw [added, nothing, add_zero]
  · simp [State.act]
  · rintro data ⟨⟩
    refine ⟨fun nul => ?_, inv.line pc⟩
    have stops := List.mem_takeWhile_imp nul
    cases stops
  · simp [State.act]
  · have whole := inv.whole noNul
    rw [Client.unsent, if_pos pc] at whole
    rw [sent]
    simpa [State.act, Client.unsent] using whole
  · simp [State.act]

theorem Inv.recvfrom (inv : Inv file history state host pending)
    (pc : (state.client host).pc = .recvfrom) {data : List Byte} {rest : List (List Byte)}
    (arrived : state.replies host = data :: rest) :
    Inv file (history ++ Action.none.events host)
      (state.act host .none
        { state.client host with
          pc := .terminate, n := (data.take maxline).length
          recvline := overwrite (state.client host).recvline 0 (data.take maxline) } rest)
      host pending := by
  have member : data ∈ state.underWay host := by
    rw [State.underWay, arrived]
    simp
  have whole : data.take maxline = data :=
    List.take_of_length_le (inv.text data (inv.mem_pending member)).2
  rw [whole]
  refine inv.goesOn ?_ (by simp [pc]) nofun (fun _ => ?_) nofun
  · have nonneg : ¬ (data.length : Int) < 0 := by omega
    simp only [Client.held, pc, if_neg nonneg, Int.toNat_natCast, take_overwrite_zero, arrived]
    rw [add_zero, add_comm, Multiset.singleton_add, Multiset.cons_coe]
  · simp [Client.unsent, pc]

theorem Inv.terminate (inv : Inv file history state host pending)
    (pc : (state.client host).pc = .terminate) (stored : ¬ (state.client host).n < 0) :
    Inv file (history ++ Action.none.events host)
      (state.act host .none
        { state.client host with
          pc := .print
          recvline :=
            overwrite (state.client host).recvline (state.client host).n.toNat [0] }
        (state.replies host)) host pending := by
  have member : (state.client host).recvline.take (state.client host).n.toNat ∈
      state.underWay host := by
    rw [State.underWay, Client.held, pc]
    dsimp only
    rw [if_neg stored]
    simp
  have text := cstring_overwrite_nul _ _ (inv.text _ (inv.mem_pending member)).1
  refine inv.goesOn ?_ (by simp [pc]) nofun (fun _ => ?_) nofun
  · simp only [Client.held, pc, if_neg stored, text]
  · simp [Client.unsent, pc]

theorem Inv.print (inv : Inv file history state host pending)
    (pc : (state.client host).pc = .print) :
    Inv file
      (history ++ (Action.fputs (cstring (state.client host).recvline)).events host)
      (state.act host (.fputs (cstring (state.client host).recvline))
        { state.client host with pc := .gets } (state.replies host)) host none := by
  have taken : state.underWay host = {cstring (state.client host).recvline} +
      (state.act host (.fputs (cstring (state.client host).recvline))
        { state.client host with pc := .gets } (state.replies host)).underWay host := by
    simp only [State.underWay, State.act, Action.datagrams, Function.update_self, Client.held, pc,
      zero_add]
    abel
  have member : cstring (state.client host).recvline ∈ state.underWay host := by
    rw [taken]
    simp
  obtain rfl : pending = some (cstring (state.client host).recvline) :=
    inv.mem_pending member
  have noneLost := inv.lost_eq_nil (.inr fun none => by
    rw [none] at member
    exact Multiset.notMem_zero _ member)
  have nothing := inv.underWay
  rw [noneLost, taken, Multiset.coe_nil, add_zero, Option.toList_some, Multiset.coe_singleton,
    add_eq_left] at nothing
  have sent : UdpEcho.sent host
      (history ++ (Action.fputs (cstring (state.client host).recvline)).events host) =
        UdpEcho.sent host history := (sent_append _ _ _).trans (List.append_nil _)
  have printed : printed host
      (history ++ (Action.fputs (cstring (state.client host).recvline)).events host) =
        printed host history ++ [cstring (state.client host).recvline] := by
    rw [printed_append]
    simp [UdpEcho.printed, Action.events, Event.printed?]
  have lost : lost host
      (history ++ (Action.fputs (cstring (state.client host).recvline)).events host) = [] :=
    (lost_append _ _ _).trans ((List.append_nil _).trans noneLost)
  refine ⟨?_, ?_, ?_, nofun, ?_, fun noNul => ?_, ?_,
    inv.stalls.append (Nat.le_refl 1) (.inl noneLost)⟩
  · rw [sent, printed, inv.sent]
    simp
  · rw [lost, nothing]
    rfl
  · simp [State.act]
  · simp [State.act]
  · rw [sent]
    have whole := inv.whole noNul
    rw [Client.unsent, if_neg (by simp [pc])] at whole
    simpa [State.act, Client.unsent] using whole
  · simp [State.act]

/-- Each statement of the client of the host. -/
theorem inv_execute (inv : Inv file history state host pending) {fails : Bool} {action : Action}
    {client : Client} {replies : List (List Byte)}
    (executes : (state.client host).execute fails (state.replies host) =
      some (action, client, replies)) (inside : .underrun host ∉ action.events host) :
    ∃ pending', Inv file (history ++ action.events host) (state.act host action client replies)
      host pending' := by
  cases pc : (state.client host).pc with
  | gets =>
    simp only [Client.execute, pc] at executes
    split at executes
    · rename_i ended
      cases executes
      refine ⟨pending, inv.goesOn ?_ (by simp [pc]) nofun (fun _ => ?_) fun _ => ?_⟩
      · simp only [Client.held, pc]
      · simp [Client.unsent, pc]
      · exact fgets_eq_none ended
    · rename_i stored rest got
      cases executes
      exact ⟨pending, inv.gets pc got⟩
  | sendto =>
    simp only [Client.execute, pc] at executes
    cases executes
    exact ⟨_, inv.sendto pc⟩
  | recvfrom =>
    simp only [Client.execute, pc] at executes
    split at executes
    · cases executes
      refine ⟨pending, inv.goesOn ?_ (by simp [pc]) nofun (fun _ => ?_) nofun⟩
      · simp only [Client.held, pc]
        rfl
      · simp [Client.unsent, pc]
    · split at executes
      · cases executes
      · rename_i data rest arrived
        cases executes
        exact ⟨pending, inv.recvfrom pc arrived⟩
  | terminate =>
    simp only [Client.execute, pc] at executes
    split at executes
    · cases executes
      exact absurd (List.mem_singleton_self _) inside
    · rename_i stored
      cases executes
      exact ⟨pending, inv.terminate pc stored⟩
  | print =>
    simp only [Client.execute, pc] at executes
    cases executes
    exact ⟨none, inv.print pc⟩
  | returned => simp [Client.execute, pc] at executes

theorem ofHost_datagrams_of_ne {other : Host} (different : other ≠ host) (action : Action) :
    ofHost host (action.datagrams other) = 0 := by
  cases action with
  | sendto data => exact ofHost_singleton_of_ne host different data
  | none | underrun | fputs _ => rfl

/-- A statement of another client. -/
theorem Inv.others (inv : Inv file history state host pending) {other : Host}
    (different : other ≠ host) (action : Action) (client : Client) (replies : List (List Byte)) :
    Inv file (history ++ action.events other) (state.act other action client replies) host
      pending := by
  have client' : (state.act other action client replies).client host = state.client host :=
    Function.update_of_ne different.symm _ _
  have replies' : (state.act other action client replies).replies host = state.replies host :=
    Function.update_of_ne different.symm _ _
  have underWay : (state.act other action client replies).underWay host =
      state.underWay host := by
    rw [State.underWay, State.underWay, client', replies']
    simp only [State.act, ofHost_add, ofHost_datagrams_of_ne different, zero_add]
  cases action with
  | none => exact inv.frame (Nat.zero_le 1) rfl rfl rfl underWay client'
  | sendto data =>
    refine inv.frame (Nat.le_refl 1) ?_ rfl rfl underWay client'
    simp [UdpEcho.sent, Action.events, Event.sent?, different]
  | underrun => exact inv.frame (Nat.le_refl 1) rfl rfl rfl underWay client'
  | fputs text =>
    refine inv.frame (Nat.le_refl 1) rfl ?_ rfl underWay client'
    simp [UdpEcho.printed, Action.events, Event.printed?, different]

/-- The server sends back what it has received, to where that came from. -/
theorem Inv.server (inv : Inv file history state host pending)
    (executes : state.executeServer = some next) : Inv file (history ++ []) next host pending := by
  obtain ⟨client, ⟨pc, mesg, n⟩, toServer, requests, toClient, replies⟩ := state
  cases pc with
  | recvfrom =>
    cases requests with
    | nil => cases executes
    | cons request rest =>
      obtain ⟨pcliaddr, data⟩ := request
      cases executes
      refine inv.frame (Nat.zero_le 1) rfl rfl rfl ?_ rfl
      by_cases own : pcliaddr = host
      · subst own
        have member : data ∈ State.underWay
            ⟨client, ⟨.recvfrom, mesg, n⟩, toServer, (pcliaddr, data) :: rest, toClient, replies⟩
            pcliaddr := by
          rw [State.underWay, ← Multiset.cons_coe, ← Multiset.singleton_add, ofHost_add,
            ofHost_singleton_self]
          simp
        have whole : data.take maxline = data :=
          List.take_of_length_le (inv.text data (inv.mem_pending member)).2
        simp only [State.underWay, Server.held, whole, take_overwrite_zero, if_true,
          ← Multiset.cons_coe, ← Multiset.singleton_add, ofHost_add, ofHost_singleton_self]
        abel
      · simp only [State.underWay, Server.held, if_neg own, ← Multiset.cons_coe,
          ← Multiset.singleton_add, ofHost_add, ofHost_singleton_of_ne host own, zero_add]
  | sendto pcliaddr =>
    cases executes
    refine inv.frame (Nat.zero_le 1) rfl rfl rfl ?_ rfl
    by_cases own : pcliaddr = host
    · subst own
      simp only [State.underWay, Server.held, if_true, ofHost_add, ofHost_singleton_self]
      abel
    · simp only [State.underWay, Server.held, if_neg own, ofHost_add,
        ofHost_singleton_of_ne host own, zero_add]

/-- A datagram arrives at its client. -/
theorem Inv.reply (inv : Inv file history state host pending) {other : Host} {data : List Byte}
    {rest : Multiset (Host × List Byte)}
    (inNetwork : state.toClient = {(other, data)} + rest) :
    Inv file (history ++ []) { state.arrive other data with toClient := rest } host pending := by
  refine inv.frame (Nat.zero_le 1) rfl rfl rfl ?_ rfl
  by_cases own : other = host
  · subst own
    simp only [State.underWay, State.arrive, inNetwork, Function.update_self, ofHost_add,
      ofHost_singleton_self, ← Multiset.coe_add, Multiset.coe_singleton]
    abel
  · simp only [State.underWay, State.arrive, inNetwork, ofHost_add,
      Function.update_of_ne (Ne.symm own), ofHost_singleton_of_ne host own, zero_add]

/-- A datagram is lost, of this host or of another. -/
theorem Inv.lost (inv : Inv file history state host pending) {other : Host} {data : List Byte}
    (underWay : state.underWay host = ofHost host {(other, data)} + next.underWay host)
    (client : next.client = state.client) :
    Inv file (history ++ [.lost other data]) next host pending := by
  by_cases own : other = host
  · subst own
    rw [ofHost_singleton_self] at underWay
    exact inv.loses underWay (congrFun client _)
  · rw [ofHost_singleton_of_ne host own, zero_add] at underWay
    refine inv.frame (Nat.le_refl 1) rfl rfl ?_ underWay.symm (congrFun client _)
    simp [UdpEcho.lost, Event.lost?, own]

theorem inv_step {version : Host → Version} (inv : Inv file history state host pending)
    (steps : Step version state events next) (none' : .stranger host ∉ events)
    (inside : .underrun host ∉ events) :
    ∃ pending', Inv file (history ++ events) next host pending' := by
  cases steps with
  | @client other fails action client replies executes =>
    by_cases own : other = host
    · subst own
      exact inv_execute inv executes inside
    · exact ⟨pending, inv.others own action client replies⟩
  | server executes => exact ⟨pending, inv.server executes⟩
  | request inNetwork =>
    refine ⟨pending, inv.frame (Nat.zero_le 1) rfl rfl rfl ?_ rfl⟩
    simp only [State.underWay, inNetwork, ofHost_add, ← Multiset.coe_add, Multiset.coe_singleton]
    abel
  | reply inNetwork => exact ⟨pending, inv.reply inNetwork⟩
  | loseRequest inNetwork =>
    refine ⟨pending, inv.lost ?_ rfl⟩
    simp only [State.underWay, inNetwork, ofHost_add]
    abel
  | loseReply inNetwork =>
    refine ⟨pending, inv.lost ?_ rfl⟩
    simp only [State.underWay, inNetwork, ofHost_add]
    abel
  | @stranger other data unconnected =>
    have different : host ≠ other := by
      rintro rfl
      exact none' (List.mem_singleton_self _)
    refine ⟨pending, inv.frame (Nat.le_refl 1) rfl rfl rfl ?_ rfl⟩
    simp only [State.underWay, State.arrive, Function.update_of_ne different]

end Steps

section Runs

variable {version : Host → Version} {file : Host → List Byte} {history : List (Event Host)}
  {state : State Host} {host : Host}

theorem inv_run (run : Run (udpEcho version file) history state)
    (alone : .stranger host ∉ history) (inside : .underrun host ∉ history) :
    ∃ pending, Inv (file host) history state host pending := by
  refine run.invariant (fun history state => .stranger host ∉ history →
    .underrun host ∉ history → ∃ pending, Inv (file host) history state host pending) ?_ ?_
    alone inside
  · exact fun history state starts _ _ => ⟨none, inv_start starts host⟩
  · intro history state events next holds steps alone inside
    obtain ⟨before, step⟩ := not_or.mp (mt List.mem_append.mpr alone)
    obtain ⟨before', step'⟩ := not_or.mp (mt List.mem_append.mpr inside)
    obtain ⟨pending, inv⟩ := holds before before'
    exact inv_step inv steps step step'

/-- The kernel keeps strangers from a socket that is connected. -/
theorem no_stranger (run : Run (udpEcho version file) history state)
    (connected : version host = .dgcliconnect) : .stranger host ∉ history := by
  refine run.invariant (fun history _ => .stranger host ∉ history) ?_ ?_
  · rintro history state ⟨rfl, -⟩
    exact List.not_mem_nil
  · intro history state events next before steps member
    refine (List.mem_append.mp member).elim before fun step => ?_
    cases steps with
    | @client other fails action client replies executes =>
      cases action <;> simp [Action.events] at step
    | stranger unconnected =>
      cases List.mem_singleton.mp step
      rw [connected] at unconnected
      cases unconnected
    | server | request | reply => cases step
    | loseRequest | loseReply => simp at step

theorem inv_of_alone (run : Run (udpEcho version file) history state)
    (alone : version host = .dgcliconnect ∨ .stranger host ∉ history)
    (inside : .underrun host ∉ history) :
    ∃ pending, Inv (file host) history state host pending :=
  inv_run run (alone.elim (no_stranger run) id) inside

/-- Whatever the other clients do, a client whose socket is connected, or that gets nothing from
strangers, prints its own lines in order and never more than one line behind, as long as none of its
calls of `recvfrom` fails. When it returns it has printed its file. -/
theorem own_lines_printed (run : Run (udpEcho version file) history state) (host : Host)
    (alone : version host = .dgcliconnect ∨ .stranger host ∉ history)
    (inside : .underrun host ∉ history) :
    printed host history <+: sent host history ∧
      (sent host history).length ≤ (printed host history).length + 1 ∧
        ((state.client host).pc = .returned → 0 ∉ file host →
          (printed host history).flatten = file host) := by
  obtain ⟨pending, inv⟩ := inv_of_alone run alone inside
  refine ⟨⟨_, inv.sent.symm⟩, ?_, fun returned noNul => ?_⟩
  · have few : pending.toList.length ≤ 1 := by cases pending <;> simp
    rw [inv.sent, List.length_append]
    omega
  · obtain rfl : pending = none := inv.between.mpr (by simp [returned])
    have whole := inv.whole noNul
    rw [inv.ended returned, Client.unsent, if_neg (by simp [returned]), inv.sent] at whole
    simpa using whole

/-- There is no timeout: such a client waits in vain just if a datagram of its own has been lost,
and from then on it neither sends nor prints. -/
theorem silent_after_loss (run : Run (udpEcho version file) history state) (host : Host)
    (alone : version host = .dgcliconnect ∨ .stranger host ∉ history)
    (inside : .underrun host ∉ history) :
    ((state.client host).pc = .recvfrom →
        (state.underWay host = 0 ↔ lost host history ≠ [])) ∧
      ∀ before data after, history = before ++ .lost host data :: after →
        sent host after = [] ∧ printed host after = [] := by
  obtain ⟨pending, inv⟩ := inv_of_alone run alone inside
  refine ⟨fun waits => ?_, inv.stalls⟩
  obtain ⟨last, rfl⟩ : ∃ last, pending = some last := by
    refine Option.ne_none_iff_exists'.mp fun none => ?_
    have between := inv.between.mp none
    rw [waits] at between
    simp at between
  constructor
  · intro nothing noneLost
    have whole := inv.underWay
    rw [nothing, noneLost] at whole
    simp at whole
  · intro some'
    by_contra some''
    exact some' (inv.lost_eq_nil (.inr some''))

end Runs

/-! ### Two clients -/

/-- A client of each version, on a file with one line each. -/
def twoClients : Bool → Version
  | true => .dgcliconnect
  | false => .udpcli01

/-- The files with the lines `a` and `b`. -/
def twoFiles : Bool → List Byte
  | true => [97, 10]
  | false => [98, 10]

/-- Both clients before their lines, and the server. -/
def started : State Bool where
  client host := ⟨.gets, twoFiles host, [], [], 0⟩
  server := ⟨.recvfrom, [], 0⟩
  toServer := 0
  requests := []
  toClient := 0
  replies _ := []

/-- A statement of a client that does not fail. -/
theorem Step.runs (host : Bool) {state : State Bool} {action : Action} {client : Client}
    {replies : List (List Byte)}
    (executes : (state.client host).execute false (state.replies host) =
      some (action, client, replies)) :
    Step twoClients state (action.events host) (state.act host action client replies) :=
  .client executes

theorem run_started : Run (udpEcho twoClients twoFiles) [] started :=
  .start ⟨rfl, fun _ => ⟨rfl, rfl⟩, rfl, rfl, rfl, rfl, fun _ => rfl⟩

/-- Both clients send their line, and the echo of the second is the first to come. -/
theorem own_lines_printed_twoClients :
    ∃ history state, Run (udpEcho twoClients twoFiles) history state ∧
      (printed true history).flatten = [97, 10] := by
  have gets := run_started.step (.runs true rfl)
  have sendto := gets.step (.runs true rfl)
  have gets' := sendto.step (.runs false rfl)
  have sendto' := gets'.step (.runs false rfl)
  have request := sendto'.step (@Step.request _ _ _ _ (false, [98, 10]) {(true, [97, 10])} rfl)
  have request' := request.step (@Step.request _ _ _ _ (true, [97, 10]) 0 rfl)
  have received := request'.step (.server rfl)
  have echoed := received.step (.server rfl)
  have received' := echoed.step (.server rfl)
  have echoed' := received'.step (.server rfl)
  have reply := echoed'.step (@Step.reply _ _ _ _ true [97, 10] {(false, [98, 10])} rfl)
  have recvfrom := reply.step (.runs true rfl)
  have terminate := recvfrom.step (.runs true rfl)
  have print := terminate.step (.runs true rfl)
  have returned := print.step (.runs true rfl)
  exact ⟨_, _, returned,
    (own_lines_printed returned true (.inl rfl) (by simp [Action.events])).2.2 rfl (by decide)⟩

theorem silent_after_loss_twoClients :
    ∃ state,
      Run (udpEcho twoClients twoFiles) [.sendto false [98, 10], .lost false [98, 10]] state ∧
      (state.underWay false = 0 ↔
        lost false [Event.sendto false [98, 10], .lost false [98, 10]] ≠ []) := by
  have gets := run_started.step (.runs false rfl)
  have sendto := gets.step (.runs false rfl)
  have lost := sendto.step (@Step.loseRequest _ _ _ _ false [98, 10] 0 rfl)
  exact ⟨_, lost, (silent_after_loss lost false (.inr (by simp [Action.events]))
    (by simp [Action.events])).1 rfl⟩

end SocketProgram.UdpEcho
