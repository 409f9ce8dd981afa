/-
This file models the UDP echo client of `lib/dgclitimeo2.c` and the server it talks to, that
of `udpcliserv/udpserv01.c`. The client sends a line, waits up to five seconds for a datagram
and prints what is in it; the server sends back whatever it receives. The network between the
two may lose, delay and reorder datagrams, but it does not duplicate any.

Nothing in a datagram says which line it is the echo of. When the wait for an echo has ended
with a timeout and the echo comes later, the client takes it for the echo of the next line,
and from there on it may be one line behind. What it prints is the echo of the line it sent
last only if nothing was under way any more when it sent that line.
-/

import SocketProgram.Library.Ledger
import SocketProgram.Stdio

namespace SocketProgram.UdpTimeout

open Memory Runs

/-! ### The client and the server -/

/-- Where `dg_cli` is: the statement it executes next. -/
inductive ClientPc
  | gets
  | sendto
  | recvfrom
  | test
  | terminate
  | print
  | returned
  | exited
  deriving DecidableEq, Repr

/-- `dg_cli` of the client. -/
structure Client where
  pc : ClientPc
  fp : List Byte
  sendline : List Byte
  recvline : List Byte
  n : Int
  errno : Errno

/-- Where `dg_echo` is. -/
inductive ServerPc
  | recvfrom
  | sendto
  deriving DecidableEq, Repr

/-- `dg_echo` of the server. -/
structure Server where
  pc : ServerPc
  mesg : List Byte
  n : Nat

/-- The two processes, the datagrams in the network between them, and those that have arrived and
wait to be received. -/
structure State where
  client : Client
  server : Server
  toServer : Multiset (List Byte)
  requests : List (List Byte)
  toClient : Multiset (List Byte)
  replies : List (List Byte)

/-- What is seen of a run: what the client sends and prints, and what the network loses. -/
inductive Event
  | sendto (data : List Byte)
  | timeout
  | recvfromError
  | fputs (text : List Byte)
  | lost (data : List Byte)
  deriving DecidableEq, Repr

/-- `recvfrom` fails. -/
def Client.failed (client : Client) (errno : Errno) : Client :=
  { client with pc := .test, n := -1, errno := errno }

/-- `recvfrom(sockfd,recvline,MAXLINE,0,NULL,NULL)` stores this datagram. -/
def Client.received (client : Client) (data : List Byte) : Client :=
  { client with
    pc := .test, n := (data.take maxline).length
    recvline := overwrite client.recvline 0 (data.take maxline) }

/-- One statement of the client. `none` when it blocks or is at its end; `failure` is what
`recvfrom` fails with. -/
def State.executeClient (failure : Option Errno) (state : State) : Option (List Event × State) :=
  match state.client.pc with
  | .gets =>
    match fgets maxline state.client.fp with
    | none => some ([], { state with client := { state.client with pc := .returned } })
    | some (stored, rest) =>
      some ([], { state with
        client := { state.client with
          pc := .sendto, fp := rest, sendline := overwrite state.client.sendline 0 stored } })
  | .sendto =>
    some ([.sendto (state.client.sendline.take (strlen state.client.sendline))], { state with
      client := { state.client with pc := .recvfrom }
      toServer := state.client.sendline.take (strlen state.client.sendline) ::ₘ state.toServer })
  | .recvfrom =>
    match failure with
    | some errno => some ([], { state with client := state.client.failed errno })
    | none =>
      match state.replies with
      | [] => none
      | data :: rest =>
        some ([], { state with client := state.client.received data, replies := rest })
  | .test =>
    if state.client.n < 0 then
      if state.client.errno = .ewouldblock then
        some ([.timeout], { state with client := { state.client with pc := .gets } })
      else some ([.recvfromError], { state with client := { state.client with pc := .exited } })
    else some ([], { state with client := { state.client with pc := .terminate } })
  | .terminate =>
    some ([], { state with
      client := { state.client with
        pc := .print
        recvline := overwrite state.client.recvline state.client.n.toNat [0] } })
  | .print =>
    some ([.fputs (cstring state.client.recvline)], { state with
      client := { state.client with pc := .gets } })
  | .returned => none
  | .exited => none

/-- One statement of the server. `none` when it blocks. -/
def State.executeServer (state : State) : Option State :=
  match state.server.pc with
  | .recvfrom =>
    match state.requests with
    | [] => none
    | data :: rest =>
      some { state with
        server :=
          { pc := .sendto
            mesg := overwrite state.server.mesg 0 (data.take maxline)
            n := (data.take maxline).length }
        requests := rest }
  | .sendto =>
    some { state with
      server := { state.server with pc := .recvfrom }
      toClient := state.server.mesg.take state.server.n ::ₘ state.toClient }

/-- One step of one of the processes or of the network. The wait of the client ends with a timeout
only when no datagram has arrived. -/
inductive Step : State → List Event → State → Prop
  | client {state next : State} {events : List Event} {failure : Option Errno}
      (expires : failure = some .ewouldblock → state.replies = [])
      (executes : state.executeClient failure = some (events, next)) : Step state events next
  | server {state next : State} (executes : state.executeServer = some next) :
      Step state [] next
  | request {state : State} {data : List Byte} {rest : Multiset (List Byte)}
      (inNetwork : state.toServer = data ::ₘ rest) :
      Step state [] { state with toServer := rest, requests := state.requests ++ [data] }
  | reply {state : State} {data : List Byte} {rest : Multiset (List Byte)}
      (inNetwork : state.toClient = data ::ₘ rest) :
      Step state [] { state with toClient := rest, replies := state.replies ++ [data] }
  | loseRequest {state : State} {data : List Byte} {rest : Multiset (List Byte)}
      (inNetwork : state.toServer = data ::ₘ rest) :
      Step state [.lost data] { state with toServer := rest }
  | loseReply {state : State} {data : List Byte} {rest : Multiset (List Byte)}
      (inNetwork : state.toClient = data ::ₘ rest) :
      Step state [.lost data] { state with toClient := rest }

/-- `dg_cli` on a file and `dg_echo`, at their first statements, and an empty network. -/
def udpEcho (file : List Byte) : System State Event where
  start history state :=
    history = [] ∧ state.client.pc = .gets ∧ state.client.fp = file ∧
      state.server.pc = .recvfrom ∧ state.toServer = 0 ∧ state.requests = [] ∧
        state.toClient = 0 ∧ state.replies = []
  step := Step

/-! ### What is under way -/

/-- The events of a history that are about datagrams. -/
def Event.entry? : Event → Option (Entry (List Byte))
  | .sendto data => some (.sent data)
  | .fputs text => some (.delivered text)
  | .lost data => some (.lost data)
  | .timeout => none
  | .recvfromError => none

/-- The lines a history has sent, the texts it has printed and the datagrams it has lost. -/
def entries (history : List Event) : List (Entry (List Byte)) := history.filterMap Event.entry?

/-- The datagram the client has received and not yet printed. -/
def Client.held (client : Client) : Multiset (List Byte) :=
  match client.pc with
  | .test => if client.n < 0 then 0 else {client.recvline.take client.n.toNat}
  | .terminate => {client.recvline.take client.n.toNat}
  | .print => {cstring client.recvline}
  | .gets => 0
  | .sendto => 0
  | .recvfrom => 0
  | .returned => 0
  | .exited => 0

/-- The datagram the server has received and not yet sent back. -/
def Server.held (server : Server) : Multiset (List Byte) :=
  match server.pc with
  | .recvfrom => 0
  | .sendto => {server.mesg.take server.n}

/-- Everything that is on its way from the client back to the client. -/
def State.underWay (state : State) : Multiset (List Byte) :=
  state.toServer + state.requests + state.server.held + state.toClient + state.replies +
    state.client.held

/-- What every run keeps, with the ledger of its datagrams: what is under way is what the ledger
says; and without a timeout nothing is under way between two lines, and every line has been sent
alone. -/
structure Inv (history : List Event) (state : State) (ledger : Ledger (List Byte)) : Prop where
  accepted : accepts Ledger.accept .empty (entries history) = some ledger
  underWay : ledger.underWay = state.underWay
  texts : ∀ data ∈ Ledger.sent (entries history), 0 ∉ data ∧ data.length ≤ maxline
  line : state.client.pc = .sendto → strlen state.client.sendline ≤ maxline
  idle : .timeout ∉ history → state.client.pc = .gets ∨ state.client.pc = .sendto →
    state.underWay = 0
  alone : .timeout ∉ history → state.client.pc ∈ [ClientPc.recvfrom, .test, .terminate, .print] →
    ledger.alone = true

theorem inv_start {file : List Byte} {history : List Event} {state : State}
    (starts : (udpEcho file).start history state) : Inv history state .empty := by
  obtain ⟨rfl, pc, -, server, toServer, requests, toClient, replies⟩ := starts
  have nothing : state.underWay = 0 := by
    rw [State.underWay, Server.held, Client.held, pc, server, toServer, requests, toClient, replies]
    rfl
  refine ⟨rfl, nothing.symm, fun data member => absurd member List.not_mem_nil, ?_,
    fun _ _ => nothing, ?_⟩
  · rw [pc]
    exact nofun
  · rw [pc]
    simp

section Steps

variable {history : List Event} {state next : State} {ledger : Ledger (List Byte)}

/-- Whatever is under way is a text that the client has sent. -/
theorem Inv.text (inv : Inv history state ledger) {data : List Byte}
    (member : data ∈ state.underWay) : 0 ∉ data ∧ data.length ≤ maxline := by
  refine inv.texts data ?_
  have conserved := (Ledger.agrees_of_accepts inv.accepted).conserved
  rw [← inv.underWay] at member
  rw [← Multiset.mem_coe, ← conserved]
  exact Multiset.mem_add.mpr (.inl (Multiset.mem_add.mpr (.inl member)))

theorem entries_append (first second : List Event) :
    entries (first ++ second) = entries first ++ entries second := List.filterMap_append

/-- A step that only moves a datagram on. -/
theorem Inv.moves (inv : Inv history state ledger) (underWay : next.underWay = state.underWay)
    (line : next.client.pc = .sendto → strlen next.client.sendline ≤ maxline)
    (idle : next.client.pc = .gets ∨ next.client.pc = .sendto →
      state.client.pc = .gets ∨ state.client.pc = .sendto)
    (alone : next.client.pc ∈ [ClientPc.recvfrom, .test, .terminate, .print] →
      state.client.pc ∈ [ClientPc.recvfrom, .test, .terminate, .print]) :
    Inv (history ++ []) next ledger := by
  rw [List.append_nil]
  refine ⟨inv.accepted, inv.underWay.trans underWay.symm, inv.texts, line, ?_, ?_⟩
  · intro onTime between
    rw [underWay]
    exact inv.idle onTime (idle between)
  · exact fun onTime within => inv.alone onTime (alone within)

/-- A step between `sendto` and the end of the wait. -/
theorem Inv.goesOn (inv : Inv history state ledger) (underWay : next.underWay = state.underWay)
    (before : state.client.pc ∈ [ClientPc.recvfrom, .test, .terminate, .print])
    (after : next.client.pc ∈ [ClientPc.recvfrom, .test, .terminate, .print]) :
    Inv (history ++ []) next ledger := by
  refine inv.moves underWay (fun sendto => ?_) (fun between => ?_) fun _ => before
  · rw [sendto] at after
    simp at after
  · rcases between with same | same <;> rw [same] at after <;> simp at after

/-- The end of a wait without an echo. -/
theorem Inv.reports (inv : Inv history state ledger) {event : Event} (entry : event.entry? = none)
    (underWay : next.underWay = state.underWay)
    (outside : next.client.pc = .gets ∧ event = .timeout ∨ next.client.pc = .exited) :
    Inv (history ++ [event]) next ledger := by
  have same : entries (history ++ [event]) = entries history := by
    rw [entries_append]
    show entries history ++ [event].filterMap Event.entry? = _
    rw [List.filterMap_cons_none entry, List.filterMap_nil, List.append_nil]
  refine ⟨same ▸ inv.accepted, inv.underWay.trans underWay.symm, same ▸ inv.texts, ?_, ?_, ?_⟩
  · rcases outside with ⟨pc, -⟩ | pc <;> rw [pc] <;> exact nofun
  · intro onTime between
    rcases outside with ⟨-, rfl⟩ | pc
    · exact absurd List.mem_concat_self onTime
    · rw [pc] at between
      rcases between with wrong | wrong <;> cases wrong
  · rcases outside with ⟨pc, -⟩ | pc <;> rw [pc] <;> simp

theorem entries_singleton {event : Event} {entry : Entry (List Byte)}
    (isEntry : event.entry? = some entry) : entries [event] = [entry] :=
  List.filterMap_cons_some isEntry

/-- The ledger takes a datagram that is lost or printed, which is then not under way any more; none
is sent with it. -/
theorem Inv.leaves (inv : Inv history state ledger) {data : List Byte} (event : Event)
    (underWay : state.underWay = data ::ₘ next.underWay)
    (leaves : event.entry? = some (.lost data) ∨ event.entry? = some (.delivered data)) :
    accepts Ledger.accept .empty (entries (history ++ [event])) =
        some { ledger with underWay := ledger.underWay.erase data } ∧
      ledger.underWay.erase data = next.underWay ∧
      Ledger.sent (entries (history ++ [event])) = Ledger.sent (entries history) := by
  have member : data ∈ ledger.underWay := by
    rw [inv.underWay, underWay]
    exact Multiset.mem_cons_self _ _
  refine ⟨?_, ?_, ?_⟩
  · rw [entries_append, accepts_append, inv.accepted]
    rcases leaves with entry | entry <;> rw [entries_singleton entry] <;>
      exact (accepts_singleton _ _ _).trans (if_pos member)
  · rw [inv.underWay, underWay, Multiset.erase_cons_head]
  · rw [entries_append, Ledger.sent_append]
    rcases leaves with entry | entry <;> rw [entries_singleton entry] <;>
      exact List.append_nil _

/-- A datagram that is lost is not under way any more. -/
theorem Inv.loses (inv : Inv history state ledger) {data : List Byte}
    (underWay : state.underWay = data ::ₘ next.underWay) (client : next.client = state.client) :
    ∃ ledger', Inv (history ++ [.lost data]) next ledger' := by
  obtain ⟨accepted, rest, texts⟩ := inv.leaves (.lost data) underWay (.inl rfl)
  refine ⟨{ ledger with underWay := ledger.underWay.erase data }, accepted, rest, ?_, ?_, ?_, ?_⟩
  · rw [texts]
    exact inv.texts
  · rw [client]
    exact inv.line
  · rw [client]
    intro onTime between
    have idle := inv.idle (fun earlier => onTime (List.mem_append_left _ earlier)) between
    rw [underWay] at idle
    exact absurd idle (Multiset.cons_ne_zero)
  · rw [client]
    exact fun onTime => inv.alone fun earlier => onTime (List.mem_append_left _ earlier)

theorem Inv.server (inv : Inv history state ledger)
    (executes : state.executeServer = some next) : Inv (history ++ []) next ledger := by
  obtain ⟨client, ⟨pc, mesg, n⟩, toServer, requests, toClient, replies⟩ := state
  cases pc with
  | recvfrom =>
    cases requests with
    | nil => cases executes
    | cons data rest =>
      cases executes
      have member : data ∈ State.underWay
          ⟨client, ⟨.recvfrom, mesg, n⟩, toServer, data :: rest, toClient, replies⟩ := by
        simp [State.underWay]
      have whole : data.take maxline = data := List.take_of_length_le (inv.text member).2
      refine inv.moves ?_ inv.line id id
      simp only [State.underWay, Server.held, whole, take_overwrite_zero, ← Multiset.cons_coe,
        ← Multiset.singleton_add]
      abel
  | sendto =>
    cases executes
    refine inv.moves ?_ inv.line id id
    simp only [State.underWay, Server.held, ← Multiset.singleton_add]
    abel

/-- A line that is sent is under way from then on. -/
theorem Inv.sendto (inv : Inv history state ledger) (pc : state.client.pc = .sendto) :
    ∃ ledger', Inv
      (history ++ [.sendto (state.client.sendline.take (strlen state.client.sendline))])
      { state with
        client := { state.client with pc := .recvfrom }
        toServer := state.client.sendline.take (strlen state.client.sendline) ::ₘ
          state.toServer } ledger' := by
  rw [take_strlen]
  refine ⟨⟨cstring state.client.sendline ::ₘ ledger.underWay, some (cstring state.client.sendline),
    decide (ledger.underWay = 0)⟩, ?_, ?_, ?_, nofun, ?_, ?_⟩
  · rw [entries_append, accepts_append, inv.accepted]
    rfl
  · rw [inv.underWay]
    simp only [State.underWay, Client.held, pc, ← Multiset.singleton_add]
    abel
  · rw [entries_append, Ledger.sent_append]
    refine List.forall_mem_append.mpr ⟨inv.texts, ?_⟩
    refine List.forall_mem_singleton.mpr ⟨fun nul => ?_, inv.line pc⟩
    have stops := List.mem_takeWhile_imp nul
    cases stops
  · rintro - (same | same) <;> cases same
  · intro onTime _
    have idle := inv.idle (fun earlier => onTime (List.mem_append_left _ earlier)) (.inr pc)
    exact decide_eq_true (inv.underWay.trans idle)

/-- What is printed is no longer under way. -/
theorem Inv.print (inv : Inv history state ledger) (pc : state.client.pc = .print) :
    ∃ ledger', Inv (history ++ [.fputs (cstring state.client.recvline)])
      { state with client := { state.client with pc := .gets } } ledger' := by
  have underWay : state.underWay = cstring state.client.recvline ::ₘ
      State.underWay { state with client := { state.client with pc := .gets } } := by
    simp only [State.underWay, Client.held, pc, ← Multiset.singleton_add]
    abel
  obtain ⟨accepted, rest, texts⟩ :=
    inv.leaves (.fputs (cstring state.client.recvline)) underWay (.inr rfl)
  refine ⟨{ ledger with underWay := ledger.underWay.erase (cstring state.client.recvline) },
    accepted, rest, ?_, nofun, ?_, ?_⟩
  · rw [texts]
    exact inv.texts
  · intro onTime _
    have alone := inv.alone (fun earlier => onTime (List.mem_append_left _ earlier)) (by simp [pc])
    obtain ⟨last, -, only⟩ := (Ledger.agrees_of_accepts inv.accepted).alone alone
    have few := Multiset.card_le_card only
    rw [inv.underWay, underWay, Multiset.card_cons, Multiset.card_singleton] at few
    exact Multiset.card_eq_zero.mp (by omega)
  · intro _ within
    simp at within

theorem inv_executeClient (inv : Inv history state ledger) {failure : Option Errno}
    {events : List Event} (executes : state.executeClient failure = some (events, next)) :
    ∃ ledger', Inv (history ++ events) next ledger' := by
  cases pc : state.client.pc with
  | gets =>
    simp only [State.executeClient, pc] at executes
    split at executes
    · cases executes
      refine ⟨ledger, inv.moves ?_ nofun (by rintro (same | same) <;> cases same) (by simp)⟩
      simp only [State.underWay, Client.held, pc]
    · rename_i stored rest got
      cases executes
      obtain ⟨rfl, -⟩ := fgets_eq_some got
      refine ⟨ledger, inv.moves ?_ (fun _ => ?_) (fun _ => .inl pc) (by simp)⟩
      · simp only [State.underWay, Client.held, pc]
      · show strlen (overwrite state.client.sendline 0 _) ≤ maxline
        rw [strlen, cstring_overwrite_takeWhile]
        have short := (List.takeWhile_prefix fun c : Byte => c != 0).length_le.trans
          (length_fgetsLine (maxline - 1) state.client.fp)
        exact short.trans (Nat.sub_le _ _)
  | sendto =>
    simp only [State.executeClient, pc] at executes
    cases executes
    exact inv.sendto pc
  | recvfrom =>
    simp only [State.executeClient, pc] at executes
    split at executes
    · cases executes
      refine ⟨ledger, inv.goesOn ?_ (by simp [pc]) (by simp [Client.failed])⟩
      simp only [State.underWay, Client.held, Client.failed, pc]
      rfl
    · cases replies : state.replies with
      | nil =>
        rw [replies] at executes
        cases executes
      | cons data rest =>
        rw [replies] at executes
        cases executes
        have member : data ∈ state.underWay := by
          simp [State.underWay, replies]
        have whole : data.take maxline = data := List.take_of_length_le (inv.text member).2
        refine ⟨ledger, inv.goesOn ?_ (by simp [pc]) (by simp [Client.received])⟩
        have stored : ¬ ((data.length : Int) < 0) := Int.not_lt.mpr (Int.natCast_nonneg _)
        simp only [State.underWay, Client.held, Client.received, pc, whole, replies, if_neg stored,
          Int.toNat_natCast, take_overwrite_zero, ← Multiset.cons_coe, ← Multiset.singleton_add]
        abel
  | test =>
    simp only [State.executeClient, pc] at executes
    split_ifs at executes with failed timeout
    · cases executes
      refine ⟨ledger, inv.reports rfl ?_ (.inl ⟨rfl, rfl⟩)⟩
      simp only [State.underWay, Client.held, pc, if_pos failed]
    · cases executes
      refine ⟨ledger, inv.reports rfl ?_ (.inr rfl)⟩
      simp only [State.underWay, Client.held, pc, if_pos failed]
    · cases executes
      refine ⟨ledger, inv.goesOn ?_ (by simp [pc]) (by simp)⟩
      simp only [State.underWay, Client.held, pc, if_neg failed]
  | terminate =>
    simp only [State.executeClient, pc] at executes
    cases executes
    have member : state.client.recvline.take state.client.n.toNat ∈ state.underWay := by
      simp [State.underWay, Client.held, pc]
    have text := cstring_overwrite_nul _ _ (inv.text member).1
    refine ⟨ledger, inv.goesOn ?_ (by simp [pc]) (by simp)⟩
    simp only [State.underWay, Client.held, pc, text]
  | print =>
    simp only [State.executeClient, pc] at executes
    cases executes
    exact inv.print pc
  | returned =>
    simp only [State.executeClient, pc] at executes
    cases executes
  | exited =>
    simp only [State.executeClient, pc] at executes
    cases executes

theorem inv_step (inv : Inv history state ledger) {events : List Event}
    (step : Step state events next) : ∃ ledger', Inv (history ++ events) next ledger' := by
  cases step with
  | client expires executes => exact inv_executeClient inv executes
  | server executes => exact ⟨ledger, inv.server executes⟩
  | request inNetwork =>
    refine ⟨ledger, inv.moves ?_ inv.line id id⟩
    simp only [State.underWay, inNetwork, ← Multiset.coe_add, Multiset.coe_singleton,
      ← Multiset.singleton_add]
    abel
  | reply inNetwork =>
    refine ⟨ledger, inv.moves ?_ inv.line id id⟩
    simp only [State.underWay, inNetwork, ← Multiset.coe_add, Multiset.coe_singleton,
      ← Multiset.singleton_add]
    abel
  | loseRequest inNetwork =>
    refine inv.loses ?_ rfl
    simp only [State.underWay, inNetwork, ← Multiset.singleton_add]
    abel
  | loseReply inNetwork =>
    refine inv.loses ?_ rfl
    simp only [State.underWay, inNetwork, ← Multiset.singleton_add]
    abel

end Steps

theorem inv_run {file : List Byte} {history : List Event} {state : State}
    (run : Run (udpEcho file) history state) : ∃ ledger, Inv history state ledger :=
  run.invariant (fun history state => ∃ ledger, Inv history state ledger)
    (fun _ _ starts => ⟨_, inv_start starts⟩) fun _ _ _ _ ⟨_, inv⟩ step => inv_step inv step

/-! ### What the client prints -/

/-- Each line the client prints is the echo of the line it sent most recently. -/
def EchoesLast (history : List Event) : Prop :=
  ∀ before text after, history = before ++ .fputs text :: after →
    (Ledger.sent (entries before)).getLast? = some text

/-- A statement of the client is seen as one event at most, and only the last one of the loop as a
line that is printed. -/
theorem events_executeClient {state next : State} {events : List Event} {failure : Option Errno}
    (executes : state.executeClient failure = some (events, next)) :
    events = [] ∨ ∃ event, events = [event] ∧
      ∀ text, event = .fputs text → state.client.pc = .print := by
  cases pc : state.client.pc with
  | gets =>
    simp only [State.executeClient, pc] at executes
    split at executes <;> cases executes <;> exact .inl rfl
  | sendto =>
    simp only [State.executeClient, pc] at executes
    cases executes
    exact .inr ⟨_, rfl, nofun⟩
  | recvfrom =>
    simp only [State.executeClient, pc] at executes
    split at executes
    · cases executes
      exact .inl rfl
    · split at executes <;> cases executes
      exact .inl rfl
  | test =>
    simp only [State.executeClient, pc] at executes
    split_ifs at executes <;> cases executes
    · exact .inr ⟨_, rfl, nofun⟩
    · exact .inr ⟨_, rfl, nofun⟩
    · exact .inl rfl
  | terminate =>
    simp only [State.executeClient, pc] at executes
    cases executes
    exact .inl rfl
  | print =>
    simp only [State.executeClient, pc] at executes
    cases executes
    exact .inr ⟨_, rfl, fun _ _ => rfl⟩
  | returned | exited =>
    simp only [State.executeClient, pc] at executes
    cases executes

theorem length_events {state next : State} {events : List Event}
    (step : Step state events next) : events.length ≤ 1 := by
  cases step with
  | client expires executes =>
    rcases events_executeClient executes with rfl | ⟨event, rfl, -⟩
    · exact Nat.zero_le 1
    · exact Nat.le_refl 1
  | server executes => exact Nat.zero_le 1
  | request inNetwork => exact Nat.zero_le 1
  | reply inNetwork => exact Nat.zero_le 1
  | loseRequest inNetwork => exact Nat.le_refl 1
  | loseReply inNetwork => exact Nat.le_refl 1

/-- Whatever the network loses, delays or reorders: each line the client prints is the echo of a
line that it has sent before and has not printed yet. It is the echo of the line sent most recently
if, when that was sent, every line sent before had been printed or had been lost on its way; in
particular as long as no wait has ended with a timeout. -/
theorem prints_own_echo {file text : List Byte} {before after : List Event} {state : State}
    (run : Run (udpEcho file) (before ++ .fputs text :: after) state) :
    text ::ₘ (Ledger.delivered (entries before) : Multiset (List Byte)) ≤
        (Ledger.sent (entries before) : Multiset (List Byte)) ∧
      (∀ earlier line later, before = earlier ++ .sendto line :: later →
        Ledger.sent (entries later) = [] →
        (Ledger.sent (entries earlier)).length =
          (Ledger.delivered (entries earlier)).length + (Ledger.lost (entries earlier)).length →
        text = line) ∧
      (.timeout ∉ before → (Ledger.sent (entries before)).getLast? = some text) := by
  have atStart : ∀ history state, (udpEcho file).start history state → history = [] :=
    fun _ _ starts => starts.1
  have single : ∀ state events next, (udpEcho file).step state events next → events.length ≤ 1 :=
    fun _ _ _ step => length_events step
  obtain ⟨printing, next, runBefore, step⟩ := run.before_event atStart single
  obtain ⟨ledger, inv⟩ := inv_run runBefore
  obtain ⟨ledger', inv'⟩ := inv_step inv step
  have delivers : ledger.accept (.delivered text) = some ledger' := by
    have accepted := inv'.accepted
    rw [entries_append, accepts_append, inv.accepted] at accepted
    exact (accepts_singleton _ _ _).symm.trans accepted
  refine ⟨Ledger.delivered_le_sent inv.accepted delivers, ?_, fun onTime => ?_⟩
  · rintro earlier line later rfl noneSent settled
    have split : entries (earlier ++ .sendto line :: later) =
        entries earlier ++ [.sent line] ++ entries later := by
      rw [List.append_assoc]
      exact entries_append _ _
    have accepted := inv.accepted
    rw [split] at accepted
    have alone := Ledger.alone_of_settled accepted settled noneSent
    have last := Ledger.delivered_eq_last accepted alone delivers
    rw [Ledger.sent_append, noneSent, List.append_nil, Ledger.sent_append] at last
    exact (Option.some.inj (List.getLast?_concat.symm.trans last)).symm
  · have pc : printing.client.pc = .print := by
      cases step with
      | client expires executes =>
        rcases events_executeClient executes with none | ⟨event, same, isPrint⟩
        · cases none
        · exact isPrint text (List.cons.inj same).1.symm
    exact Ledger.delivered_eq_last inv.accepted (inv.alone onTime (by simp [pc])) delivers

/-! ### A reply in time and a reply too late -/

/-- A statement of the client that does not fail. -/
theorem Step.runs {state next : State} {events : List Event}
    (executes : state.executeClient none = some (events, next)) : Step state events next :=
  .client (by rintro ⟨⟩) executes

/-- The client before its first line, and the server. -/
def started (file : List Byte) : State where
  client := ⟨.gets, file, [], [], 0, .eintr⟩
  server := ⟨.recvfrom, [], 0⟩
  toServer := 0
  requests := []
  toClient := 0
  replies := []

/-- The line `a` is sent, received by the server and sent back. -/
def echoed (rest : List Byte) : State where
  client := ⟨.recvfrom, rest, [97, 10, 0], [], 0, .eintr⟩
  server := ⟨.recvfrom, [97, 10], 2⟩
  toServer := 0
  requests := []
  toClient := {[97, 10]}
  replies := []

theorem run_echoed (rest : List Byte) :
    Run (udpEcho (97 :: 10 :: rest)) [.sendto [97, 10]] (echoed rest) := by
  have start : Run (udpEcho (97 :: 10 :: rest)) [] (started (97 :: 10 :: rest)) :=
    .start ⟨rfl, rfl, rfl, rfl, rfl, rfl, rfl, rfl⟩
  have gets := start.step (.runs rfl)
  have sendto := gets.step (.runs rfl)
  have request := sendto.step (@Step.request _ [97, 10] 0 rfl)
  have received := request.step (.server rfl)
  exact received.step (.server rfl)

/-- The lines `a`, `b` and `c`. -/
def threeLines : List Byte := [97, 10, 98, 10, 99, 10]

/-- The echo of `a` comes in time. -/
theorem run_first : Run (udpEcho threeLines) [.sendto [97, 10], .fputs [97, 10]]
    ⟨⟨.gets, [98, 10, 99, 10], [97, 10, 0], [97, 10, 0], 2, .eintr⟩, ⟨.recvfrom, [97, 10], 2⟩,
      0, [], 0, []⟩ := by
  have reply := (run_echoed [98, 10, 99, 10]).step (@Step.reply _ [97, 10] 0 rfl)
  have test := (reply.step (.runs rfl)).step (.runs rfl)
  exact (test.step (.runs rfl)).step (.runs rfl)

/-- The line `b` is lost, and the wait for its echo ends. -/
theorem run_second : Run (udpEcho threeLines)
    [.sendto [97, 10], .fputs [97, 10], .sendto [98, 10], .lost [98, 10], .timeout]
    ⟨⟨.gets, [99, 10], [98, 10, 0], [97, 10, 0], -1, .ewouldblock⟩, ⟨.recvfrom, [97, 10], 2⟩,
      0, [], 0, []⟩ := by
  have sent := (run_first.step (.runs rfl)).step (.runs rfl)
  have lost := sent.step (@Step.loseRequest _ [98, 10] 0 rfl)
  have timeout := lost.step (@Step.client _ _ _ (some .ewouldblock) (fun _ => rfl) rfl)
  exact timeout.step (.runs rfl)

/-- Everything before the echo of `c` is printed. -/
def untilThird : List Event :=
  [.sendto [97, 10], .fputs [97, 10], .sendto [98, 10], .lost [98, 10], .timeout, .sendto [99, 10]]

/-- The echo of `c` comes in time. -/
theorem run_third : Run (udpEcho threeLines) (untilThird ++ .fputs [99, 10] :: [])
    ⟨⟨.gets, [], [99, 10, 0], [99, 10, 0], 2, .ewouldblock⟩, ⟨.recvfrom, [99, 10], 2⟩,
      0, [], 0, []⟩ := by
  have sent := (run_second.step (.runs rfl)).step (.runs rfl)
  have request := sent.step (@Step.request _ [99, 10] 0 rfl)
  have echoed := (request.step (.server rfl)).step (.server rfl)
  have reply := echoed.step (@Step.reply _ [99, 10] 0 rfl)
  have test := (reply.step (.runs rfl)).step (.runs rfl)
  exact (test.step (.runs rfl)).step (.runs rfl)

/-- Before the timeout the echo of the last line is printed. Behind it the echo of `c` is, because
nothing else is under way. -/
theorem prints_own_echo_threeLines :
    (Ledger.sent (entries [.sendto [97, 10]])).getLast? = some [97, 10] ∧
      (Ledger.sent (entries untilThird)).getLast? = some [99, 10] ∧
        [99, 10] ::ₘ (Ledger.delivered (entries untilThird) : Multiset (List Byte)) ≤
          (Ledger.sent (entries untilThird) : Multiset (List Byte)) := by
  obtain ⟨-, -, inTime⟩ := @prints_own_echo threeLines [97, 10] [.sendto [97, 10]] [] _ run_first
  obtain ⟨own, alone, -⟩ := prints_own_echo run_third
  have last := alone [.sendto [97, 10], .fputs [97, 10], .sendto [98, 10], .lost [98, 10],
    .timeout] [99, 10] [] rfl rfl rfl
  exact ⟨inTime (by decide), congrArg some last, own⟩

/-- The wait for the echo of `a` ends with a timeout, and the echo comes after `b` has been
sent. -/
theorem not_prints_echo_of_last :
    ¬ ∀ (history : List Event) (state : State),
      Run (udpEcho [97, 10, 98, 10]) history state → EchoesLast history := by
  intro echoes
  have timeout := (run_echoed [98, 10]).step 
    (@Step.client _ _ _ (some .ewouldblock) (fun _ => rfl) rfl)
  have test := timeout.step (.runs rfl)
  have gets := test.step (.runs rfl)
  have sendto := gets.step (.runs rfl)
  have reply := sendto.step (@Step.reply _ [97, 10] 0 rfl)
  have recvfrom := reply.step (.runs rfl)
  have test' := recvfrom.step (.runs rfl)
  have terminate := test'.step (.runs rfl)
  have print := terminate.step (.runs rfl)
  have last := echoes _ _ print [.sendto [97, 10], .timeout, .sendto [98, 10]] [97, 10] [] rfl
  cases last

end SocketProgram.UdpTimeout
