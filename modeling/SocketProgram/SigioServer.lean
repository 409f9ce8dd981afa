/-
This file models the echo server of `sigio/dgecho01.c`, which receives in a signal
handler. `dg_echo` sets the socket up, blocks `SIGIO`, and then sends the datagrams that
wait in the slots of `dg` back; `sig_io` receives datagrams into the slots until there
are none left in the socket. The kernel, the handler and the main loop take turns
instruction by instruction, the handler wherever the signal mask lets it in.

The slots are a ring. Between `sendto` and `nqueue--` the main loop has sent a datagram
that it still counts, and between `++iget` and `nqueue--` it has left the slot too; the
slots that hold what has been received and not yet sent are found from `iget` and
`nqueue` by taking this into account. They are a queue of entries in every state. Where
`recvfrom` fails only for want of datagrams the entries are datagrams, and what has been sent and
what waits in the slots is what has been received. The diagnostic counters of `sig_hup` are left
out.
-/

import Mathlib.Data.List.Forall2
import Mathlib.Data.List.ReduceOption
import SocketProgram.Kernel
import SocketProgram.Library.Interrupts
import SocketProgram.Library.Ring

namespace SocketProgram.SigioServer

open Memory Runs

/-! ### The server -/

/-- `QSIZE`. -/
abbrev qsize : Nat := 8

/-- `MAXDG`. -/
def maxdg : Nat := 4096

/-- A datagram with the address it comes from, or it is sent to; a slot that nothing has been
received into has no address. -/
structure Datagram (Address : Type*) where
  data : List Byte
  sa : Option Address

/-- `DG`. `dgSa` is `dg_sa` with `dg_salen`. -/
structure Dg (Address : Type*) where
  dgData : List Byte
  dgLen : Nat
  dgSa : Option Address

variable {Address : Type*}

/-- What `sendto` sends of a slot. -/
def Dg.datagram (slot : Dg Address) : Datagram Address :=
  ⟨slot.dgData.take slot.dgLen, slot.dgSa⟩

/-- Where `dg_echo` is: the statement it executes next. -/
inductive MainPc
  | signal
  | setown
  | fioasync
  | fionbio
  | blockFirst
  | test
  | suspend
  | unblock
  | send
  | advance
  | block
  | decrement
  deriving DecidableEq, Repr

/-- Where `sig_io` is, with its `nread`; or the process has exited from it. -/
inductive HandlerPc
  | test (nread : Nat)
  | recvfrom (nread : Nat)
  | leave (nread : Nat)
  | exited
  deriving DecidableEq, Repr

/-- The process and what the kernel keeps for it. `mask` and `oldmask` are whether `SIGIO` is in
the signal mask of the main loop and in the variable; `async` and `nonblock` are `FIOASYNC` and
`FIONBIO` of the socket. -/
structure State (Address : Type*) where
  main : MainPc
  handler : Option HandlerPc
  dg : Nat → Dg Address
  iget : Nat
  iput : Nat
  nqueue : Int
  mask : Bool
  oldmask : Bool
  queue : List (Datagram Address)
  pending : Bool
  async : Bool
  nonblock : Bool

/-- What is seen of a run: what arrives at the socket, what `recvfrom` and `sendto` take and
send, what is printed. -/
inductive Event (Address : Type*)
  | arrived (datagram : Datagram Address)
  | received (datagram : Datagram Address)
  | sendto (datagram : Datagram Address)
  | printf (text : String)

/-- One statement of `dg_echo`. In `sigsuspend` it waits for the handler. -/
def State.executeMain (state : State Address) : Option (List (Event Address) × State Address) :=
  match state.main with
  | .signal => some ([], { state with main := .setown })
  | .setown => some ([], { state with main := .fioasync })
  | .fioasync => some ([], { state with main := .fionbio, async := true })
  | .fionbio => some ([], { state with main := .blockFirst, nonblock := true })
  | .blockFirst => some ([], { state with main := .test, oldmask := state.mask, mask := true })
  | .test =>
    if state.nqueue = 0 then some ([], { state with main := .suspend })
    else some ([], { state with main := .unblock })
  | .suspend => none
  -- `SIG_BLOCK` with `oldmask`, which takes nothing out of the mask
  | .unblock => some ([], { state with main := .send, mask := state.mask || state.oldmask })
  | .send => some ([.sendto (state.dg state.iget).datagram], { state with main := .advance })
  | .advance => some ([], { state with main := .block, iget := Ring.next qsize state.iget })
  | .block =>
    some ([], { state with main := .decrement, oldmask := state.mask, mask := true })
  | .decrement => some ([], { state with main := .test, nqueue := state.nqueue - 1 })

/-- What a statement of `dg_echo` does, one constructor for each way it can go. -/
inductive State.MainDoes (state : State Address) : List (Event Address) → State Address → Prop
  | signal (atPc : state.main = .signal) : MainDoes state [] { state with main := .setown }
  | setown (atPc : state.main = .setown) : MainDoes state [] { state with main := .fioasync }
  | fioasync (atPc : state.main = .fioasync) :
      MainDoes state [] { state with main := .fionbio, async := true }
  | fionbio (atPc : state.main = .fionbio) :
      MainDoes state [] { state with main := .blockFirst, nonblock := true }
  | blockFirst (atPc : state.main = .blockFirst) :
      MainDoes state [] { state with main := .test, oldmask := state.mask, mask := true }
  | waits (atPc : state.main = .test) (empty : state.nqueue = 0) :
      MainDoes state [] { state with main := .suspend }
  | goesOn (atPc : state.main = .test) (waiting : state.nqueue ≠ 0) :
      MainDoes state [] { state with main := .unblock }
  | unblock (atPc : state.main = .unblock) :
      MainDoes state [] { state with main := .send, mask := state.mask || state.oldmask }
  | send (atPc : state.main = .send) :
      MainDoes state [.sendto (state.dg state.iget).datagram] { state with main := .advance }
  | advance (atPc : state.main = .advance) :
      MainDoes state [] { state with main := .block, iget := Ring.next qsize state.iget }
  | block (atPc : state.main = .block) :
      MainDoes state [] { state with main := .decrement, oldmask := state.mask, mask := true }
  | decrement (atPc : state.main = .decrement) :
      MainDoes state [] { state with main := .test, nqueue := state.nqueue - 1 }

theorem mainDoes_of_executeMain {state next : State Address} {events : List (Event Address)}
    (executes : state.executeMain = some (events, next)) : state.MainDoes events next := by
  cases atPc : state.main with
  | test =>
    rw [State.executeMain, atPc] at executes
    dsimp only at executes
    split_ifs at executes with empty <;>
      obtain ⟨rfl, rfl⟩ := Prod.mk.inj (Option.some.inj executes)
    · exact .waits atPc empty
    · exact .goesOn atPc empty
  | suspend =>
    rw [State.executeMain, atPc] at executes
    cases executes
  | signal | setown | fioasync | fionbio | blockFirst | unblock | send | advance | block
  | decrement =>
    rw [State.executeMain, atPc] at executes
    obtain ⟨rfl, rfl⟩ := Prod.mk.inj (Option.some.inj executes)
    constructor
    exact atPc

/-- A datagram as `recvfrom` hands it over, cut to the size of the buffer. -/
def Datagram.cut (datagram : Datagram Address) : Datagram Address :=
  { datagram with data := datagram.data.take maxdg }

/-- What `recvfrom` stores in a slot, with its length. -/
def Dg.receive (slot : Dg Address) (datagram : Datagram Address) : Dg Address where
  dgData := overwrite slot.dgData 0 datagram.data
  dgLen := datagram.data.length
  dgSa := datagram.sa

/-- A `ssize_t` of -1 where a `size_t` is expected. -/
def sizeMax : Nat := 2 ^ 64 - 1

/-- `sig_io` after `recvfrom` has filled the slot at `iput`: the entry is counted. -/
def State.count (state : State Address) (nread : Nat) (slot : Dg Address) : State Address :=
  { state with
    handler := some (.test (nread + 1))
    dg := Function.update state.dg state.iput slot
    nqueue := state.nqueue + 1
    iput := Ring.next qsize state.iput }

/-- One statement of `sig_io`. `failure` is an error of `recvfrom` other than `EWOULDBLOCK`: it is
printed, and the loop goes on with a length of -1. With nothing to receive `recvfrom` fails with
`EWOULDBLOCK`, or blocks. -/
def State.executeHandler (failure : Bool) (state : State Address) :
    HandlerPc → Option (List (Event Address) × State Address)
  | .test nread =>
    if (qsize : Int) ≤ state.nqueue then
      some ([.printf "receive overflow"], { state with handler := some .exited })
    else some ([], { state with handler := some (.recvfrom nread) })
  | .recvfrom nread =>
    if failure then
      some ([.printf "recvfrom error"],
        state.count nread { state.dg state.iput with dgLen := sizeMax })
    else
      match state.queue with
      | [] =>
        if state.nonblock then some ([], { state with handler := some (.leave nread) }) else none
      | datagram :: queue =>
        some ([.received datagram.cut],
          { state with queue := queue }.count nread
            ((state.dg state.iput).receive datagram.cut))
  | .leave _ =>
    some ([], { state with
      handler := none, main := if state.main = .suspend then .test else state.main })
  | .exited => none

/-- What a statement of `sig_io` does, one constructor for each way it can go. -/
inductive State.HandlerDoes (state : State Address) :
    Bool → HandlerPc → List (Event Address) → State Address → Prop
  | overflows {failure : Bool} {nread : Nat} (full : (qsize : Int) ≤ state.nqueue) :
      HandlerDoes state failure (.test nread) [.printf "receive overflow"]
        { state with handler := some .exited }
  | tests {failure : Bool} {nread : Nat} (room : state.nqueue < qsize) :
      HandlerDoes state failure (.test nread) [] { state with handler := some (.recvfrom nread) }
  | fails {nread : Nat} :
      HandlerDoes state true (.recvfrom nread) [.printf "recvfrom error"]
        (state.count nread { state.dg state.iput with dgLen := sizeMax })
  | finds {nread : Nat} (empty : state.queue = []) :
      HandlerDoes state false (.recvfrom nread) [] { state with handler := some (.leave nread) }
  | receives {nread : Nat} {datagram : Datagram Address} {queue : List (Datagram Address)}
      (waiting : state.queue = datagram :: queue) :
      HandlerDoes state false (.recvfrom nread) [.received datagram.cut]
        ({ state with queue := queue }.count nread ((state.dg state.iput).receive datagram.cut))
  | leaves {failure : Bool} {nread : Nat} :
      HandlerDoes state failure (.leave nread) [] { state with
        handler := none, main := if state.main = .suspend then .test else state.main }

theorem handlerDoes_of_executeHandler {state next : State Address} {events : List (Event Address)}
    {failure : Bool} {pc : HandlerPc}
    (executes : state.executeHandler failure pc = some (events, next)) :
    state.HandlerDoes failure pc events next := by
  cases pc with
  | test nread =>
    simp only [State.executeHandler] at executes
    split_ifs at executes with full
    · cases executes
      exact .overflows full
    · cases executes
      exact .tests (Int.not_le.mp full)
  | recvfrom nread =>
    cases failure with
    | true =>
      simp only [State.executeHandler, if_true] at executes
      cases executes
      exact .fails
    | false =>
      simp only [State.executeHandler, Bool.false_eq_true, if_false] at executes
      split at executes
      · rename_i empty
        split_ifs at executes
        cases executes
        exact .finds empty
      · rename_i waiting
        cases executes
        exact .receives waiting
  | leave nread =>
    cases executes
    exact .leaves
  | exited => cases executes

/-- One statement of the process: of the handler while it runs. -/
def Executes (fails : Prop) (state : State Address) (events : List (Event Address))
    (next : State Address) : Prop :=
  match state.handler with
  | none => state.executeMain = some (events, next)
  | some pc => ∃ failure, (failure = true → fails) ∧
      state.executeHandler failure pc = some (events, next)

/-- `SIGIO` is delivered: it is pending and not blocked, or the main loop waits in
`sigsuspend`. -/
inductive Delivers : State Address → List (Event Address) → State Address → Prop
  | sigio {state : State Address} (pending : state.pending = true)
      (outside : state.handler = none)
      (unblocked : state.mask = false ∨ state.main = .suspend) :
      Delivers state [] { state with pending := false, handler := some (.test 0) }

/-- A datagram arrives: the kernel posts `SIGIO` if it has been asked for. -/
inductive Arrives : State Address → List (Event Address) → State Address → Prop
  | datagram (state : State Address) (datagram : Datagram Address) :
      Arrives state [.arrived datagram]
        { state with queue := state.queue ++ [datagram], pending := state.pending || state.async }

/-- `dg_echo` and `sig_io` on a bound socket, from `signal(SIGIO,sig_io)` on and with any signal
mask. `fails` is whether `recvfrom` may fail for another reason than that there is nothing to
receive. -/
def sigioEcho (fails : Prop) : Process (State Address) (Event Address) where
  begins state :=
    state.main = .signal ∧ state.handler = none ∧ state.iget = 0 ∧ state.iput = 0 ∧
      state.nqueue = 0 ∧ state.queue = [] ∧ state.pending = false ∧ state.async = false ∧
      state.nonblock = false
  instruction := Executes fails
  delivery := Delivers
  outside := Arrives

/-! ### The queue of slots -/

/-- The datagrams a history has received, as `recvfrom` handed them over. -/
def received (history : List (Event Address)) : List (Datagram Address) :=
  history.filterMap fun event => match event with
    | .received datagram => some datagram
    | _ => none

/-- The datagrams a history has sent. -/
def sent (history : List (Event Address)) : List (Datagram Address) :=
  history.filterMap fun event => match event with
    | .sendto datagram => some datagram
    | _ => none

/-- The datagrams that have arrived in a history. -/
def arrived (history : List (Event Address)) : List (Datagram Address) :=
  history.filterMap fun event => match event with
    | .arrived datagram => some datagram
    | _ => none

@[simp]
theorem arrived_append (history events : List (Event Address)) :
    arrived (history ++ events) = arrived history ++ arrived events := List.filterMap_append

@[simp]
theorem received_append (history events : List (Event Address)) :
    received (history ++ events) = received history ++ received events := List.filterMap_append

@[simp]
theorem sent_append (history events : List (Event Address)) :
    sent (history ++ events) = sent history ++ sent events := List.filterMap_append

/-- Whether the main loop has sent a datagram that `nqueue` still counts. -/
def MainPc.counted : MainPc → Nat
  | .advance | .block | .decrement => 1
  | .signal | .setown | .fioasync | .fionbio | .blockFirst | .test | .suspend | .unblock
  | .send => 0

/-- Whether the main loop has sent the datagram in the slot `iget` names. -/
def MainPc.ahead : MainPc → Nat
  | .advance => 1
  | .signal | .setown | .fioasync | .fionbio | .blockFirst | .test | .suspend | .unblock | .send
  | .block | .decrement => 0

/-- The slot of the oldest datagram that has not been sent. -/
def State.first (state : State Address) : Nat := state.iget + state.main.ahead

/-- The entries a history has put into the slots: the datagrams received, and `none` for a
`recvfrom` that failed and was counted. -/
def entries (history : List (Event Address)) : List (Option (Datagram Address)) :=
  history.filterMap fun event => match event with
    | .received datagram => some (some datagram)
    | .printf text => if text = "recvfrom error" then some none else none
    | _ => none

@[simp]
theorem entries_append (history events : List (Event Address)) :
    entries (history ++ events) = entries history ++ entries events := List.filterMap_append

/-- The datagrams received are those among the entries. -/
theorem received_eq_entries (history : List (Event Address)) :
    received history = (entries history).reduceOption := by
  rw [received, entries, List.reduceOption, List.filterMap_filterMap]
  refine List.filterMap_congr fun event _ => ?_
  cases event with
  | printf text =>
    dsimp only
    split_ifs <;> rfl
  | _ => rfl

/-- A slot holds what was received into it, and no more than the buffer has room for; after a failed
`recvfrom` its length is the -1 that was returned. -/
def Holds : Option (Datagram Address) → Dg Address → Prop
  | some datagram, slot => slot.datagram = datagram ∧ slot.dgLen ≤ maxdg
  | none, slot => slot.dgLen = sizeMax

/-- An entry is sent as it was received. -/
def Sends (entry : Option (Datagram Address)) (datagram : Datagram Address) : Prop :=
  ∀ received ∈ entry, datagram = received

/-- What every run keeps, with so many entries not sent: `nqueue` counts them, the slots from the
first on hold them, and the slot `iput` names is the one behind the last. -/
structure Queued (history : List (Event Address)) (state : State Address) (unsent : Nat) :
    Prop where
  nqueue : state.nqueue = unsent + state.main.counted
  room : state.nqueue ≤ qsize
  iget_lt : state.iget < qsize
  iput : state.iput = (state.first + unsent) % qsize
  fifo : ∃ done waiting, entries history = done ++ waiting ∧
    List.Forall₂ Sends done (sent history) ∧
    List.Forall₂ Holds waiting (Ring.queued qsize state.dg state.first unsent)
  sending : state.main = .unblock ∨ state.main = .send → 0 < unsent
  receiving : ∀ nread, state.handler = some (.recvfrom nread) → state.nqueue < qsize

theorem queued_begins (fails : Prop) (state : State Address)
    (begins : (sigioEcho fails).begins state) : Queued [] state 0 := by
  obtain ⟨main, handler, iget, iput, nqueue, -⟩ := begins
  refine ⟨?_, ?_, ?_, ?_, ⟨[], [], rfl, .nil, .nil⟩, ?_, ?_⟩
  · rw [nqueue, main]
    rfl
  · rw [nqueue]
    decide
  · rw [iget]
    decide
  · rw [iput, State.first, iget, main]
    rfl
  · rw [main]
    rintro (wrong | wrong) <;> cases wrong
  · rw [handler]
    exact nofun

section Queued

variable {history events : List (Event Address)} {state next : State Address} {unsent : Nat}

/-- A statement that leaves the slots and the three variables alone, and stays where they mean the
same, keeps the queue. -/
theorem Queued.quiet (queued : Queued history state unsent)
    (silent : entries events = [] ∧ sent events = [])
    (slots : next.dg = state.dg ∧ next.iget = state.iget ∧ next.iput = state.iput ∧
      next.nqueue = state.nqueue)
    (counted : next.main.counted = state.main.counted) (ahead : next.main.ahead = state.main.ahead)
    (sending : next.main = .unblock ∨ next.main = .send → 0 < unsent)
    (receiving : ∀ nread, next.handler = some (.recvfrom nread) → state.nqueue < qsize) :
    Queued (history ++ events) next unsent := by
  obtain ⟨dg, iget, iput, nqueue⟩ := slots
  have first : next.first = state.first := by rw [State.first, State.first, iget, ahead]
  refine ⟨?_, ?_, ?_, ?_, ?_, sending, ?_⟩
  · rw [nqueue, counted]
    exact queued.nqueue
  · rw [nqueue]
    exact queued.room
  · rw [iget]
    exact queued.iget_lt
  · rw [iput, first]
    exact queued.iput
  · rw [entries_append, sent_append, silent.1, silent.2, List.append_nil, List.append_nil, dg,
      first]
    exact queued.fifo
  · rw [nqueue]
    exact receiving

/-- `sendto` takes the oldest entry off the queue, which `nqueue` goes on counting. -/
theorem Queued.send (queued : Queued history state (unsent + 1)) (atSend : state.main = .send) :
    Queued (history ++ [.sendto (state.dg state.iget).datagram])
      { state with main := .advance } unsent := by
  have first : state.first = state.iget := by
    rw [State.first, atSend]
    rfl
  have nqueue := queued.nqueue
  have iput := queued.iput
  obtain ⟨done, waiting, split, sends, holds⟩ := queued.fifo
  rw [atSend] at nqueue
  rw [first, Ring.queued_succ queued.iget_lt] at holds
  rw [first] at iput
  obtain ⟨entry, rest, held, others, rfl⟩ := List.forall₂_cons_right_iff.mp holds
  refine ⟨nqueue, queued.room, queued.iget_lt, ?_, ?_, nofun, queued.receiving⟩
  · rw [iput]
    show (state.iget + (unsent + 1)) % qsize = (state.iget + 1 + unsent) % qsize
    rw [Nat.add_comm unsent 1, Nat.add_assoc]
  · have sendsIt : Sends entry (state.dg state.iget).datagram := by
      rintro datagram ⟨⟩
      exact held.1
    refine ⟨done ++ [entry], rest, ?_, ?_, others⟩
    · rw [entries_append, split]
      show done ++ entry :: rest ++ [] = done ++ [entry] ++ rest
      rw [List.append_nil, List.append_assoc]
      rfl
    · rw [sent_append]
      exact List.rel_append sends (.cons sendsIt .nil)

/-- Going on to the next slot leaves the queue. -/
theorem Queued.advance (queued : Queued history state unsent) (atAdvance : state.main = .advance) :
    Queued history { state with main := .block, iget := Ring.next qsize state.iget } unsent := by
  have next := Ring.next_eq queued.iget_lt
  have first : state.first = state.iget + 1 := by
    rw [State.first, atAdvance]
    rfl
  have nqueue := queued.nqueue
  have iput := queued.iput
  obtain ⟨done, waiting, split, sends, holds⟩ := queued.fifo
  rw [atAdvance] at nqueue
  rw [first] at holds iput
  refine ⟨nqueue, queued.room, Ring.next_lt queued.iget_lt, ?_,
    ⟨done, waiting, split, sends, ?_⟩, nofun, queued.receiving⟩
  · show state.iput = (Ring.next qsize state.iget + unsent) % qsize
    rw [iput, next, Nat.mod_add_mod]
  · show List.Forall₂ Holds waiting
      (Ring.queued qsize state.dg (Ring.next qsize state.iget) unsent)
    rw [next, Ring.queued_mod]
    exact holds

/-- `nqueue--` stops counting what has been sent. -/
theorem Queued.decrement (queued : Queued history state unsent)
    (atDecrement : state.main = .decrement) :
    Queued history { state with main := .test, nqueue := state.nqueue - 1 } unsent := by
  have first : state.first = state.iget := by
    rw [State.first, atDecrement]
    rfl
  have nqueue : state.nqueue = unsent + 1 := by
    have counted := queued.nqueue
    rwa [atDecrement] at counted
  have fifo := queued.fifo
  have iput := queued.iput
  rw [first] at fifo iput
  have room := queued.room
  refine ⟨?_, ?_, queued.iget_lt, iput, fifo, by simp, ?_⟩
  · show state.nqueue - 1 = (unsent : Int) + 0
    omega
  · show state.nqueue - 1 ≤ qsize
    omega
  · intro nread atRecvfrom
    have below := queued.receiving nread atRecvfrom
    show state.nqueue - 1 < qsize
    omega

/-- A statement of the main loop keeps the queue. -/
theorem queued_executeMain (queued : Queued history state unsent)
    (outside : state.handler = none) (executes : state.executeMain = some (events, next)) :
    ∃ unsent', Queued (history ++ events) next unsent' := by
  have notReceiving (state' : State Address) (same : state'.handler = state.handler)
      (nread : Nat) : state'.handler = some (.recvfrom nread) → state.nqueue < qsize := by
    rw [same, outside]
    exact nofun
  cases mainDoes_of_executeMain executes with
  | signal atPc | setown atPc | fioasync atPc | fionbio atPc | blockFirst atPc | waits atPc
  | block atPc =>
    exact ⟨unsent, queued.quiet ⟨rfl, rfl⟩ ⟨rfl, rfl, rfl, rfl⟩ (atPc ▸ rfl) (atPc ▸ rfl)
      (by simp) (notReceiving _ rfl)⟩
  | goesOn atPc waiting =>
    have nqueue := queued.nqueue
    rw [atPc] at nqueue
    have positive : 0 < unsent := Nat.pos_of_ne_zero fun none => waiting (by rw [nqueue, none]; rfl)
    exact ⟨unsent, queued.quiet ⟨rfl, rfl⟩ ⟨rfl, rfl, rfl, rfl⟩ (atPc ▸ rfl) (atPc ▸ rfl)
      (fun _ => positive) (notReceiving _ rfl)⟩
  | unblock atPc =>
    exact ⟨unsent, queued.quiet ⟨rfl, rfl⟩ ⟨rfl, rfl, rfl, rfl⟩ (atPc ▸ rfl) (atPc ▸ rfl)
      (fun _ => queued.sending (.inl atPc)) (notReceiving _ rfl)⟩
  | send atPc =>
    have positive := queued.sending (.inr atPc)
    obtain ⟨unsent, rfl⟩ := Nat.exists_eq_add_one_of_ne_zero positive.ne'
    exact ⟨unsent, queued.send atPc⟩
  | advance atPc =>
    rw [List.append_nil]
    exact ⟨unsent, queued.advance atPc⟩
  | decrement atPc =>
    rw [List.append_nil]
    exact ⟨unsent, queued.decrement atPc⟩

/-- What has been received into a slot is sent from it. -/
theorem Dg.datagram_receive (slot : Dg Address) (datagram : Datagram Address) :
    (slot.receive datagram).datagram = datagram := by
  show (⟨(overwrite slot.dgData 0 datagram.data).take datagram.data.length, datagram.sa⟩ :
    Datagram Address) = datagram
  rw [overwrite_zero, List.take_left]

/-- A datagram that has been received into a slot is held there. -/
theorem holds_receive (slot : Dg Address) (datagram : Datagram Address) :
    Holds (some datagram.cut) (slot.receive datagram.cut) :=
  ⟨slot.datagram_receive datagram.cut, List.length_take_le _ _⟩

/-- A `recvfrom` whose result is counted appends an entry to the queue. -/
theorem Queued.count (queued : Queued history state unsent) {nread : Nat}
    (atRecvfrom : state.handler = some (.recvfrom nread)) (queue : List (Datagram Address))
    {entry : Option (Datagram Address)} {slot : Dg Address} (holds : Holds entry slot)
    (event : entries events = [entry] ∧ sent events = []) :
    Queued (history ++ events) ({ state with queue := queue }.count nread slot) (unsent + 1) := by
  have below := queued.receiving nread atRecvfrom
  have nqueue := queued.nqueue
  have free : unsent < qsize := by omega
  have iput_lt : state.iput < qsize := queued.iput ▸ Nat.mod_lt _ (by decide)
  refine ⟨?_, ?_, queued.iget_lt, ?_, ?_, fun _ => Nat.succ_pos _, nofun⟩
  · show state.nqueue + 1 = ((unsent + 1 : Nat) : Int) + state.main.counted
    omega
  · show state.nqueue + 1 ≤ qsize
    omega
  · show Ring.next qsize state.iput = (state.first + (unsent + 1)) % qsize
    rw [Ring.next_eq iput_lt, queued.iput, Nat.mod_add_mod, Nat.add_assoc]
  · obtain ⟨done, waiting, split, sends, held⟩ := queued.fifo
    refine ⟨done, waiting ++ [entry], ?_, ?_, ?_⟩
    · rw [entries_append, split, event.1, List.append_assoc]
    · rw [sent_append, event.2, List.append_nil]
      exact sends
    · show List.Forall₂ Holds (waiting ++ [entry])
        (Ring.queued qsize (Function.update state.dg state.iput slot) state.first (unsent + 1))
      rw [queued.iput, Ring.queued_push free]
      exact List.rel_append held (.cons holds .nil)

/-- A statement of the handler keeps the queue. -/
theorem queued_executeHandler (queued : Queued history state unsent) {pc : HandlerPc}
    {failure : Bool} (inside : state.handler = some pc)
    (executes : state.executeHandler failure pc = some (events, next)) :
    ∃ unsent', Queued (history ++ events) next unsent' := by
  cases handlerDoes_of_executeHandler executes with
  | overflows full =>
    exact ⟨unsent, queued.quiet ⟨rfl, rfl⟩ ⟨rfl, rfl, rfl, rfl⟩ rfl rfl queued.sending nofun⟩
  | tests room =>
    exact ⟨unsent, queued.quiet ⟨rfl, rfl⟩ ⟨rfl, rfl, rfl, rfl⟩ rfl rfl queued.sending
      fun _ _ => room⟩
  | fails =>
    have failed : Holds none { state.dg state.iput with dgLen := sizeMax } := rfl
    exact ⟨unsent + 1, queued.count inside state.queue failed ⟨rfl, rfl⟩⟩
  | finds empty =>
    exact ⟨unsent, queued.quiet ⟨rfl, rfl⟩ ⟨rfl, rfl, rfl, rfl⟩ rfl rfl queued.sending nofun⟩
  | receives waiting =>
    exact ⟨unsent + 1, queued.count inside _ (holds_receive _ _) ⟨rfl, rfl⟩⟩
  | leaves =>
    refine ⟨unsent, queued.quiet ⟨rfl, rfl⟩ ⟨rfl, rfl, rfl, rfl⟩ ?_ ?_ ?_ nofun⟩
    · dsimp only
      split_ifs with suspended
      · rw [suspended]
        rfl
      · rfl
    · dsimp only
      split_ifs with suspended
      · rw [suspended]
        rfl
      · rfl
    · dsimp only
      split_ifs with suspended
      · rintro (wrong | wrong) <;> cases wrong
      · exact queued.sending

end Queued

/-- A statement is one of the main loop, or one of the handler while it runs. -/
theorem executes_cases {fails : Prop} {state next : State Address} {events : List (Event Address)}
    (executes : Executes fails state events next) :
    (state.handler = none ∧ state.executeMain = some (events, next)) ∨
      ∃ pc failure, state.handler = some pc ∧ (failure = true → fails) ∧
        state.executeHandler failure pc = some (events, next) := by
  unfold Executes at executes
  cases handler : state.handler with
  | none =>
    rw [handler] at executes
    exact .inl ⟨rfl, executes⟩
  | some pc =>
    rw [handler] at executes
    obtain ⟨failure, allowed, executes⟩ := executes
    exact .inr ⟨pc, failure, rfl, allowed, executes⟩

/-- Where `recvfrom` fails only for want of datagrams, a statement of the handler meets no other
failure. -/
theorem executes_cases_of_never {state next : State Address} {events : List (Event Address)}
    (executes : Executes False state events next) :
    (state.handler = none ∧ state.executeMain = some (events, next)) ∨
      ∃ pc, state.handler = some pc ∧ state.executeHandler false pc = some (events, next) := by
  rcases executes_cases executes with main | ⟨pc, failure, inside, never, handler⟩
  · exact .inl main
  · cases failure with
    | true => exact (never rfl).elim
    | false => exact .inr ⟨pc, inside, handler⟩

/-- The slots are a queue of entries in every run. -/
theorem queued_run {fails : Prop} {history : List (Event Address)} {state : State Address}
    (run : Run (sigioEcho fails).system history state) : ∃ unsent, Queued history state unsent := by
  refine Process.invariant (fun history state => ∃ unsent, Queued history state unsent) ?_ ?_ ?_ ?_
    run
  · exact fun state begins => ⟨0, queued_begins fails state begins⟩
  · rintro history state events next ⟨unsent, queued⟩ executes
    rcases executes_cases executes with ⟨outside, main⟩ | ⟨pc, failure, inside, -, handler⟩
    · exact queued_executeMain queued outside main
    · exact queued_executeHandler queued inside handler
  · rintro history state events next ⟨unsent, queued⟩ ⟨pending, outside, unblocked⟩
    exact ⟨unsent, queued.quiet ⟨rfl, rfl⟩ ⟨rfl, rfl, rfl, rfl⟩ rfl rfl queued.sending nofun⟩
  · rintro history state events next ⟨unsent, queued⟩ ⟨datagram⟩
    exact ⟨unsent, queued.quiet ⟨rfl, rfl⟩ ⟨rfl, rfl, rfl, rfl⟩ rfl rfl queued.sending
      queued.receiving⟩

/-- What every run keeps, with so many datagrams not sent: `nqueue` counts them, the slots from
the first on hold them, and the slot `iput` names is the one behind the last. -/
structure Inv (history : List (Event Address)) (state : State Address) (unsent : Nat) : Prop where
  nqueue : state.nqueue = unsent + state.main.counted
  room : state.nqueue ≤ qsize
  iget_lt : state.iget < qsize
  iput : state.iput = (state.first + unsent) % qsize
  fifo : received history =
    sent history ++ (Ring.queued qsize state.dg state.first unsent).map Dg.datagram
  sending : state.main = .unblock ∨ state.main = .send → 0 < unsent
  receiving : ∀ nread, state.handler = some (.recvfrom nread) → state.nqueue < qsize

/-- Entries that are all datagrams, next to what has each of them in it. -/
theorem reduceOption_of_forall₂ {Cell : Type*} {inside : Cell → Datagram Address}
    {list : List (Option (Datagram Address))} {cells : List Cell}
    (holds : List.Forall₂ (fun entry cell => ∀ datagram ∈ entry, inside cell = datagram) list cells)
    (received : none ∉ list) : list.reduceOption = cells.map inside := by
  induction holds with
  | nil => rfl
  | @cons entry cell list cells held _ inductionHypothesis =>
    obtain ⟨here, others⟩ := not_or.mp (List.mem_cons.not.mp received)
    obtain ⟨datagram, rfl⟩ := Option.ne_none_iff_exists'.mp (Ne.symm here)
    rw [List.reduceOption_cons_of_some, inductionHypothesis others, List.map_cons,
      held datagram rfl]

/-- Where nothing but datagrams has been entered, the slots hold them as they were received. -/
theorem Queued.inv {history : List (Event Address)} {state : State Address} {unsent : Nat}
    (queued : Queued history state unsent) (received : none ∉ entries history) :
    Inv history state unsent := by
  refine { queued with fifo := ?_ }
  obtain ⟨done, waiting, split, sends, holds⟩ := queued.fifo
  rw [split, List.mem_append, not_or] at received
  have held : List.Forall₂ (fun entry slot => ∀ datagram ∈ entry, Dg.datagram slot = datagram)
      waiting (Ring.queued qsize state.dg state.first unsent) := by
    refine holds.imp fun entry slot held => ?_
    rintro datagram ⟨⟩
    exact held.1
  rw [received_eq_entries, split, List.reduceOption_append,
    reduceOption_of_forall₂ sends received.1, reduceOption_of_forall₂ held received.2, List.map_id']

theorem entries_executeMain {state next : State Address} {events : List (Event Address)}
    (executes : state.executeMain = some (events, next)) : entries events = [] := by
  cases mainDoes_of_executeMain executes <;> rfl

theorem none_notMem_executeHandler {state next : State Address} {events : List (Event Address)}
    {pc : HandlerPc} (executes : state.executeHandler false pc = some (events, next)) :
    none ∉ entries events := by
  cases handlerDoes_of_executeHandler executes with
  | overflows | tests | finds | receives | leaves => simp [entries]

/-- No `recvfrom` is counted in vain where it fails only for want of datagrams. -/
theorem none_notMem_entries {history : List (Event Address)} {state : State Address}
    (run : Run (sigioEcho False).system history state) : none ∉ entries history := by
  refine Process.invariant (fun history _ => none ∉ entries history) ?_ ?_ ?_ ?_ run
  · exact fun _ _ => List.not_mem_nil
  · intro history state events next received executes
    rw [entries_append, List.mem_append, not_or]
    refine ⟨received, ?_⟩
    rcases executes_cases_of_never executes with ⟨-, main⟩ | ⟨pc, -, handler⟩
    · rw [entries_executeMain main]
      exact List.not_mem_nil
    · exact none_notMem_executeHandler handler
  · rintro history state events next received ⟨-, -, -⟩
    rwa [List.append_nil]
  · rintro history state events next received ⟨datagram⟩
    rw [entries_append]
    exact (List.append_nil (entries history)).symm ▸ received

/-- The slots are a queue in every run in which `recvfrom` fails only for want of datagrams. -/
theorem inv_run {history : List (Event Address)} {state : State Address}
    (run : Run (sigioEcho False).system history state) : ∃ unsent, Inv history state unsent := by
  obtain ⟨unsent, queued⟩ := queued_run run
  exact ⟨unsent, queued.inv (none_notMem_entries run)⟩

/-- While the datagram in a slot is about to be sent, what the handler receives goes into another
slot. -/
theorem Inv.iput_ne_iget {history : List (Event Address)} {state : State Address} {unsent : Nat}
    (inv : Inv history state unsent) (sending : state.main = .unblock ∨ state.main = .send)
    {nread : Nat} (atRecvfrom : state.handler = some (.recvfrom nread)) :
    state.iget ≠ state.iput := by
  have positive := inv.sending sending
  have below := inv.receiving nread atRecvfrom
  have nqueue := inv.nqueue
  have free : unsent < qsize := by omega
  have first : state.first = state.iget + 0 := by
    rcases sending with main | main <;> rw [State.first, main] <;> rfl
  have apart : (state.iget + 0) % qsize ≠ (state.iget + unsent) % qsize :=
    Ring.place_ne positive free
  rw [Nat.add_zero, Nat.mod_eq_of_lt inv.iget_lt] at apart
  rw [inv.iput, first, Nat.add_zero]
  exact apart

/-- No step touches the slot that is about to be sent. -/
theorem Inv.slot_kept {history : List (Event Address)} {state : State Address} {unsent : Nat}
    (inv : Inv history state unsent) (sending : state.main = .unblock ∨ state.main = .send)
    {events : List (Event Address)} {next : State Address}
    (step : (sigioEcho False).system.step state events next) :
    next.iget = state.iget ∧ next.dg state.iget = state.dg state.iget := by
  cases step with
  | instruction executes =>
    rcases executes_cases_of_never executes with ⟨-, main⟩ | ⟨pc, inside, handler⟩
    · rcases sending with atPc | atPc <;> rw [State.executeMain, atPc] at main <;>
        obtain ⟨-, rfl⟩ := Prod.mk.inj (Option.some.inj main) <;> exact ⟨rfl, rfl⟩
    · cases handlerDoes_of_executeHandler handler with
      | overflows | tests | finds | leaves => exact ⟨rfl, rfl⟩
      | receives waiting =>
        exact ⟨rfl, Function.update_of_ne (inv.iput_ne_iget sending inside) _ _⟩
  | delivery delivers =>
    obtain ⟨pending, outside, unblocked⟩ := delivers
    exact ⟨rfl, rfl⟩
  | outside happens =>
    obtain ⟨datagram⟩ := happens
    exact ⟨rfl, rfl⟩

/-- The `SIGIO` server answers in order: what has been sent is a first part of what has been
received, no step touches the slot that is being sent, and at the top of the main loop `nqueue`
is in range and the three variables of the ring fit together. -/
theorem sent_prefix_received {history : List (Event Address)} {state : State Address}
    (run : Run (sigioEcho False).system history state) :
    sent history <+: received history ∧
      (state.main = .unblock ∨ state.main = .send →
        ∀ events next, (sigioEcho False).system.step state events next →
          next.iget = state.iget ∧ next.dg state.iget = state.dg state.iget) ∧
      (state.main = .test → 0 ≤ state.nqueue ∧ state.nqueue ≤ qsize ∧
        (state.iput : Int) = (state.iget + state.nqueue) % qsize) := by
  obtain ⟨unsent, inv⟩ := inv_run run
  refine ⟨⟨_, inv.fifo.symm⟩, ?_, ?_⟩
  · intro sending events next step
    exact inv.slot_kept sending step
  · intro atTest
    have nqueue : state.nqueue = unsent := by
      have counted := inv.nqueue
      rwa [atTest] at counted
    refine ⟨nqueue ▸ Int.natCast_nonneg unsent, inv.room, ?_⟩
    rw [inv.iput, State.first, atTest, nqueue]
    exact Int.natCast_mod _ _

/-! ### Runs step by step -/

/-- A run goes on with a statement of the main loop. -/
theorem run_executeMain {fails : Prop} {history : List (Event Address)} {state : State Address}
    (next : State Address) (events : List (Event Address))
    (run : Run (sigioEcho fails).system history state) (outside : state.handler = none)
    (executes : state.executeMain = some (events, next)) :
    Run (sigioEcho fails).system (history ++ events) next := by
  refine .step run (.instruction ?_)
  simp only [sigioEcho, Executes, outside]
  exact executes

/-- A run goes on with a statement of the handler. -/
theorem run_executeHandler {fails : Prop} {history : List (Event Address)} {state : State Address}
    (next : State Address) (events : List (Event Address)) (pc : HandlerPc)
    (run : Run (sigioEcho fails).system history state) (inside : state.handler = some pc)
    (executes : state.executeHandler false pc = some (events, next)) :
    Run (sigioEcho fails).system (history ++ events) next := by
  refine .step run (.instruction ?_)
  simp only [sigioEcho, Executes, inside]
  exact ⟨false, nofun, executes⟩

/-- A server on a socket with nothing in it. -/
def fresh : State Unit where
  main := .signal
  handler := none
  dg _ := ⟨[], 0, none⟩
  iget := 0
  iput := 0
  nqueue := 0
  mask := false
  oldmask := false
  queue := []
  pending := false
  async := false
  nonblock := false

/-- The server in its `sigsuspend`, with nothing in its socket. -/
def suspended : State Unit :=
  { fresh with main := .suspend, mask := true, async := true, nonblock := true }

theorem run_suspended (fails : Prop) : Run (sigioEcho fails).system [] suspended := by
  have start : Run (sigioEcho fails).system [] fresh :=
    .start ⟨rfl, rfl, rfl, rfl, rfl, rfl, rfl, rfl, rfl, rfl⟩
  have setown := run_executeMain { fresh with main := .setown } [] start rfl rfl
  have fioasync := run_executeMain { fresh with main := .fioasync } [] setown rfl rfl
  have fionbio := run_executeMain { fresh with main := .fionbio, async := true } [] fioasync rfl rfl
  have block := run_executeMain
    { fresh with main := .blockFirst, async := true, nonblock := true } [] fionbio rfl rfl
  have test := run_executeMain { suspended with main := .test } [] block rfl rfl
  exact run_executeMain suspended [] test rfl rfl

/-- One datagram, received while the main loop waits, and sent back. -/
theorem sent_prefix_received_oneDatagram :
    ∃ history : List (Event Unit),
      sent history = [⟨[104], some ()⟩] ∧ sent history <+: received history := by
  let slots : Nat → Dg Unit := Function.update fresh.dg 0 ⟨[104], 1, some ()⟩
  let full : State Unit := { suspended with dg := slots, iput := 1, nqueue := 1 }
  have arrived := Run.step (run_suspended False) (.outside (.datagram _ ⟨[104], some ()⟩))
  have delivered :
      Run _ _ { suspended with queue := [⟨[104], some ()⟩], handler := some (.test 0) } :=
    Run.step arrived (.delivery (.sigio rfl rfl (.inr rfl)))
  have empty := run_executeHandler
    { suspended with queue := [⟨[104], some ()⟩], handler := some (.recvfrom 0) } [] _ delivered
    rfl rfl
  have received := run_executeHandler { full with handler := some (.test 1) }
    [.received ⟨[104], some ()⟩] _ empty rfl rfl
  have more := run_executeHandler { full with handler := some (.recvfrom 1) } [] _ received rfl rfl
  have drained := run_executeHandler { full with handler := some (.leave 1) } [] _ more rfl rfl
  have left := run_executeHandler { full with main := .test } [] _ drained rfl rfl
  have waiting := run_executeMain { full with main := .unblock } [] left rfl rfl
  have unblocked := run_executeMain { full with main := .send } [] waiting rfl rfl
  have sent := run_executeMain { full with main := .advance } [.sendto ⟨[104], some ()⟩]
    unblocked rfl rfl
  exact ⟨_, rfl, (sent_prefix_received sent).1⟩

end SocketProgram.SigioServer
