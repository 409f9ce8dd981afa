/-
This file models the heartbeat of `oob/heartbeatcli.c` and `oob/heartbeartserv.c`. Every `nsec`
seconds the client sends a byte as urgent data, and the server sends one back for every
notification of urgent data. Each side counts its alarms, starts again from 0 at every
notification, and exits when the count passes its maximum. The misspelt `maxnlarms_arg` is
read as `maxnalarms_arg`.

Two handlers share the count, and each can interrupt the other, even between the load of
`nprobes` and its store. The urgent bytes may be lost, delayed or notified together, and the
notification may come without a byte that `recv` can read. It counts all the same: what
the handler takes as a sign of life is `SIGURG`, and what it sends back when there is no
byte is whatever its variable holds.
-/

import Mathlib.Algebra.Order.Group.Multiset
import SocketProgram.Kernel
import SocketProgram.Library.Runs

namespace SocketProgram.Heartbeat

open Runs

/-! ### The two sides -/

/-- The two ends of the connection. -/
inductive Party
  | client
  | server
  deriving DecidableEq, Repr

/-- The other end. -/
def Party.peer : Party → Party
  | .client => .server
  | .server => .client

/-- What `heartbeat_cli` and `heartbeat_serv` keep of their arguments: `nsec`, and `maxnprobes` or
`maxnalarms`. -/
structure Settings where
  nsec : Int
  maximum : Int
  deriving DecidableEq, Repr

/-- The tests of the two arguments. -/
def settings (nsecArg maximumArg : Int) : Settings :=
  let nsec := if nsecArg < 1 then 1 else nsecArg
  { nsec := nsec, maximum := if maximumArg < nsec then nsec else maximumArg }

/-- `heartbeat_cli`. -/
def heartbeatCli (nsecArg maxnprobesArg : Int) : Settings := settings nsecArg maxnprobesArg

/-- `heartbeat_serv`. -/
def heartbeatServ (nsecArg maxnalarmsArg : Int) : Settings := settings nsecArg maxnalarmsArg

/-- What both sides keep of their arguments. -/
def bothSettings (nsecArg maximumArg : Party → Int) : Party → Settings
  | .client => heartbeatCli (nsecArg .client) (maximumArg .client)
  | .server => heartbeatServ (nsecArg .server) (maximumArg .server)

/-- The largest `int`. -/
def intMax : Int := 2147483647

/-- What `recv(servfd,&c,1,MSG_OOB)` does: it stores a byte, or it fails. -/
inductive Urgent
  | byte (c : Byte)
  | error (errno : Errno)
  deriving DecidableEq, Repr

/-- Where `sig_urg` is. -/
inductive UrgPc
  | recv
  | send
  | reset
  deriving DecidableEq, Repr

/-- Where `sig_alrm` is. Between `load` and `store` it has the value of `nprobes` that it will
increment. -/
inductive AlrmPc
  | load
  | store (loaded : Int)
  | send
  | alarm
  deriving DecidableEq, Repr

inductive Signal
  | sigurg
  | sigalrm
  deriving DecidableEq, Repr

/-- How a process ends. `undefined` is the undefined behaviour of an overflow of `nprobes`. -/
inductive Ending
  | exited
  | undefined
  deriving DecidableEq, Repr

/-- One side: the count, the two handlers as far as they run, with the variable `c` of `sig_urg`,
and which of them has been entered last; the signals that are pending and whether an alarm is set;
and the urgent bytes that `SIGURG` has been posted for and that `recv` can read. -/
structure Side where
  nprobes : Int
  urg : Option (UrgPc × Byte)
  alrm : Option AlrmPc
  entered : Signal
  urgPending : Bool
  alrmPending : Bool
  armed : Bool
  readable : Multiset Byte
  ended : Option Ending

/-- What a side does. -/
inductive Action
  | sigurg
  | sigalrm
  | recv (outcome : Urgent)
  | recvError
  | send (c : Byte)
  | reset
  | alarm (nsec : Int)
  | unreachable
  deriving DecidableEq, Repr

/-- After `recv`, the server sends the byte back. -/
def Party.afterRecv : Party → UrgPc
  | .client => .reset
  | .server => .send

/-- After it has counted an alarm, the client sends a byte. -/
def Party.afterCount : Party → AlrmPc
  | .client => .send
  | .server => .alarm

/-- One statement of `sig_urg`. -/
def Side.executeUrg (party : Party) (outcome : Urgent) (side : Side) :
    Option (List Action × Side) :=
  match side.urg with
  | none => none
  | some (.recv, c) =>
    match outcome with
    | .byte byte =>
      some ([.recv outcome], { side with
        urg := some (party.afterRecv, byte), readable := side.readable.erase byte })
    | .error errno =>
      some (.recv outcome :: (if errno = .ewouldblock then [] else [.recvError]),
        { side with urg := some (party.afterRecv, c) })
  | some (.send, c) => some ([.send c], { side with urg := some (.reset, c) })
  | some (.reset, _) => some ([.reset], { side with nprobes := 0, urg := none })

/-- One statement of `sig_alrm`. The byte it sends is the digit one. -/
def Side.executeAlrm (party : Party) (settings : Settings) (side : Side) :
    Option (List Action × Side) :=
  match side.alrm with
  | none => none
  | some .load => some ([], { side with alrm := some (.store side.nprobes) })
  | some (.store loaded) =>
    if loaded = intMax then some ([], { side with ended := some .undefined })
    else if loaded + 1 > settings.maximum then
      some ([.unreachable], { side with nprobes := loaded + 1, ended := some .exited })
    else some ([], { side with nprobes := loaded + 1, alrm := some party.afterCount })
  | some .send => some ([.send 49], { side with alrm := some .alarm })
  | some .alarm => some ([.alarm settings.nsec], { side with alrm := none, armed := true })

/-- One step of a side, with the urgent bytes that arrive in it. A handler runs unless the other
one has been entered after it, and its own signal is held back while it runs. -/
inductive Side.Step (party : Party) (settings : Settings) :
    Side → Multiset Byte → List Action → Side → Prop
  | urg {side next : Side} {outcome : Urgent} {actions : List Action} (alive : side.ended = none)
      (inner : side.alrm = none ∨ side.entered = .sigurg)
      (reads : ∀ byte, outcome = .byte byte → byte ∈ side.readable)
      (executes : side.executeUrg party outcome = some (actions, next)) :
      Step party settings side 0 actions next
  | alrm {side next : Side} {actions : List Action} (alive : side.ended = none)
      (inner : side.urg = none ∨ side.entered = .sigalrm)
      (executes : side.executeAlrm party settings = some (actions, next)) :
      Step party settings side 0 actions next
  | sigurg {side : Side} (alive : side.ended = none) (pending : side.urgPending = true)
      (outside : side.urg = none) (c : Byte) :
      Step party settings side 0 [.sigurg] { side with
        urg := some (.recv, c), entered := .sigurg, urgPending := false }
  | sigalrm {side : Side} (alive : side.ended = none) (pending : side.alrmPending = true)
      (outside : side.alrm = none) :
      Step party settings side 0 [.sigalrm] { side with
        alrm := some .load, entered := .sigalrm, alrmPending := false }
  | expires {side : Side} (armed : side.armed = true) :
      Step party settings side 0 [] { side with armed := false, alrmPending := true }
  | notified {side : Side} (byte : Byte) :
      Step party settings side {byte} [] { side with
        urgPending := true, readable := byte ::ₘ side.readable }
  | replaced {side : Side} (byte : Byte) :
      Step party settings side 0 [] { side with readable := side.readable.erase byte }

/-- A side when its handlers are installed and the first alarm is set. -/
structure Side.Begins (side : Side) : Prop where
  nprobes : side.nprobes = 0
  urg : side.urg = none
  alrm : side.alrm = none
  urgPending : side.urgPending = false
  armed : side.armed = true
  ended : side.ended = none

/-! ### The connection -/

/-- The two sides, and the urgent bytes on their way to each. -/
structure State where
  side : Party → Side
  inFlight : Party → Multiset Byte

/-- What a party does. -/
abbrev Event := Party × Action

/-- The urgent bytes that are sent, in their order. -/
def sent (actions : List Action) : List Byte :=
  actions.filterMap fun action =>
    match action with
    | .send c => some c
    | _ => none

/-- One step of one side, or the loss of an urgent byte. -/
inductive Step (settings : Party → Settings) : State → List Event → State → Prop
  | side {state : State} {party : Party} {arrived rest : Multiset Byte} {actions : List Action}
      {next : Side} (steps : (state.side party).Step party (settings party) arrived actions next)
      (inNetwork : state.inFlight party = arrived + rest) :
      Step settings state (actions.map fun action => (party, action))
        { side := Function.update state.side party next
          inFlight := Function.update (Function.update state.inFlight party rest) party.peer
            (state.inFlight party.peer + (sent actions : Multiset Byte)) }
  | lose {state : State} {party : Party} {byte : Byte} {rest : Multiset Byte}
      (inNetwork : state.inFlight party = byte ::ₘ rest) :
      Step settings state [] { state with
        inFlight := Function.update state.inFlight party rest }

/-- The heartbeat between the two sides. -/
def heartbeat (settings : Party → Settings) : System State Event where
  start history state := history = [] ∧ ∀ party, (state.side party).Begins ∧
    state.inFlight party = 0
  step := Step settings

/-- What this party has done. -/
def own (party : Party) (history : List Event) : List Action :=
  history.filterMap fun event => if event.1 = party then some event.2 else none

section Own

variable {party other : Party} (history more : List Event) (actions : List Action)

theorem own_append : own party (history ++ more) = own party history ++ own party more :=
  List.filterMap_append

theorem own_self : own party (actions.map fun action => (party, action)) = actions := by
  rw [own, List.filterMap_map]
  have same : ((fun event : Event => if event.1 = party then some event.2 else none) ∘
      fun action => (party, action)) = some := funext fun action => if_pos rfl
  rw [same, List.filterMap_some]

theorem own_other (different : other ≠ party) :
    own party (actions.map fun action => (other, action)) = [] := by
  rw [own, List.filterMap_map]
  have none' : ((fun event : Event => if event.1 = party then some event.2 else none) ∘
      fun action => (other, action)) = fun _ => none := funext fun action => if_neg different
  rw [none', List.filterMap_none]

end Own

theorem Party.peer_ne (party : Party) : party.peer ≠ party := by
  cases party <;> decide

theorem Party.eq_or_eq_peer (party other : Party) : other = party ∨ other = party.peer := by
  cases party <;> cases other <;> decide

/-- What a side keeps on its own it keeps in every run. -/
theorem own_invariant {settings : Party → Settings} {party : Party}
    (Inv : List Action → Side → Prop) (begins : ∀ side : Side, side.Begins → Inv [] side)
    (preserved : ∀ actions side arrived more next, Inv actions side →
      side.Step party (settings party) arrived more next → Inv (actions ++ more) next)
    {history : List Event} {state : State} (run : Run (heartbeat settings) history state) :
    Inv (own party history) (state.side party) := by
  refine run.invariant (fun history state => Inv (own party history) (state.side party)) ?_ ?_
  · rintro _ state ⟨rfl, starts⟩
    exact begins _ (starts party).1
  · intro history state events next inv step
    cases step with
    | @side acting arrived rest actions next steps inNetwork =>
      by_cases same : acting = party
      · subst same
        show Inv _ (Function.update state.side acting next acting)
        rw [own_append, own_self, Function.update_self]
        exact preserved _ _ _ _ _ inv steps
      · show Inv _ (Function.update state.side acting next party)
        rw [own_append, own_other _ same, List.append_nil, Function.update_of_ne (Ne.symm same)]
        exact inv
    | lose inNetwork =>
      rw [List.append_nil]
      exact inv

/-! ### What a statement of a handler does -/

/-- The statements of `sig_urg`. -/
inductive Side.UrgDoes (party : Party) (side : Side) : Urgent → List Action → Side → Prop
  | byte {c byte : Byte} (urg : side.urg = some (.recv, c)) :
      UrgDoes party side (.byte byte) [.recv (.byte byte)] { side with
        urg := some (party.afterRecv, byte), readable := side.readable.erase byte }
  | error {c : Byte} {errno : Errno} (urg : side.urg = some (.recv, c)) :
      UrgDoes party side (.error errno)
        (.recv (.error errno) :: if errno = .ewouldblock then [] else [.recvError])
        { side with urg := some (party.afterRecv, c) }
  | send {outcome : Urgent} {c : Byte} (urg : side.urg = some (.send, c)) :
      UrgDoes party side outcome [.send c] { side with urg := some (.reset, c) }
  | reset {outcome : Urgent} {c : Byte} (urg : side.urg = some (.reset, c)) :
      UrgDoes party side outcome [.reset] { side with nprobes := 0, urg := none }

/-- The statements of `sig_alrm`. The store of the count has three ends. -/
inductive Side.AlrmDoes (party : Party) (settings : Settings) (side : Side) :
    List Action → Side → Prop
  | load (alrm : side.alrm = some .load) :
      AlrmDoes party settings side [] { side with alrm := some (.store side.nprobes) }
  | overflows {loaded : Int} (alrm : side.alrm = some (.store loaded))
      (largest : loaded = intMax) :
      AlrmDoes party settings side [] { side with ended := some .undefined }
  | exits {loaded : Int} (alrm : side.alrm = some (.store loaded)) :
      AlrmDoes party settings side [.unreachable] { side with
        nprobes := loaded + 1, ended := some .exited }
  | counts {loaded : Int} (alrm : side.alrm = some (.store loaded))
      (within : loaded + 1 ≤ settings.maximum) :
      AlrmDoes party settings side [] { side with
        nprobes := loaded + 1, alrm := some party.afterCount }
  | send (alrm : side.alrm = some .send) :
      AlrmDoes party settings side [.send 49] { side with alrm := some .alarm }
  | alarm (alrm : side.alrm = some .alarm) :
      AlrmDoes party settings side [.alarm settings.nsec] { side with alrm := none, armed := true }

section Handlers

variable {party : Party} {settings : Settings} {side next : Side} {actions : List Action}

theorem urgDoes_of_executeUrg {outcome : Urgent}
    (executes : side.executeUrg party outcome = some (actions, next)) :
    side.UrgDoes party outcome actions next := by
  cases urg : side.urg with
  | none =>
    simp only [Side.executeUrg, urg] at executes
    cases executes
  | some running =>
    obtain ⟨pc, c⟩ := running
    simp only [Side.executeUrg, urg] at executes
    cases pc with
    | recv =>
      cases outcome with
      | byte byte =>
        cases executes
        exact .byte urg
      | error errno =>
        cases executes
        exact .error urg
    | send =>
      cases executes
      exact .send urg
    | reset =>
      cases executes
      exact .reset urg

theorem alrmDoes_of_executeAlrm
    (executes : side.executeAlrm party settings = some (actions, next)) :
    side.AlrmDoes party settings actions next := by
  cases alrm : side.alrm with
  | none =>
    simp only [Side.executeAlrm, alrm] at executes
    cases executes
  | some pc =>
    simp only [Side.executeAlrm, alrm] at executes
    cases pc with
    | load =>
      cases executes
      exact .load alrm
    | store loaded =>
      dsimp only at executes
      split_ifs at executes with largest last
      · rw [← alrm] at executes
        cases executes
        exact .overflows alrm largest
      · rw [← alrm] at executes
        cases executes
        exact .exits alrm
      · cases executes
        exact .counts alrm (Int.not_lt.mp last)
    | send =>
      cases executes
      exact .send alrm
    | alarm =>
      cases executes
      exact .alarm alrm

end Handlers

/-! ### Every reset has a notification of its own -/

/-- How often a side has set its count to 0. -/
def resets (actions : List Action) : Nat := actions.count .reset

/-- The resets that are still to come from what has been notified. -/
def Side.waiting (side : Side) : Nat :=
  (if side.urgPending = true then 1 else 0) + if side.urg.isSome = true then 1 else 0

/-- The resets that are still to come from what the peer has sent. -/
def State.underWay (state : State) (party : Party) : Nat :=
  (state.inFlight party).card + (state.side party).waiting

section Resets

variable {party : Party} {settings : Settings} {side next : Side} {arrived : Multiset Byte}
  {actions : List Action}

theorem resets_executeUrg {outcome : Urgent}
    (executes : side.executeUrg party outcome = some (actions, next)) :
    resets actions + next.waiting = side.waiting := by
  cases urgDoes_of_executeUrg executes with
  | byte urg => simp [resets, Side.waiting, urg]
  | error urg => split_ifs <;> simp [resets, Side.waiting, urg]
  | send urg => simp [resets, Side.waiting, urg]
  | reset urg =>
    simp [resets, Side.waiting, urg]
    omega

theorem resets_executeAlrm (executes : side.executeAlrm party settings = some (actions, next)) :
    resets actions + next.waiting = side.waiting := by
  cases alrmDoes_of_executeAlrm executes with
  | load | overflows | exits | counts | send | alarm => exact Nat.zero_add _

/-- A step that makes a reset possible has a byte arrive, or delivers a signal that was pending. -/
theorem resets_step (steps : side.Step party settings arrived actions next) :
    resets actions + next.waiting ≤ arrived.card + side.waiting := by
  cases steps with
  | urg alive inner reads executes =>
    rw [resets_executeUrg executes]
    exact Nat.le_add_left _ _
  | alrm alive inner executes =>
    rw [resets_executeAlrm executes]
    exact Nat.le_add_left _ _
  | sigurg alive pending outside c => simp [resets, Side.waiting, pending, outside]
  | sigalrm alive pending outside => simp [resets, Side.waiting]
  | expires armed => simp [resets, Side.waiting]
  | notified byte =>
    simp only [resets, Side.waiting, List.count_nil, Multiset.card_singleton, if_true]
    split_ifs <;> omega
  | replaced byte => simp [resets, Side.waiting]

end Resets

theorem resets_append (actions more : List Action) :
    resets (actions ++ more) = resets actions + resets more := List.count_append

theorem sent_append (actions more : List Action) :
    sent (actions ++ more) = sent actions ++ sent more := List.filterMap_append

section UnderWay

variable {settings : Party → Settings} {state next : State} {events : List Event}

/-- A reset takes something that was under way, and only what the peer sends adds to that. -/
theorem underWay_step (steps : Step settings state events next) (party : Party) :
    resets (own party events) + next.underWay party ≤
      state.underWay party + (sent (own party.peer events)).length := by
  cases steps with
  | @side acting arrived rest actions side steps inNetwork =>
    rcases acting.eq_or_eq_peer party with rfl | rfl
    · have moves := resets_step steps
      have cards := congrArg Multiset.card inNetwork
      rw [Multiset.card_add] at cards
      rw [own_self, own_other _ (Ne.symm party.peer_ne), State.underWay, State.underWay]
      show _ +
        ((Function.update (Function.update state.inFlight party rest) party.peer _ party).card
        + (Function.update state.side party side party).waiting) ≤ _
      rw [Function.update_of_ne (Ne.symm party.peer_ne), Function.update_self,
        Function.update_self]
      show _ ≤ _ + 0
      omega
    · have back : acting.peer.peer = acting := by cases acting <;> rfl
      rw [back, own_self, own_other _ (Ne.symm acting.peer_ne), State.underWay, State.underWay]
      show 0 + ((Function.update (Function.update state.inFlight acting rest) acting.peer
        (state.inFlight acting.peer + (sent actions : Multiset Byte)) acting.peer).card +
          (Function.update state.side acting side acting.peer).waiting) ≤ _
      rw [Function.update_self, Function.update_of_ne acting.peer_ne, Multiset.card_add,
        Multiset.coe_card]
      omega
  | @lose losing byte rest inNetwork =>
    show 0 + ((Function.update state.inFlight losing rest party).card +
      (state.side party).waiting) ≤ (state.inFlight party).card + (state.side party).waiting + 0
    by_cases same : party = losing
    · subst same
      rw [Function.update_self, inNetwork, Multiset.card_cons]
      omega
    · rw [Function.update_of_ne same]
      omega

/-- From any state on, the resets of a side come from what was under way to it and from what its
peer sends. -/
theorem underWay_run {start : State} {after : List Event}
    (run : Run ((heartbeat settings).startedFrom start) after state) (party : Party) :
    resets (own party after) + state.underWay party ≤
      start.underWay party + (sent (own party.peer after)).length := by
  refine run.invariant (fun after state => resets (own party after) + state.underWay party ≤
    start.underWay party + (sent (own party.peer after)).length) ?_ ?_
  · rintro _ _ ⟨rfl, rfl⟩
    exact Nat.le_of_eq (Nat.zero_add _)
  · intro after state events next inv steps
    have moves := underWay_step steps party
    rw [own_append, own_append, resets_append, sent_append, List.length_append]
    omega

theorem underWay_of_run {history : List Event} (run : Run (heartbeat settings) history state)
    (party : Party) :
    resets (own party history) + state.underWay party ≤
      (sent (own party.peer history)).length := by
  refine run.invariant (fun history state => resets (own party history) + state.underWay party ≤
    (sent (own party.peer history)).length) ?_ ?_
  · rintro _ state ⟨rfl, starts⟩
    obtain ⟨begins, empty⟩ := starts party
    rw [State.underWay, Side.waiting, empty, begins.urg, begins.urgPending]
    exact Nat.le_refl 0
  · intro history state events next inv steps
    have moves := underWay_step steps party
    rw [own_append, own_append, resets_append, sent_append, List.length_append]
    omega

end UnderWay

/-! ### What the server sends back -/

/-- The calls of `recv`, in their order. -/
def received (actions : List Action) : List Urgent :=
  actions.filterMap fun action =>
    match action with
    | .recv outcome => some outcome
    | _ => none

theorem received_append (actions more : List Action) :
    received (actions ++ more) = received actions ++ received more := List.filterMap_append

/-- The byte that is sent after a call of `recv`: the one that was received, if one was. -/
def Answers : Urgent → Byte → Prop
  | .byte byte, c => c = byte
  | .error _, _ => True

/-- What the server keeps: every call of `recv` has been answered, but for the one whose answer
`sig_urg` is about to send. -/
structure Echoed (actions : List Action) (side : Side) : Prop where
  owes : ∀ c, side.urg = some (.send, c) → ∃ earlier last,
    received actions = earlier ++ [last] ∧ List.Forall₂ Answers earlier (sent actions) ∧
      Answers last c
  answered : (∀ c, side.urg ≠ some (.send, c)) →
    List.Forall₂ Answers (received actions) (sent actions)
  silent : side.alrm ≠ some .send

section Echoed

variable {settings : Settings} {side next : Side} {arrived : Multiset Byte}
  {actions more : List Action}

/-- A step that neither receives nor sends. -/
theorem Echoed.quiet (echoed : Echoed actions side) (noRecv : received more = [])
    (noSend : sent more = []) (urg : ∀ c, next.urg = some (.send, c) ↔ side.urg = some (.send, c))
    (silent : next.alrm ≠ some .send) : Echoed (actions ++ more) next := by
  refine ⟨?_, ?_, silent⟩
  · intro c sending
    rw [received_append, sent_append, noRecv, noSend, List.append_nil, List.append_nil]
    exact echoed.owes c ((urg c).mp sending)
  · intro idle
    rw [received_append, sent_append, noRecv, noSend, List.append_nil, List.append_nil]
    exact echoed.answered fun c sending => idle c ((urg c).mpr sending)

theorem echoed_executeUrg (echoed : Echoed actions side) {outcome : Urgent}
    (executes : side.executeUrg .server outcome = some (more, next)) :
    Echoed (actions ++ more) next := by
  cases urgDoes_of_executeUrg executes with
  | @byte _ byte urg =>
    have before := echoed.answered (by rw [urg]; rintro _ ⟨⟩)
    refine ⟨?_, fun idle => absurd rfl (idle byte), echoed.silent⟩
    rintro _ ⟨⟩
    refine ⟨received actions, .byte byte, received_append _ _, ?_, rfl⟩
    rw [sent_append]
    exact (List.append_nil (sent actions)).symm ▸ before
  | @error c errno urg =>
    have before := echoed.answered (by rw [urg]; rintro _ ⟨⟩)
    refine ⟨?_, fun idle => absurd rfl (idle c), echoed.silent⟩
    rintro _ ⟨⟩
    have same : received (actions ++ .recv (.error errno) ::
        if errno = .ewouldblock then [] else [.recvError]) =
          received actions ++ [.error errno] := by
      rw [received_append]
      split_ifs <;> rfl
    have none' : sent (actions ++ .recv (.error errno) ::
        if errno = .ewouldblock then [] else [.recvError]) = sent actions := by
      rw [sent_append]
      split_ifs <;> exact List.append_nil _
    rw [none']
    exact ⟨received actions, .error errno, same, before, trivial⟩
  | @send _ c urg =>
    obtain ⟨earlier, last, same, answers, answer⟩ := echoed.owes c urg
    refine ⟨by rintro _ ⟨⟩, fun _ => ?_, echoed.silent⟩
    rw [received_append, sent_append, same]
    show List.Forall₂ Answers (earlier ++ [last] ++ []) (sent actions ++ [c])
    rw [List.append_nil]
    exact List.rel_append answers (.cons answer .nil)
  | reset urg =>
    refine echoed.quiet rfl rfl (fun c => ?_) echoed.silent
    rw [urg]
    constructor <;> rintro ⟨⟩

theorem echoed_step (echoed : Echoed actions side)
    (steps : side.Step .server settings arrived more next) : Echoed (actions ++ more) next := by
  cases steps with
  | urg alive inner reads executes => exact echoed_executeUrg echoed executes
  | alrm alive inner executes =>
    cases alrmDoes_of_executeAlrm executes with
    | load | counts | alarm => exact echoed.quiet rfl rfl (fun _ => Iff.rfl) (by rintro ⟨⟩)
    | overflows | exits => exact echoed.quiet rfl rfl (fun _ => Iff.rfl) echoed.silent
    | send alrm => exact absurd alrm echoed.silent
  | sigurg alive pending outside c =>
    refine echoed.quiet rfl rfl (fun c => ?_) echoed.silent
    rw [outside]
    constructor <;> rintro ⟨⟩
  | sigalrm alive pending outside =>
    exact echoed.quiet rfl rfl (fun _ => Iff.rfl) (by rintro ⟨⟩)
  | expires armed => exact echoed.quiet rfl rfl (fun _ => Iff.rfl) echoed.silent
  | notified byte => exact echoed.quiet rfl rfl (fun _ => Iff.rfl) echoed.silent
  | replaced byte => exact echoed.quiet rfl rfl (fun _ => Iff.rfl) echoed.silent

/-- What the server has sent answers its calls of `recv`, one after the other. -/
theorem Echoed.answers (echoed : Echoed actions side) :
    List.Forall₂ Answers ((received actions).take (sent actions).length) (sent actions) := by
  by_cases sending : ∃ c, side.urg = some (.send, c)
  · obtain ⟨c, urg⟩ := sending
    obtain ⟨earlier, last, same, answers, -⟩ := echoed.owes c urg
    rw [same, ← answers.length_eq, List.take_left]
    exact answers
  · have answers := echoed.answered fun c urg => sending ⟨c, urg⟩
    rw [← answers.length_eq, List.take_length]
    exact answers

/-- All calls of `recv` but the last one have been answered. -/
theorem Echoed.received_le (echoed : Echoed actions side) :
    (received actions).length ≤ (sent actions).length + 1 := by
  by_cases sending : ∃ c, side.urg = some (.send, c)
  · obtain ⟨c, urg⟩ := sending
    obtain ⟨earlier, last, same, answers, -⟩ := echoed.owes c urg
    rw [same, List.length_append, ← answers.length_eq]
    exact le_rfl
  · have answers := echoed.answered fun c urg => sending ⟨c, urg⟩
    rw [answers.length_eq]
    exact Nat.le_succ _

end Echoed

/-! ### Alarms without a reset -/

/-- The alarms since the last reset, one action further. -/
def tally (alarms : Nat) : Action → Nat
  | .sigalrm => alarms + 1
  | .reset => 0
  | .sigurg => alarms
  | .recv _ => alarms
  | .recvError => alarms
  | .send _ => alarms
  | .alarm _ => alarms
  | .unreachable => alarms

/-- The alarms since the last reset. -/
def alarmsSince (actions : List Action) : Nat := actions.foldl tally 0

theorem alarmsSince_append (actions more : List Action) :
    alarmsSince (actions ++ more) = more.foldl tally (alarmsSince actions) :=
  List.foldl_append

/-- Without a reset every alarm counts. -/
theorem foldl_tally {more : List Action} (none : resets more = 0) (alarms : Nat) :
    more.foldl tally alarms = alarms + more.count .sigalrm := by
  induction more generalizing alarms with
  | nil => rfl
  | cons action more inductionHypothesis =>
    rw [resets, List.count_cons] at none
    have rest : resets more = 0 := Nat.eq_zero_of_add_eq_zero_right none
    have noReset : action ≠ .reset := by
      rintro rfl
      simp at none
    rw [List.foldl_cons, inductionHypothesis rest, List.count_cons]
    cases action with
    | sigalrm =>
      show alarms + 1 + _ = alarms + (_ + 1)
      omega
    | reset => exact absurd rfl noReset
    | _ => rfl

/-- What the count of a side will be when the alarm it is handling has been counted. -/
def Side.counted (side : Side) : Int :=
  match side.alrm with
  | some .load => side.nprobes + 1
  | some (.store loaded) => loaded + 1
  | _ => side.nprobes

/-- The side has exited, or is about to in the handler of an alarm. -/
def Side.Exits (maximum : Int) (side : Side) : Prop :=
  side.ended = some .exited ∨ side.alrm = some .load ∧ side.nprobes = maximum ∨
    side.alrm = some (.store maximum)

/-- An alarm is set, pending or being handled. -/
def Side.Alarmed (side : Side) : Prop :=
  side.armed = true ∨ side.alrmPending = true ∨ side.alrm.isSome = true

/-- What every side keeps of its count. -/
structure Counts (maximum : Int) (actions : List Action) (side : Side) : Prop where
  since : (alarmsSince actions : Int) ≤ side.counted
  nonnegative : 0 ≤ side.nprobes
  bounded : side.ended = none → side.nprobes ≤ maximum
  loaded : ∀ loaded, side.alrm = some (.store loaded) → 0 ≤ loaded ∧ loaded ≤ maximum
  storing : side.ended ≠ none → ∃ loaded, side.alrm = some (.store loaded)
  defined : side.ended = some .undefined → intMax ≤ maximum
  alarmed : side.Alarmed

section Counts

variable {party : Party} {settings : Settings} {side next : Side} {arrived : Multiset Byte}
  {actions more : List Action}

theorem bothSettings_maximum (nsecArg maximumArg : Party → Int) (party : Party) :
    0 ≤ (bothSettings nsecArg maximumArg party).maximum := by
  have clamped : ∀ nsec maximum, 0 ≤ (Heartbeat.settings nsec maximum).maximum := by
    intro nsec maximum
    unfold Heartbeat.settings
    dsimp only
    split_ifs <;> omega
  cases party with
  | client => exact clamped _ _
  | server => exact clamped _ _

/-- A step that has nothing to do with the count. -/
theorem Counts.quiet (counts : Counts settings.maximum actions side)
    (noTally : ∀ alarms, more.foldl tally alarms = alarms) (nprobes : next.nprobes = side.nprobes)
    (alrm : next.alrm = side.alrm) (ended : next.ended = side.ended) (alarmed : next.Alarmed) :
    Counts settings.maximum (actions ++ more) next := by
  have counted : next.counted = side.counted := by
    rw [Side.counted, Side.counted, alrm, nprobes]
  refine ⟨?_, nprobes ▸ counts.nonnegative, ?_, alrm ▸ counts.loaded, ?_, ?_, alarmed⟩
  · rw [alarmsSince_append, noTally, counted]
    exact counts.since
  · rw [ended, nprobes]
    exact counts.bounded
  · rw [ended, alrm]
    exact counts.storing
  · rw [ended]
    exact counts.defined

theorem Counts.alive_of_ne (counts : Counts settings.maximum actions side)
    (elsewhere : ∀ loaded, side.alrm ≠ some (.store loaded)) : side.ended = none := by
  by_contra ended
  obtain ⟨loaded, alrm⟩ := counts.storing ended
  exact elsewhere loaded alrm

/-- In front of the statement that stores it, the count is `nprobes` or one more. -/
theorem Side.counted_le (side : Side) (elsewhere : ∀ loaded, side.alrm ≠ some (.store loaded)) :
    side.counted ≤ side.nprobes + 1 := by
  cases alrm : side.alrm with
  | none =>
    rw [Side.counted, alrm]
    dsimp only
    omega
  | some pc =>
    rw [Side.counted, alrm]
    cases pc with
    | load => exact Int.le_refl _
    | store loaded => exact absurd alrm (elsewhere loaded)
    | send | alarm =>
      dsimp only
      omega

/-- The bound of the count, exceeded by one at most, and only in the handler that exits. -/
theorem Counts.counted_le (counts : Counts settings.maximum actions side) :
    side.counted ≤ settings.maximum + 1 := by
  by_cases storing : ∃ loaded, side.alrm = some (.store loaded)
  · obtain ⟨loaded, alrm⟩ := storing
    have bound := (counts.loaded loaded alrm).2
    rw [Side.counted, alrm]
    show loaded + 1 ≤ _
    omega
  · have elsewhere := not_exists.mp storing
    have bound := counts.bounded (counts.alive_of_ne elsewhere)
    have near := side.counted_le elsewhere
    omega

/-- When the count has passed the maximum, the side exits. -/
theorem Counts.exits (counts : Counts settings.maximum actions side)
    (small : settings.maximum < intMax) (passed : side.counted = settings.maximum + 1) :
    side.Exits settings.maximum := by
  by_cases alive : side.ended = none
  · have bound := counts.bounded alive
    cases alrm : side.alrm with
    | none =>
      rw [Side.counted, alrm] at passed
      dsimp only at passed
      omega
    | some pc =>
      rw [Side.counted, alrm] at passed
      cases pc with
      | load => exact .inr (.inl ⟨alrm, by dsimp only at passed; omega⟩)
      | store loaded =>
        have last : loaded = settings.maximum := by
          dsimp only at passed
          omega
        exact .inr (.inr (last ▸ alrm))
      | send | alarm =>
        dsimp only at passed
        omega
  · cases ended : side.ended with
    | none => exact absurd ended alive
    | some ending =>
      cases ending with
      | exited => exact .inl ended
      | undefined => exact absurd (counts.defined ended) (Int.not_le.mpr small)

theorem counts_begins (begins : side.Begins) (nonnegative : 0 ≤ settings.maximum) :
    Counts settings.maximum [] side := by
  refine ⟨?_, begins.nprobes.ge, fun _ => ?_, ?_, ?_, ?_, .inl begins.armed⟩
  · rw [Side.counted, begins.alrm]
    exact begins.nprobes.ge
  · rw [begins.nprobes]
    exact nonnegative
  · rw [begins.alrm]
    rintro _ ⟨⟩
  · rw [begins.ended]
    exact fun ended => absurd rfl ended
  · rw [begins.ended]
    rintro ⟨⟩

theorem counts_executeUrg (counts : Counts settings.maximum actions side)
    (nonnegative : 0 ≤ settings.maximum) {outcome : Urgent}
    (executes : side.executeUrg party outcome = some (more, next)) :
    Counts settings.maximum (actions ++ more) next := by
  cases urgDoes_of_executeUrg executes with
  | byte urg => exact counts.quiet (fun _ => rfl) rfl rfl rfl counts.alarmed
  | error urg =>
    refine counts.quiet (fun _ => ?_) rfl rfl rfl counts.alarmed
    split_ifs <;> rfl
  | send urg => exact counts.quiet (fun _ => rfl) rfl rfl rfl counts.alarmed
  | reset urg =>
    refine ⟨?_, Int.le_refl 0, fun _ => nonnegative, counts.loaded, counts.storing,
      counts.defined, counts.alarmed⟩
    rw [alarmsSince_append]
    show (0 : Int) ≤ Side.counted { side with nprobes := 0, urg := none }
    cases alrm : side.alrm with
    | none => simp [Side.counted]
    | some pc =>
      cases pc with
      | store loaded =>
        have bound := (counts.loaded loaded alrm).1
        simp only [Side.counted]
        omega
      | load | send | alarm => simp [Side.counted]

theorem counts_executeAlrm (counts : Counts settings.maximum actions side)
    (alive : side.ended = none)
    (executes : side.executeAlrm party settings = some (more, next)) :
    Counts settings.maximum (actions ++ more) next := by
  have since := counts.since
  rw [Side.counted] at since
  cases alrmDoes_of_executeAlrm executes with
  | load alrm =>
    rw [alrm] at since
    rw [List.append_nil]
    refine ⟨since, counts.nonnegative, counts.bounded, ?_, fun ended => absurd alive ended,
      counts.defined, .inr (.inr rfl)⟩
    rintro _ ⟨⟩
    exact ⟨counts.nonnegative, counts.bounded alive⟩
  | @overflows loaded alrm largest =>
    rw [List.append_nil]
    exact ⟨counts.since, counts.nonnegative, by rintro ⟨⟩, counts.loaded, fun _ => ⟨loaded, alrm⟩,
      fun _ => largest ▸ (counts.loaded loaded alrm).2, counts.alarmed⟩
  | @exits loaded alrm =>
    rw [alrm] at since
    refine ⟨?_, Int.le_add_one (counts.loaded loaded alrm).1, by rintro ⟨⟩, counts.loaded,
      fun _ => ⟨loaded, alrm⟩, by rintro ⟨⟩, counts.alarmed⟩
    rw [alarmsSince_append, Side.counted, alrm]
    exact since
  | @counts loaded alrm within =>
    rw [alrm] at since
    rw [List.append_nil]
    refine ⟨?_, Int.le_add_one (counts.loaded loaded alrm).1, fun _ => within, ?_,
      fun ended => absurd alive ended, counts.defined, .inr (.inr rfl)⟩
    · cases party <;> exact since
    · cases party <;> rintro _ ⟨⟩
  | send alrm =>
    rw [alrm] at since
    refine ⟨?_, counts.nonnegative, counts.bounded, by rintro _ ⟨⟩,
      fun ended => absurd alive ended, counts.defined, .inr (.inr rfl)⟩
    rw [alarmsSince_append]
    exact since
  | alarm alrm =>
    rw [alrm] at since
    refine ⟨?_, counts.nonnegative, counts.bounded, by rintro _ ⟨⟩,
      fun ended => absurd alive ended, counts.defined, .inl rfl⟩
    rw [alarmsSince_append]
    exact since

theorem counts_step (counts : Counts settings.maximum actions side)
    (nonnegative : 0 ≤ settings.maximum) (steps : side.Step party settings arrived more next) :
    Counts settings.maximum (actions ++ more) next := by
  cases steps with
  | urg alive inner reads executes => exact counts_executeUrg counts nonnegative executes
  | alrm alive inner executes => exact counts_executeAlrm counts alive executes
  | sigurg alive pending outside c =>
    exact counts.quiet (fun _ => rfl) rfl rfl rfl counts.alarmed
  | sigalrm alive pending outside =>
    refine ⟨?_, counts.nonnegative, counts.bounded, by rintro _ ⟨⟩,
      fun ended => absurd alive ended, counts.defined, .inr (.inr rfl)⟩
    have since := counts.since
    rw [Side.counted, outside] at since
    rw [alarmsSince_append]
    show ((alarmsSince actions + 1 : Nat) : Int) ≤ side.nprobes + 1
    push_cast
    exact Int.add_le_add_right since 1
  | expires armed => exact counts.quiet (fun _ => rfl) rfl rfl rfl (.inr (.inl rfl))
  | notified byte => exact counts.quiet (fun _ => rfl) rfl rfl rfl counts.alarmed
  | replaced byte => exact counts.quiet (fun _ => rfl) rfl rfl rfl counts.alarmed

end Counts

/-! ### The result -/

/-- A side that has no notification any more: it has an alarm coming until it exits, in the handler
of the alarm after its maximum at the latest. -/
structure RunsOut (maximum : Int) (actions : List Action) (side : Side) : Prop where
  noReset : resets actions = 0
  alarms : (actions.count .sigalrm : Int) ≤ maximum + 1
  exits : (actions.count .sigalrm : Int) = maximum + 1 → side.Exits maximum
  alarmed : side.Alarmed

section Result

variable {nsecArg maximumArg : Party → Int} {before after : List Event} {middle state : State}

/-- Whatever the signals interrupt, however urgent bytes are lost, delayed or notified together, and
whatever `recv` returns: every reset of a side has a byte of its own that its peer has sent, though
not always one that was received. What the server sends answers its calls of `recv` one after the
other, with the byte that was received if one was, and leaves at most the last one unanswered. And
a side runs out once nothing that its peer has sent is under way to it and
the peer sends no more. -/
theorem heartbeat_counts (run : Run (heartbeat (bothSettings nsecArg maximumArg)) before middle)
    (more : Run ((heartbeat (bothSettings nsecArg maximumArg)).startedFrom middle) after state) :
    (∀ party, resets (own party before) ≤ (sent (own party.peer before)).length) ∧
      List.Forall₂ Answers
        ((received (own .server before)).take (sent (own .server before)).length)
        (sent (own .server before)) ∧
      (received (own .server before)).length ≤ (sent (own .server before)).length + 1 ∧
      ∀ party, (bothSettings nsecArg maximumArg party).maximum < intMax →
        middle.underWay party = 0 → sent (own party.peer after) = [] →
          RunsOut (bothSettings nsecArg maximumArg party).maximum (own party after)
            (state.side party) := by
  have echoed : Echoed (own .server before) (middle.side .server) := by
    refine own_invariant Echoed (fun side begins => ?_) (fun _ _ _ _ _ => echoed_step) run
    refine ⟨?_, fun _ => .nil, ?_⟩
    · rw [begins.urg]
      rintro _ ⟨⟩
    · rw [begins.alrm]
      rintro ⟨⟩
  refine ⟨fun party => ?_, echoed.answers, echoed.received_le, fun party small quiet stopped => ?_⟩
  · exact (Nat.le_add_right _ _).trans (underWay_of_run run party)
  · have nonnegative := bothSettings_maximum nsecArg maximumArg party
    have counts := own_invariant (Counts (bothSettings nsecArg maximumArg party).maximum)
      (fun side begins => counts_begins begins nonnegative)
      (fun _ _ _ _ _ counts => counts_step counts nonnegative) (run.append more)
    have none : resets (own party after) = 0 := by
      have bound := underWay_run more party
      rw [quiet, stopped] at bound
      exact Nat.eq_zero_of_add_eq_zero_right (Nat.le_zero.mp bound)
    have since := counts.since
    rw [own_append, alarmsSince_append, foldl_tally none] at since
    have bound := counts.counted_le
    exact ⟨none, by omega, fun last => counts.exits small (by omega), counts.alarmed⟩

end Result

/-! ### A notification without a byte -/

/-- Both sides with an alarm every second and a maximum of one. -/
def everySecond : Party → Settings := bothSettings (fun _ => 1) fun _ => 1

/-- A side with its alarm set. -/
def waitingSide : Side where
  nprobes := 0
  urg := none
  alrm := none
  entered := .sigalrm
  urgPending := false
  alrmPending := false
  armed := true
  readable := 0
  ended := none

/-- A step of a side in which no byte arrives. -/
theorem Step.own {settings : Party → Settings} {state : State} {party : Party}
    {actions : List Action} {next : Side}
    (steps : (state.side party).Step party (settings party) 0 actions next) :
    Step settings state (actions.map fun action => (party, action))
      { side := Function.update state.side party next
        inFlight := Function.update (Function.update state.inFlight party (state.inFlight party))
          party.peer (state.inFlight party.peer + (sent actions : Multiset Byte)) } :=
  .side steps (zero_add _).symm

/-- The bytes that `recv` has returned. -/
def bytesReceived (actions : List Action) : List Byte :=
  (received actions).filterMap fun outcome =>
    match outcome with
    | .byte c => some c
    | .error _ => none

/-- The calls when the first alarm of the client sends a byte and the server is notified of it, but
its `recv` would block. -/
def wouldBlock : List Event :=
  [(.client, .sigalrm), (.client, .send 49), (.server, .sigurg),
    (.server, .recv (.error .ewouldblock)), (.server, .send 0), (.server, .reset)]

theorem run_wouldBlock : ∃ state : State, Run (heartbeat everySecond) wouldBlock state ∧
    state.underWay .server = 0 ∧ (state.side .server).armed = true ∧
      (state.side .server).ended = none ∧ (state.side .server).alrm = none := by
  have start : Run (heartbeat everySecond) [] ⟨fun _ => waitingSide, fun _ => 0⟩ :=
    .start ⟨rfl, fun _ => ⟨⟨rfl, rfl, rfl, rfl, rfl, rfl⟩, rfl⟩⟩
  have expires := start.step (@Step.own _ _ .client _ _ (.expires rfl))
  have sigalrm := expires.step (@Step.own _ _ .client _ _ (.sigalrm rfl rfl rfl))
  have load := sigalrm.step (@Step.own _ _ .client _ _ (.alrm rfl (.inl rfl) rfl))
  have store := load.step (@Step.own _ _ .client _ _ (.alrm rfl (.inl rfl) rfl))
  have send := store.step (@Step.own _ _ .client _ _ (.alrm rfl (.inl rfl) rfl))
  have notified := send.step (@Step.side _ _ .server {49} 0 _ _ (.notified 49) rfl)
  have sigurg := notified.step (@Step.own _ _ .server _ _ (.sigurg rfl rfl rfl 0))
  have recv := sigurg.step
    (@Step.own _ _ .server _ _ (@Side.Step.urg _ _ _ _ (.error .ewouldblock) _ rfl (.inl rfl)
      (by rintro _ ⟨⟩) rfl))
  have echo := recv.step (@Step.own _ _ .server _ _
    (@Side.Step.urg _ _ _ _ (.error .ewouldblock) _ rfl (.inl rfl) (by rintro _ ⟨⟩) rfl))
  have reset := echo.step (@Step.own _ _ .server _ _
    (@Side.Step.urg _ _ _ _ (.error .ewouldblock) _ rfl (.inl rfl) (by rintro _ ⟨⟩) rfl))
  exact ⟨_, reset, rfl, rfl, rfl, rfl⟩

/-- After that the server hears no more, and its alarm goes off. -/
theorem heartbeat_counts_wouldBlock : ∃ middle state : State,
    Run (heartbeat everySecond) wouldBlock middle ∧
      Run ((heartbeat everySecond).startedFrom middle) [(.server, .sigalrm)] state ∧
        RunsOut 1 [.sigalrm] (state.side .server) := by
  obtain ⟨middle, run, quiet, armed, alive, outside⟩ := run_wouldBlock
  have start : Run ((heartbeat everySecond).startedFrom middle) [] middle := .start ⟨rfl, rfl⟩
  have expires := start.step (@Step.own _ _ .server _ _ (.expires armed))
  have sigalrm := expires.step (@Step.own _ _ .server _ _ (.sigalrm alive rfl outside))
  exact ⟨middle, _, run, sigalrm,
    (heartbeat_counts run sigalrm).2.2.2 .server (by decide) quiet rfl⟩

/-- Every reset has a byte of its own that was received, and so has every byte the server sends. -/
def ByBytes (history : List Event) : Prop :=
  (∀ party, resets (own party history) ≤ (bytesReceived (own party history)).length) ∧
    (sent (own .server history) : Multiset Byte) ≤
      (bytesReceived (own .server history) : Multiset Byte)

theorem not_byBytes : ¬ ∀ history state, Run (heartbeat everySecond) history state →
    ByBytes history := by
  intro byBytes
  obtain ⟨state, run, -⟩ := run_wouldBlock
  have none := (byBytes _ _ run).1 .server
  exact absurd none (by decide)

end SocketProgram.Heartbeat
