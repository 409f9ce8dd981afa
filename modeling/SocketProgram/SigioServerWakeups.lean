/-
This file is about the wake-ups of the `SIGIO` server. The signal is posted when a
datagram arrives, and the handler receives until there is nothing left; so a datagram in
the receive queue, while the handler is not about to look for it, has its signal
pending.

The start-up does not fit this. Datagrams that are there before `FIOASYNC` have no
signal, and a handler that runs before `FIONBIO` does not come back once it has received
them all. These two apart, the server never waits with a datagram unanswered.
-/

import SocketProgram.SigioServer

namespace SocketProgram.SigioServer

open Runs

variable {Address : Type*} {fails : Prop}

/-- The process waits: the main loop in `sigsuspend`, or the handler in a `recvfrom` that
blocks. -/
def State.Waiting (state : State Address) : Prop :=
  (state.handler = none ∧ state.main = .suspend) ∨
    ((∃ nread, state.handler = some (.recvfrom nread)) ∧ state.nonblock = false ∧
      state.queue = [])

/-- A datagram has arrived and has not been answered: it is in the receive queue, or in a slot
and not sent. -/
def State.Unanswered (state : State Address) : Prop :=
  state.queue ≠ [] ∨ 0 < state.nqueue - state.main.counted

/-- A wake-up is lost: the process waits with a datagram unanswered and no signal pending. -/
def State.Stuck (state : State Address) : Prop :=
  state.Waiting ∧ state.Unanswered ∧ state.pending = false

/-- A step that does not fall into the gaps of the start-up: `FIOASYNC` is switched on with
nothing in the receive queue, and the handler is entered with `FIONBIO` on, or with enough
datagrams to make the queue of slots overflow. -/
def Timely (state next : State Address) : Prop :=
  (state.async = false → next.async = true → state.queue = []) ∧
    (state.handler = none → next.handler ≠ none →
      state.nonblock = true ∨ (qsize : Int) ≤ state.nqueue + state.queue.length)

/-- What every timely run keeps. -/
structure Wakeful (state : State Address) : Prop where
  early : state.async = false →
    state.handler = none ∧ state.main ∈ [MainPc.signal, .setown, .fioasync] ∧
      state.pending = false
  posted : state.async = true →
    (state.handler = none ∨ ∃ nread, state.handler = some (.leave nread)) →
      state.queue ≠ [] → state.pending = true
  supplied : ∀ nread,
    state.handler = some (.test nread) ∨ state.handler = some (.recvfrom nread) →
      state.nonblock = true ∨ (qsize : Int) ≤ state.nqueue + state.queue.length
  receiving : ∀ nread, state.handler = some (.recvfrom nread) → state.nqueue < qsize
  idle : state.main = .suspend → state.handler = none → state.nqueue = 0

/-- `FIOASYNC` is on once the handler has been entered, the main loop waits, or the signal is
pending. -/
theorem Wakeful.async_on {state : State Address} (wakeful : Wakeful state)
    (later : state.handler ≠ none ∨ state.main = .suspend ∨ state.pending = true) :
    state.async = true := by
  by_contra off
  obtain ⟨handler, main, quiet⟩ := wakeful.early (Bool.eq_false_iff.mpr off)
  rcases later with inside | suspended | pending
  · exact inside handler
  · rw [suspended] at main
    simp at main
  · rw [quiet] at pending
    cases pending

/-- A server that is never stuck. -/
theorem Wakeful.not_stuck {state : State Address} (wakeful : Wakeful state) : ¬ state.Stuck := by
  rintro ⟨⟨outside, suspended⟩ | ⟨⟨nread, inside⟩, blocking, empty⟩, unanswered, quiet⟩
  · have async : state.async = true := wakeful.async_on (.inr (.inl suspended))
    rcases unanswered with waiting | slots
    · have pending := wakeful.posted async (.inl outside) waiting
      rw [quiet] at pending
      cases pending
    · rw [wakeful.idle suspended outside, suspended] at slots
      exact absurd slots (by decide)
  · have below := wakeful.receiving nread inside
    rcases wakeful.supplied nread (.inr inside) with nonblock | enough
    · rw [blocking] at nonblock
      cases nonblock
    · rw [empty, List.length_nil] at enough
      omega

theorem wakeful_begins (state : State Address) (begins : (sigioEcho fails).begins state) :
    Wakeful state := by
  obtain ⟨main, handler, -, -, -, -, pending, async, -⟩ := begins
  refine ⟨?_, ?_, ?_, ?_, ?_⟩
  · intro _
    rw [main]
    exact ⟨handler, List.mem_cons_self, pending⟩
  · rw [async]
    exact nofun
  · rw [handler]
    exact fun nread inside => inside.elim nofun nofun
  · rw [handler]
    exact nofun
  · rw [main]
    exact nofun

/-- What a statement of the main loop does to the kernel's side: nothing but `FIOASYNC` and
`FIONBIO`, in this order, and it comes to wait only with no slot full. -/
theorem executeMain_kept {state next : State Address} {events : List (Event Address)}
    (executes : state.executeMain = some (events, next)) :
    next.handler = state.handler ∧ next.queue = state.queue ∧ next.pending = state.pending ∧
      (next.async = state.async ∨ next.async = true) ∧
      (next.async = false → state.main ∈ [MainPc.signal, .setown, .fioasync] →
        next.main ∈ [MainPc.signal, .setown, .fioasync]) ∧
      (next.main = .suspend → next.nqueue = 0) := by
  cases mainDoes_of_executeMain executes with
  | waits atPc empty => exact ⟨rfl, rfl, rfl, .inl rfl, by simp [atPc], fun _ => empty⟩
  | fioasync atPc => exact ⟨rfl, rfl, rfl, .inr rfl, by rintro ⟨⟩, by rintro ⟨⟩⟩
  | signal atPc | setown atPc | fionbio atPc | blockFirst atPc | goesOn atPc | unblock atPc
  | send atPc | advance atPc | block atPc | decrement atPc =>
    exact ⟨rfl, rfl, rfl, .inl rfl, by simp [atPc], by rintro ⟨⟩⟩

theorem executeMain_silent {state next : State Address} {events : List (Event Address)}
    (executes : state.executeMain = some (events, next)) :
    received events = [] ∧ arrived events = [] := by
  cases mainDoes_of_executeMain executes <;> exact ⟨rfl, rfl⟩

/-- A statement of the main loop keeps the wake-ups, when `FIOASYNC` finds nothing received. -/
theorem Wakeful.executeMain {state next : State Address} {events : List (Event Address)}
    (wakeful : Wakeful state) (outside : state.handler = none) (timely : Timely state next)
    (executes : state.executeMain = some (events, next)) : Wakeful next := by
  obtain ⟨handler, queue, pending, async, early, idle⟩ := executeMain_kept executes
  rw [outside] at handler
  refine ⟨?_, ?_, ?_, ?_, fun suspended _ => idle suspended⟩
  · intro off
    have before : state.async = false := by
      rcases async with same | switched
      · rw [← same, off]
      · rw [off] at switched
        cases switched
    obtain ⟨-, main, quiet⟩ := wakeful.early before
    exact ⟨handler, early off main, pending.trans quiet⟩
  · intro switched _ waiting
    rw [queue] at waiting
    rw [pending]
    by_cases before : state.async = true
    · exact wakeful.posted before (.inl outside) waiting
    · exact absurd (timely.1 (Bool.eq_false_iff.mpr before) switched) waiting
  · rw [handler]
    exact fun nread inside => inside.elim nofun nofun
  · rw [handler]
    exact nofun

/-- What there is to show while the handler runs. -/
theorem wakeful_inside {state : State Address} {pc : HandlerPc}
    (inside : state.handler = some pc) (async : state.async = true)
    (posted : ∀ nread, pc = .leave nread → state.queue ≠ [] → state.pending = true)
    (supplied : ∀ nread, pc = .test nread ∨ pc = .recvfrom nread →
      state.nonblock = true ∨ (qsize : Int) ≤ state.nqueue + state.queue.length)
    (receiving : ∀ nread, pc = .recvfrom nread → state.nqueue < qsize) : Wakeful state := by
  refine ⟨?_, ?_, ?_, ?_, ?_⟩
  · rw [async]
    exact nofun
  · rw [inside]
    rintro - (wrong | ⟨nread, same⟩)
    · cases wrong
    · exact posted nread (Option.some.inj same)
  · rw [inside]
    intro nread at'
    exact supplied nread (at'.imp Option.some.inj Option.some.inj)
  · rw [inside]
    intro nread at'
    exact receiving nread (Option.some.inj at')
  · rw [inside]
    exact nofun

/-- A statement of the handler keeps the wake-ups. -/
theorem Wakeful.executeHandler {state next : State Address} {events : List (Event Address)}
    {failure : Bool} {pc : HandlerPc} (wakeful : Wakeful state) (inside : state.handler = some pc)
    (executes : state.executeHandler failure pc = some (events, next)) : Wakeful next := by
  have async : state.async = true := by
    refine wakeful.async_on (.inl ?_)
    rw [inside]
    exact Option.some_ne_none pc
  cases handlerDoes_of_executeHandler executes with
  | overflows full =>
    exact wakeful_inside rfl async (by rintro _ ⟨⟩)
      (by rintro _ (same | same) <;> cases same) (by rintro _ ⟨⟩)
  | tests room =>
    have supplied := wakeful.supplied _ (.inl inside)
    exact wakeful_inside rfl async (by rintro _ ⟨⟩) (fun _ _ => supplied) fun _ _ => room
  | fails =>
    have supplied := wakeful.supplied _ (.inr inside)
    refine wakeful_inside rfl async (by rintro _ ⟨⟩)
      (fun _ _ => supplied.imp_right fun enough => ?_) (by rintro _ ⟨⟩)
    show (qsize : Int) ≤ state.nqueue + 1 + state.queue.length
    omega
  | finds empty =>
    exact wakeful_inside rfl async (fun _ _ waiting => absurd empty waiting)
      (by rintro _ (same | same) <;> cases same) (by rintro _ ⟨⟩)
  | @receives nread datagram queue waiting =>
    have supplied := wakeful.supplied nread (.inr inside)
    refine wakeful_inside rfl async (by rintro _ ⟨⟩)
      (fun _ _ => supplied.imp_right fun enough => ?_) (by rintro _ ⟨⟩)
    rw [waiting, List.length_cons] at enough
    show (qsize : Int) ≤ state.nqueue + 1 + queue.length
    omega
  | @leaves _ nread =>
    have posted := wakeful.posted async (.inr ⟨nread, inside⟩)
    refine ⟨?_, fun _ _ => posted, ?_, ?_, ?_⟩
    · intro off
      rw [show state.async = false from off] at async
      cases async
    · rintro _ (same | same) <;> cases same
    · rintro _ ⟨⟩
    · intro suspended
      dsimp only at suspended
      split_ifs at suspended with before
      exact absurd suspended before

/-- The delivery of the signal keeps the wake-ups, when it is timely. -/
theorem Wakeful.delivers {state next : State Address} {events : List (Event Address)}
    (wakeful : Wakeful state) (timely : Timely state next)
    (delivers : Delivers state events next) : Wakeful next := by
  obtain ⟨pending, outside, unblocked⟩ := delivers
  have async : state.async = true := wakeful.async_on (.inr (.inr pending))
  exact wakeful_inside rfl async nofun (fun _ _ => timely.2 outside nofun) nofun

/-- What arrives has its signal posted. -/
theorem Wakeful.arrives {state next : State Address} {events : List (Event Address)}
    (wakeful : Wakeful state) (arrives : Arrives state events next) : Wakeful next := by
  obtain ⟨datagram⟩ := arrives
  refine ⟨?_, ?_, ?_, wakeful.receiving, wakeful.idle⟩
  · intro off
    obtain ⟨handler, main, quiet⟩ := wakeful.early off
    refine ⟨handler, main, ?_⟩
    show (state.pending || state.async) = false
    rw [quiet, show state.async = false from off, Bool.or_false]
  · intro async _ _
    show (state.pending || state.async) = true
    rw [show state.async = true from async, Bool.or_true]
  · intro nread at'
    refine (wakeful.supplied nread at').imp_right fun enough => ?_
    show (qsize : Int) ≤ state.nqueue + (state.queue ++ [datagram]).length
    rw [List.length_append]
    omega

/-- The wake-ups are kept in every timely run. -/
theorem wakeful_run {history : List (Event Address)} {state : State Address}
    (run : Run ((sigioEcho fails).system.restrict Timely) history state) : Wakeful state := by
  refine run.invariant (fun _ state => Wakeful state) ?_ ?_
  · rintro history state ⟨-, begins⟩
    exact wakeful_begins state begins
  · rintro history state events next wakeful ⟨step, timely⟩
    cases step with
    | instruction executes =>
      rcases executes_cases executes with ⟨outside, main⟩ | ⟨pc, failure, inside, -, handler⟩
      · exact wakeful.executeMain outside timely main
      · exact wakeful.executeHandler inside handler
    | delivery delivers => exact wakeful.delivers timely delivers
    | outside happens => exact wakeful.arrives happens

/-! ### What is unanswered -/

/-- A statement of the handler takes off the receive queue what it has received. -/
theorem executeHandler_queue {state next : State Address} {events : List (Event Address)}
    {pc : HandlerPc} (executes : state.executeHandler false pc = some (events, next)) :
    received events ++ next.queue.map Datagram.cut = state.queue.map Datagram.cut ∧
      arrived events = [] := by
  cases handlerDoes_of_executeHandler executes with
  | overflows | tests | finds | leaves => exact ⟨rfl, rfl⟩
  | receives waiting =>
    rw [waiting]
    exact ⟨rfl, rfl⟩

/-- What has arrived is what has been received and what is in the receive queue, in order. -/
theorem arrived_run {history : List (Event Address)} {state : State Address}
    (run : Run (sigioEcho False).system history state) :
    received history ++ state.queue.map Datagram.cut = (arrived history).map Datagram.cut := by
  refine Process.invariant (fun history state =>
    received history ++ state.queue.map Datagram.cut = (arrived history).map Datagram.cut)
    ?_ ?_ ?_ ?_ run
  · rintro state ⟨-, -, -, -, -, queue, -⟩
    rw [queue]
    rfl
  · intro history state events next inv executes
    rcases executes_cases_of_never executes with ⟨-, main⟩ | ⟨pc, -, handler⟩
    · obtain ⟨notReceived, notArrived⟩ := executeMain_silent main
      rw [received_append, arrived_append, notReceived, notArrived, List.append_nil,
        List.append_nil, (executeMain_kept main).2.1]
      exact inv
    · obtain ⟨queue, notArrived⟩ := executeHandler_queue handler
      rw [received_append, arrived_append, notArrived, List.append_nil, List.append_assoc, queue]
      exact inv
  · rintro history state events next inv ⟨pending, outside, unblocked⟩
    rw [List.append_nil]
    exact inv
  · rintro history state events next inv ⟨datagram⟩
    rw [received_append, arrived_append]
    show received history ++ [] ++ (state.queue ++ [datagram]).map Datagram.cut =
      (arrived history ++ [datagram]).map Datagram.cut
    rw [List.append_nil, List.map_append, List.map_append, ← inv, List.append_assoc]

/-- A datagram is unanswered when more have arrived than have been sent. -/
theorem unanswered_iff {history : List (Event Address)} {state : State Address}
    (run : Run (sigioEcho False).system history state) :
    state.Unanswered ↔ (sent history).length < (arrived history).length := by
  obtain ⟨unsent, inv⟩ := inv_run run
  have received' := congrArg List.length inv.fifo
  have arrived' := congrArg List.length (arrived_run run)
  rw [List.length_append, List.length_map, Ring.length_queued] at received'
  rw [List.length_append, List.length_map, List.length_map] at arrived'
  have nqueue := inv.nqueue
  have queue : state.queue ≠ [] ↔ 0 < state.queue.length := List.length_pos_iff.symm
  rw [State.Unanswered, queue]
  omega

/-! ### The two gaps -/

/-- In every run that does not fall into the gaps of the start-up no wake-up is lost. -/
theorem not_stuck_of_timely {history : List (Event Address)} {state : State Address}
    (run : Run ((sigioEcho fails).system.restrict Timely) history state) : ¬ state.Stuck :=
  (wakeful_run run).not_stuck

/-- The datagram that is there before `FIOASYNC`: the server waits, nothing is pending, and it
is not answered. -/
theorem not_never_stuck :
    ¬ ∀ (history : List (Event Unit)) (state : State Unit),
      Run (sigioEcho False).system history state → ¬ state.Stuck := by
  have start : Run (sigioEcho False).system [] fresh :=
    .start ⟨rfl, rfl, rfl, rfl, rfl, rfl, rfl, rfl, rfl, rfl⟩
  let waiting : State Unit := { fresh with queue := [⟨[104], some ()⟩] }
  have arrived : Run _ _ waiting := Run.step start (.outside (.datagram _ ⟨[104], some ()⟩))
  have setown := run_executeMain { waiting with main := .setown } [] arrived rfl rfl
  have fioasync := run_executeMain { waiting with main := .fioasync } [] setown rfl rfl
  have fionbio := run_executeMain { waiting with main := .fionbio, async := true } []
    fioasync rfl rfl
  have block := run_executeMain
    { waiting with main := .blockFirst, async := true, nonblock := true } [] fionbio rfl rfl
  have test := run_executeMain
    { waiting with main := .test, mask := true, async := true, nonblock := true } [] block rfl rfl
  have suspend := run_executeMain
    { waiting with main := .suspend, mask := true, async := true, nonblock := true } []
    test rfl rfl
  intro never
  exact never _ _ suspend ⟨.inl ⟨rfl, rfl⟩, .inl nofun, rfl⟩

/-- A timely run goes on with a statement of the main loop when nothing is to be received. -/
theorem run_timely_executeMain {history : List (Event Address)} {state : State Address}
    (next : State Address) (events : List (Event Address))
    (run : Run ((sigioEcho fails).system.restrict Timely) history state)
    (outside : state.handler = none) (empty : state.queue = [])
    (executes : state.executeMain = some (events, next)) :
    Run ((sigioEcho fails).system.restrict Timely) (history ++ events) next := by
  refine .step run ⟨.instruction ?_, fun _ _ => empty, fun _ inside => ?_⟩
  · simp only [sigioEcho, Executes, outside]
    exact executes
  · exact absurd ((executeMain_kept executes).1.trans outside) inside

/-- A timely run, with a datagram in the receive queue and the signal pending while the main
loop waits. -/
theorem not_stuck_of_timely_pending :
    ∃ state : State Unit, state.Waiting ∧ state.Unanswered ∧ ¬ state.Stuck := by
  have start : Run ((sigioEcho False).system.restrict Timely) [] fresh :=
    .start ⟨rfl, rfl, rfl, rfl, rfl, rfl, rfl, rfl, rfl, rfl⟩
  let ready : State Unit :=
    { fresh with main := .suspend, mask := true, async := true, nonblock := true }
  have setown := run_timely_executeMain { fresh with main := .setown } [] start rfl rfl rfl
  have fioasync := run_timely_executeMain { fresh with main := .fioasync } [] setown rfl rfl rfl
  have fionbio := run_timely_executeMain { fresh with main := .fionbio, async := true } []
    fioasync rfl rfl rfl
  have block := run_timely_executeMain
    { fresh with main := .blockFirst, async := true, nonblock := true } [] fionbio rfl rfl rfl
  have test := run_timely_executeMain { ready with main := .test } [] block rfl rfl rfl
  have suspend := run_timely_executeMain ready [] test rfl rfl rfl
  have arrived := Run.step suspend
    ⟨.outside (.datagram _ ⟨[104], some ()⟩), fun _ _ => rfl, fun _ inside => absurd rfl inside⟩
  exact ⟨_, .inl ⟨rfl, rfl⟩, .inl (List.cons_ne_nil _ _), not_stuck_of_timely arrived⟩

end SocketProgram.SigioServer
