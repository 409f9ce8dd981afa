/-
This file is about when `sig_io` gives up. It tests whether the slots are full before it looks
whether there is anything left to receive, so a burst that just fills them ends the program with
"receive overflow", although there is nothing it has no room for.

That is the only way it gives up too early, as long as every slot holds a datagram: the handler
never interrupts the main loop between `sendto` and `nqueue--`, and `nqueue` counts the slots that
are not sent. A `recvfrom` that failed is counted as well, and takes a slot that no datagram is
in. The histogram that `sig_io` keeps is always indexed within its bounds.
-/

import SocketProgram.SigioServer

namespace SocketProgram.SigioServer

open Runs

variable {Address : Type*} {fails : Prop}

/-! ### What the handler interrupts -/

/-- The statements before `SIGIO` is blocked for the first time. -/
def MainPc.startUp : MainPc → Bool
  | .signal | .setown | .fioasync | .fionbio | .blockFirst => true
  | .test | .suspend | .unblock | .send | .advance | .block | .decrement => false

/-- The `nread` of an activation of `sig_io`. -/
def HandlerPc.nread? : HandlerPc → Option Nat
  | .test nread | .recvfrom nread | .leave nread => some nread
  | .exited => none

/-- What every run keeps of the handler: from the first `sigprocmask` on `SIGIO` is in the mask, so
the handler runs where `nqueue` counts what is not sent, and what it has read is part of that. -/
structure Nested (state : State Address) : Prop where
  masked : state.main.startUp = true ∨ state.mask = true
  counted : state.handler ≠ none → state.main.counted = 0
  nread : ∀ pc ∈ state.handler, ∀ nread ∈ pc.nread?, (nread : Int) ≤ state.nqueue

section Nested

variable {state next : State Address} {events : List (Event Address)}

theorem counted_of_startUp {main : MainPc} (startUp : main.startUp = true) : main.counted = 0 := by
  cases main with
  | signal | setown | fioasync | fionbio | blockFirst => rfl
  | test | suspend | unblock | send | advance | block | decrement => cases startUp

theorem nested_begins (begins : (sigioEcho fails).begins state) : Nested state := by
  obtain ⟨main, handler, -⟩ := begins
  refine ⟨.inl ?_, fun inside => absurd handler inside, ?_⟩
  · rw [main]
    rfl
  · rw [handler]
    exact nofun

/-- What a statement of the main loop does to the mask: only the first `sigprocmask` ends the
start-up, and none takes `SIGIO` out. -/
theorem masked_executeMain (masked : state.main.startUp = true ∨ state.mask = true)
    (executes : state.executeMain = some (events, next)) :
    next.handler = state.handler ∧ (next.main.startUp = true ∨ next.mask = true) := by
  cases mainDoes_of_executeMain executes with
  | signal | setown | fioasync | fionbio => exact ⟨rfl, .inl rfl⟩
  | blockFirst | block => exact ⟨rfl, .inr rfl⟩
  | waits atPc | goesOn atPc | send atPc | advance atPc | decrement atPc =>
    rw [atPc] at masked
    exact ⟨rfl, .inr (masked.resolve_left Bool.false_ne_true)⟩
  | unblock atPc =>
    rw [atPc] at masked
    have mask : state.mask = true := masked.resolve_left Bool.false_ne_true
    refine ⟨rfl, .inr ?_⟩
    show (state.mask || state.oldmask) = true
    rw [mask, Bool.true_or]

theorem Nested.executeMain (nested : Nested state) (outside : state.handler = none)
    (executes : state.executeMain = some (events, next)) : Nested next := by
  obtain ⟨handler, masked⟩ := masked_executeMain nested.masked executes
  rw [outside] at handler
  refine ⟨masked, fun inside => absurd handler inside, ?_⟩
  rw [handler]
  exact nofun

theorem Nested.executeHandler (nested : Nested state) {pc : HandlerPc} {failure : Bool}
    (inside : state.handler = some pc)
    (executes : state.executeHandler failure pc = some (events, next)) : Nested next := by
  have counted : state.main.counted = 0 := nested.counted (inside ▸ Option.some_ne_none pc)
  have nread := nested.nread pc inside
  cases handlerDoes_of_executeHandler executes with
  | overflows full => exact ⟨nested.masked, fun _ => counted, by rintro _ ⟨⟩ _ ⟨⟩⟩
  | tests room | finds empty =>
    refine ⟨nested.masked, fun _ => counted, ?_⟩
    rintro _ ⟨⟩ _ ⟨⟩
    exact nread _ rfl
  | @fails count | @receives count =>
    refine ⟨nested.masked, fun _ => counted, ?_⟩
    rintro _ ⟨⟩ _ ⟨⟩
    have read := nread count rfl
    show ((count + 1 : Nat) : Int) ≤ state.nqueue + 1
    omega
  | leaves =>
    refine ⟨?_, fun inside => absurd rfl inside, by rintro _ ⟨⟩⟩
    dsimp only
    split_ifs with suspended
    · have masked := nested.masked
      rw [suspended] at masked
      exact .inr (masked.resolve_left Bool.false_ne_true)
    · exact nested.masked

theorem Nested.delivers (nested : Nested state) (nonneg : 0 ≤ state.nqueue)
    (delivers : Delivers state events next) : Nested next := by
  obtain ⟨pending, outside, unblocked⟩ := delivers
  refine ⟨nested.masked, fun _ => ?_, ?_⟩
  · show state.main.counted = 0
    rcases unblocked with unblocked | suspended
    · refine counted_of_startUp (nested.masked.resolve_right ?_)
      rw [unblocked]
      exact Bool.false_ne_true
    · rw [suspended]
      rfl
  · rintro _ ⟨⟩ _ ⟨⟩
    exact nonneg

theorem nqueue_nonneg {history : List (Event Address)}
    (run : Run (sigioEcho fails).system history state) : 0 ≤ state.nqueue := by
  obtain ⟨unsent, queued⟩ := queued_run run
  have nqueue := queued.nqueue
  omega

theorem nested_run {history : List (Event Address)}
    (run : Run (sigioEcho fails).system history state) : Nested state := by
  induction run with
  | start starts => exact nested_begins starts.2
  | step run steps inductionHypothesis =>
    cases steps with
    | instruction executes =>
      rcases executes_cases executes with ⟨outside, main⟩ | ⟨pc, failure, inside, -, handler⟩
      · exact inductionHypothesis.executeMain outside main
      · exact inductionHypothesis.executeHandler inside handler
    | delivery delivers => exact inductionHypothesis.delivers (nqueue_nonneg run) delivers
    | outside happens =>
      obtain ⟨datagram⟩ := happens
      exact ⟨inductionHypothesis.masked, inductionHypothesis.counted, inductionHypothesis.nread⟩

end Nested

/-! ### The overflow -/

section Overflow

variable {history : List (Event Address)} {state : State Address}

/-- The entries that have not been sent. -/
def unsentEntries (history : List (Event Address)) : List (Option (Datagram Address)) :=
  (entries history).drop (sent history).length

/-- The slots from the first on hold the entries that have not been sent. -/
theorem Queued.unsent {unsent : Nat} (queued : Queued history state unsent) :
    List.Forall₂ Holds (unsentEntries history)
      (Ring.queued qsize state.dg state.first unsent) := by
  obtain ⟨done, waiting, split, sends, holds⟩ := queued.fifo
  rw [unsentEntries, split, List.drop_left' sends.length_eq]
  exact holds

theorem Queued.length_unsentEntries {unsent : Nat} (queued : Queued history state unsent) :
    (unsentEntries history).length = unsent :=
  queued.unsent.length_eq.trans Ring.length_queued

/-- The process exits with "receive overflow" only when so many datagrams as there are slots are
queued and unsent, and another one waits in the socket. -/
def OverflowsFull (fails : Prop) (history : List (Event Address)) (state : State Address) : Prop :=
  ∀ events next, (sigioEcho fails).system.step state events next →
    Event.printf "receive overflow" ∈ events →
      (unsentEntries history).reduceOption.length = qsize ∧ state.queue ≠ []

/-- The slots are not just full: where `sig_io` tests them and they are full, there is something
left to receive and each of them holds a datagram. -/
def NotJustFull (history : List (Event Address)) (state : State Address) : Prop :=
  ∀ nread, state.handler = some (.test nread) → state.nqueue = qsize →
    state.queue ≠ [] ∧ none ∉ unsentEntries history

/-- The number of entries of `cntread`. -/
def cntreadSize : Nat := qsize + 1

/-- The step that ends the program. -/
theorem step_overflow {nread : Nat} (inside : state.handler = some (.test nread))
    (full : (qsize : Int) ≤ state.nqueue) :
    (sigioEcho fails).system.step state [.printf "receive overflow"]
      { state with handler := some .exited } := by
  refine .instruction ?_
  simp only [sigioEcho, Executes, inside]
  refine ⟨false, fun wrong => absurd wrong Bool.false_ne_true, ?_⟩
  rw [State.executeHandler, if_pos full]

theorem printf_notMem_executeMain {next : State Address} {events : List (Event Address)}
    (executes : state.executeMain = some (events, next)) (text : String) :
    Event.printf text ∉ events := by
  cases mainDoes_of_executeMain executes <;> simp

/-- Only the capacity test of `sig_io` ends the program so. -/
theorem overflow_cases {next : State Address} {events : List (Event Address)}
    (step : (sigioEcho fails).system.step state events next)
    (overflow : Event.printf "receive overflow" ∈ events) :
    ∃ nread, state.handler = some (.test nread) ∧ (qsize : Int) ≤ state.nqueue := by
  cases step with
  | instruction executes =>
    rcases executes_cases executes with ⟨outside, main⟩ | ⟨pc, failure, inside, -, handler⟩
    · exact absurd overflow (printf_notMem_executeMain main _)
    · cases handlerDoes_of_executeHandler handler with
      | overflows full => exact ⟨_, inside, full⟩
      | fails => simp at overflow
      | tests | finds | receives | leaves => simp at overflow
  | delivery delivers =>
    obtain ⟨pending, outside, unblocked⟩ := delivers
    exact absurd overflow List.not_mem_nil
  | outside happens =>
    obtain ⟨datagram⟩ := happens
    simp at overflow

/-- In every state a run reaches, the slots that are full hold so many datagrams as there are slots
if and only if no `recvfrom` that failed is among them. -/
theorem datagrams_full_iff (run : Run (sigioEcho fails).system history state) {nread : Nat}
    (inside : state.handler = some (.test nread)) (full : state.nqueue = qsize) :
    (unsentEntries history).reduceOption.length = qsize ↔ none ∉ unsentEntries history := by
  obtain ⟨unsent, queued⟩ := queued_run run
  have counted : state.main.counted = 0 :=
    (nested_run run).counted (inside ▸ Option.some_ne_none _)
  have nqueue := queued.nqueue
  have length := queued.length_unsentEntries
  have size : (unsentEntries history).length = qsize := by omega
  rw [← size, List.reduceOption_length_eq_iff]
  constructor
  · intro all missing
    exact absurd (all none missing) Bool.false_ne_true
  · intro all entry member
    exact Option.isSome_iff_ne_none.mpr fun missing => all (missing ▸ member)

/-- In every run, also when `recvfrom` fails: the index `nread` is within `cntread`, and `sig_io`
ends the program only when its slots are full of datagrams and another one waits, if and only if
the slots are not just full where it tests them. -/
theorem overflowsFull_iff (run : Run (sigioEcho fails).system history state) :
    (∀ nread, state.handler = some (.leave nread) → nread < cntreadSize) ∧
      (OverflowsFull fails history state ↔ NotJustFull history state) := by
  obtain ⟨unsent, queued⟩ := queued_run run
  refine ⟨?_, ?_, ?_⟩
  · intro nread inside
    have read := (nested_run run).nread _ inside nread rfl
    have room := queued.room
    show nread < qsize + 1
    omega
  · intro overflows nread inside full
    obtain ⟨datagrams, more⟩ :=
      overflows _ _ (step_overflow inside full.ge) List.mem_cons_self
    exact ⟨more, (datagrams_full_iff run inside full).mp datagrams⟩
  · intro notJust events next step overflow
    obtain ⟨nread, inside, full⟩ := overflow_cases step overflow
    have full : state.nqueue = qsize := le_antisymm queued.room full
    obtain ⟨more, datagrams⟩ := notJust nread inside full
    exact ⟨(datagrams_full_iff run inside full).mpr datagrams, more⟩

/-! ### A burst that just fills the slots -/

/-- Datagrams that arrive one after the other. -/
theorem run_arrivals (run : Run (sigioEcho fails).system history state) (async : state.async = true)
    (burst : List (Datagram Address)) :
    ∃ (later : List (Event Address)) (pending : Bool), Run (sigioEcho fails).system later
        { state with queue := state.queue ++ burst, pending := pending } ∧
      (state.pending = true ∨ burst ≠ [] → pending = true) := by
  induction burst generalizing history state with
  | nil =>
    rw [List.append_nil]
    exact ⟨history, state.pending, run, fun posted => posted.resolve_right (absurd rfl)⟩
  | cons datagram burst inductionHypothesis =>
    have arrived := Run.step run (.outside (.datagram state datagram))
    obtain ⟨later, pending, more, posted⟩ := inductionHypothesis arrived async
    refine ⟨later, pending, ?_, fun _ => posted (.inl ?_)⟩
    · rw [List.append_assoc] at more
      exact more
    · show (state.pending || state.async) = true
      rw [async, Bool.or_true]

/-- The handler receives all that there is, as far as the slots go. -/
theorem run_receives {nread : Nat} (run : Run (sigioEcho fails).system history state)
    (inside : state.handler = some (.test nread))
    (room : state.nqueue + state.queue.length ≤ qsize) :
    ∃ (later : List (Event Address)) (next : State Address),
      Run (sigioEcho fails).system later next ∧
      next.handler = some (.test (nread + state.queue.length)) ∧ next.queue = [] ∧
      next.nqueue = state.nqueue + state.queue.length := by
  generalize waiting : state.queue = queue at room
  induction queue generalizing history state nread with
  | nil => exact ⟨history, state, run, inside, waiting, (Int.add_zero _).symm⟩
  | cons datagram queue inductionHypothesis =>
    rw [List.length_cons] at room
    have test := run_executeHandler { state with handler := some (.recvfrom nread) } [] _ run inside
      (by rw [State.executeHandler, if_neg (by omega)])
    have received := run_executeHandler
      ({ state with handler := some (.recvfrom nread), queue := queue }.count nread
        ((state.dg state.iput).receive datagram.cut)) [.received datagram.cut] _ test rfl
      (by simp only [State.executeHandler, waiting]; rfl)
    obtain ⟨later, next, more, inside', empty, nqueue⟩ := inductionHypothesis received rfl rfl (by
      show state.nqueue + 1 + queue.length ≤ qsize
      omega)
    refine ⟨later, next, more, ?_, empty, ?_⟩
    · rw [inside', List.length_cons, Nat.add_assoc, Nat.add_comm 1]
    · rw [nqueue, List.length_cons]
      show state.nqueue + 1 + queue.length = state.nqueue + (queue.length + 1 : Nat)
      omega

end Overflow

/-- Eight datagrams, which `sig_io` has received when it tests the slots again. -/
theorem run_burst : ∃ history state, Run (sigioEcho False).system history (state : State Unit) ∧
    state.handler = some (.test 8) ∧ state.queue = [] ∧ state.nqueue = qsize := by
  obtain ⟨_, pending, arrived, posted⟩ := run_arrivals (run_suspended False) rfl
    (List.replicate 8 ⟨[104], some ()⟩)
  obtain rfl : pending = true := posted (.inr (by decide))
  have delivered := Run.step arrived (.delivery (.sigio rfl rfl (.inr rfl)))
  obtain ⟨later, next, run, inside, empty, nqueue⟩ := run_receives delivered rfl (by decide)
  exact ⟨later, next, run, inside, empty, nqueue⟩

/-- The slots are just full where `sig_io` tests them, and it ends the program with nothing left to
receive. -/
theorem overflowsFull_iff_burst : ∃ history state,
    Run (sigioEcho False).system history (state : State Unit) ∧ state.nqueue = qsize ∧
      ¬ NotJustFull history state ∧ ¬ OverflowsFull False history state := by
  obtain ⟨history, state, run, inside, empty, full⟩ := run_burst
  have justFull : ¬ NotJustFull history state := fun notJust => (notJust _ inside full).1 empty
  exact ⟨history, state, run, full, justFull, (overflowsFull_iff run).2.not.mpr justFull⟩

/-- It is not so that `sig_io` overflows only with a datagram too many. -/
theorem not_overflowsFull :
    ¬ ∀ (history : List (Event Unit)) (state : State Unit),
      Run (sigioEcho False).system history state → OverflowsFull False history state := by
  intro overflows
  obtain ⟨history, state, run, inside, empty, full⟩ := run_burst
  have justified := overflows history state run _ _ (step_overflow inside full.ge)
    List.mem_cons_self
  exact justified.2 empty

end SocketProgram.SigioServer
