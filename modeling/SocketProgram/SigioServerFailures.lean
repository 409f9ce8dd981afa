/-
This file is about a `recvfrom` in `sig_io` that fails although there may be something to receive.
`err_sys` prints and goes on, so the failure takes the way of a datagram: its length of -1 becomes
the largest `size_t`, and the slot is counted and handed to the main loop.

So no failure leaves the queue as it was, and the slots hold datagrams that were received, of
lengths they have room for, exactly where no failure is among the entries that wait in them.
-/

import SocketProgram.SigioServerOverflow

namespace SocketProgram.SigioServer

open Runs

variable {Address : Type*} {fails : Prop} {history : List (Event Address)}
  {state next : State Address}

/-! ### The slots that wait -/

/-- The slots that are counted and not sent. -/
def State.queuedSlots (state : State Address) : List (Dg Address) :=
  Ring.queued qsize state.dg state.first (state.nqueue - state.main.counted).toNat

/-- The queue is as it was: no entry is added, and `iput` and `nqueue` keep their values. -/
structure SameQueue (state next : State Address) : Prop where
  slots : next.queuedSlots = state.queuedSlots
  iput : next.iput = state.iput
  nqueue : next.nqueue = state.nqueue

/-- Every entry that waits has a length its buffer has room for, and holds a datagram that was
received. -/
def HoldReceived (history : List (Event Address)) (state : State Address) : Prop :=
  ∀ slot ∈ state.queuedSlots, slot.dgLen ≤ maxdg ∧ slot.datagram ∈ received history

theorem Queued.queuedSlots {unsent : Nat} (queued : Queued history state unsent) :
    state.queuedSlots = Ring.queued qsize state.dg state.first unsent := by
  have nqueue := queued.nqueue
  have count : (state.nqueue - state.main.counted).toNat = unsent := by omega
  rw [State.queuedSlots, count]

/-- The slots that wait hold the entries that have not been sent. -/
theorem holds_queuedSlots (run : Run (sigioEcho fails).system history state) :
    List.Forall₂ Holds (unsentEntries history) state.queuedSlots := by
  obtain ⟨unsent, queued⟩ := queued_run run
  rw [queued.queuedSlots]
  exact queued.unsent

/-- Slots that all have lengths their buffers have room for hold no failure. -/
theorem none_notMem_of_dgLen {list : List (Option (Datagram Address))} {slots : List (Dg Address)}
    (holds : List.Forall₂ Holds list slots) (fits : ∀ slot ∈ slots, slot.dgLen ≤ maxdg) :
    none ∉ list := by
  induction holds with
  | nil => exact List.not_mem_nil
  | @cons entry slot list slots held _ inductionHypothesis =>
    obtain ⟨here, others⟩ := List.forall_mem_cons.mp fits
    rw [List.mem_cons, not_or]
    refine ⟨?_, inductionHypothesis others⟩
    rintro rfl
    have large : slot.dgLen = sizeMax := held
    rw [large] at here
    exact absurd here (by decide)

/-- Slots that hold datagrams of a list. -/
theorem dgLen_of_received {list : List (Option (Datagram Address))} {slots : List (Dg Address)}
    {datagrams : List (Datagram Address)} (holds : List.Forall₂ Holds list slots)
    (received : ∀ entry ∈ list, ∃ datagram ∈ datagrams, entry = some datagram) :
    ∀ slot ∈ slots, slot.dgLen ≤ maxdg ∧ slot.datagram ∈ datagrams := by
  induction holds with
  | nil => exact fun slot member => absurd member List.not_mem_nil
  | cons held _ inductionHypothesis =>
    obtain ⟨here, others⟩ := List.forall_mem_cons.mp received
    obtain ⟨datagram, member, rfl⟩ := here
    exact List.forall_mem_cons.mpr
      ⟨⟨held.2, held.1 ▸ member⟩, inductionHypothesis others⟩

/-- The slots that wait hold what was received exactly where no failure waits among them. -/
theorem holdReceived_iff (run : Run (sigioEcho fails).system history state) :
    HoldReceived history state ↔ none ∉ unsentEntries history := by
  have holds := holds_queuedSlots run
  constructor
  · intro received
    exact none_notMem_of_dgLen holds fun slot member => (received slot member).1
  · intro noFailure
    refine dgLen_of_received holds fun entry member => ?_
    obtain ⟨datagram, rfl⟩ := Option.ne_none_iff_exists'.mp
      fun failed => noFailure (failed ▸ member)
    refine ⟨datagram, ?_, rfl⟩
    rw [received_eq_entries, List.reduceOption_mem_iff]
    exact List.mem_of_mem_drop member

/-! ### The failures -/

/-- A `recvfrom` that fails counts an entry. -/
theorem nqueue_of_failed {events : List (Event Address)}
    (step : (sigioEcho fails).system.step state events next)
    (failed : Event.printf "recvfrom error" ∈ events) : next.nqueue = state.nqueue + 1 := by
  cases step with
  | instruction executes =>
    rcases executes_cases executes with ⟨outside, main⟩ | ⟨pc, failure, inside, -, handler⟩
    · exact absurd failed (printf_notMem_executeMain main _)
    · cases handlerDoes_of_executeHandler handler with
      | fails => rfl
      | overflows => simp at failed
      | tests | finds | receives | leaves => simp at failed
  | delivery delivers =>
    obtain ⟨pending, outside, unblocked⟩ := delivers
    exact absurd failed List.not_mem_nil
  | outside happens =>
    obtain ⟨datagram⟩ := happens
    simp at failed

/-- A history without failures has entered datagrams only. -/
theorem none_notMem_of_noFailure (noFailure : Event.printf "recvfrom error" ∉ history) :
    none ∉ entries history := by
  intro missing
  obtain ⟨event, member, entered⟩ := List.mem_filterMap.mp missing
  cases event with
  | printf text =>
    dsimp only at entered
    split_ifs at entered with same
    exact noFailure (same ▸ member)
  | arrived | received | sendto => simp at entered

/-- In every run, whatever `recvfrom` gives: a step leaves the queue alone where `recvfrom` fails,
if and only if it does not fail there; and the slots that wait hold datagrams that were received, of
lengths there is room for, if and only if no failure is among the entries that have not been
sent. So they do in every run in which `recvfrom` has never failed but for want of datagrams. -/
theorem failed_recvfrom_iff (run : Run (sigioEcho fails).system history state) :
    (∀ events next, (sigioEcho fails).system.step state events next →
      ((Event.printf "recvfrom error" ∈ events → SameQueue state next) ↔
        Event.printf "recvfrom error" ∉ events)) ∧
      (HoldReceived history state ↔ none ∉ unsentEntries history) ∧
      (Event.printf "recvfrom error" ∉ history → HoldReceived history state) := by
  refine ⟨fun events next step => ⟨fun same failed => ?_, fun never failed => absurd failed never⟩,
    holdReceived_iff run, fun noFailure => ?_⟩
  · have counted := nqueue_of_failed step failed
    rw [(same failed).nqueue] at counted
    omega
  · rw [holdReceived_iff run]
    exact fun missing => none_notMem_of_noFailure noFailure (List.mem_of_mem_drop missing)

/-- The first `recvfrom` after a datagram has arrived. -/
def receiving : State Unit :=
  { suspended with queue := [⟨[104], some ()⟩], handler := some (.recvfrom 0) }

theorem run_receiving (fails : Prop) :
    Run (sigioEcho fails).system [.arrived ⟨[104], some ()⟩] receiving := by
  have arrived := Run.step (run_suspended fails) (.outside (.datagram _ ⟨[104], some ()⟩))
  have delivered := Run.step arrived (.delivery (.sigio rfl rfl (.inr rfl)))
  exact run_executeHandler receiving [] (.test 0) delivered rfl rfl

/-- Before it fails, the slots hold what was received. -/
theorem failed_recvfrom_iff_receiving : HoldReceived [.arrived ⟨[104], some ()⟩] receiving :=
  (failed_recvfrom_iff (run_receiving True)).2.2 (by simp)

/-- Then it fails. -/
theorem not_failed_recvfrom :
    ¬ ∀ (history : List (Event Unit)) (state : State Unit),
      Run (sigioEcho True).system history state →
        (∀ events next, (sigioEcho True).system.step state events next →
          Event.printf "recvfrom error" ∈ events → SameQueue state next) ∧
        HoldReceived history state := by
  intro unchanged
  have step : (sigioEcho True).system.step receiving [.printf "recvfrom error"]
      (receiving.count 0 { receiving.dg receiving.iput with dgLen := sizeMax }) :=
    .instruction ⟨true, fun _ => trivial, rfl⟩
  have same := (unchanged _ receiving (run_receiving True)).1 _ _ step List.mem_cons_self
  exact absurd same.nqueue (by decide)

end SocketProgram.SigioServer
