/-
This file is about the signal mask of the `SIGIO` server, as a set of signals. The main loop is to
test and decrement `nqueue` with `SIGIO` blocked and to send with the mask it was started with, and
a comment says so in front of each of its two calls of `sigprocmask`.

But the one that is to unblock `SIGIO` adds the old mask to the mask where it was to set it. So
`SIGIO` stays blocked from the first `sigprocmask` on, through every `sendto`, and the next call
saves a mask with `SIGIO` in it as the old one. Signals are taken in `sigsuspend` only.
-/

import Mathlib.Data.Finset.Lattice.Lemmas
import Mathlib.Data.Finset.SDiff
import SocketProgram.SigioServerOverflow

namespace SocketProgram.SigioServer

open Runs

variable {Address Signal : Type*} [DecidableEq Signal] {fails : Prop}

/-! ### The mask as a set of signals -/

/-- The first argument of `sigprocmask`. -/
inductive How
  | block
  | unblock
  | setmask
  deriving DecidableEq, Repr

/-- `sigprocmask(how,&set,NULL)`: the mask it leaves. -/
def sigprocmask (how : How) (set mask : Finset Signal) : Finset Signal :=
  match how with
  | .block => mask ∪ set
  | .unblock => mask \ set
  | .setmask => set

/-- The signal mask in force in the main loop, and the variable `oldmask`. -/
structure Masks (Signal : Type*) where
  mask : Finset Signal
  oldmask : Finset Signal

/-- What a statement of `dg_echo` does to them. `newmask` is `SIGIO` alone. -/
def Masks.execute (sigio : Signal) (main : MainPc) (masks : Masks Signal) : Masks Signal :=
  match main with
  | .blockFirst | .block => ⟨sigprocmask .block {sigio} masks.mask, masks.mask⟩
  | .unblock => { masks with mask := sigprocmask .block masks.oldmask masks.mask }
  | .signal | .setown | .fioasync | .fionbio | .test | .suspend | .send | .advance
  | .decrement => masks

/-- `SIGIO` is delivered: it is pending, and it is not in the mask, or the main loop waits in
`sigsuspend` with an empty one. -/
inductive DeliversMasked (sigio : Signal) :
    State Address × Masks Signal → List (Event Address) → State Address × Masks Signal → Prop
  | sigio {state : State Address} {masks : Masks Signal} (pending : state.pending = true)
      (outside : state.handler = none) (unblocked : sigio ∉ masks.mask ∨ state.main = .suspend) :
      DeliversMasked sigio (state, masks) []
        ({ state with pending := false, handler := some (.test 0) }, masks)

/-- The bits of the state are whether `SIGIO` is in the masks. -/
structure Agree (sigio : Signal) (state : State Address) (masks : Masks Signal) : Prop where
  mask : state.mask = decide (sigio ∈ masks.mask)
  oldmask : state.oldmask = decide (sigio ∈ masks.oldmask)

/-- The server with its masks, started with this mask. -/
def sigioEchoMasked (sigio : Signal) (entry : Finset Signal) (fails : Prop) :
    Process (State Address × Masks Signal) (Event Address) where
  begins whole := (sigioEcho fails).begins whole.1 ∧ Agree sigio whole.1 whole.2 ∧
    whole.2.mask = entry
  instruction whole events next := Executes fails whole.1 events next.1 ∧
    next.2 = if whole.1.handler = none then whole.2.execute sigio whole.1.main else whole.2
  delivery := DeliversMasked sigio
  outside whole events next := Arrives whole.1 events next.1 ∧ next.2 = whole.2

/-! ### The bits -/

section Masks

variable {sigio : Signal} {entry : Finset Signal} {state next : State Address}
  {masks : Masks Signal} {history events : List (Event Address)}

theorem Agree.executeMain (agree : Agree sigio state masks)
    (executes : state.executeMain = some (events, next)) :
    Agree sigio next (masks.execute sigio state.main) := by
  obtain ⟨mask, oldmask⟩ := agree
  cases mainDoes_of_executeMain executes with
  | signal atPc | setown atPc | fioasync atPc | fionbio atPc | waits atPc | goesOn atPc
  | send atPc | advance atPc | decrement atPc =>
    rw [atPc]
    exact ⟨mask, oldmask⟩
  | blockFirst atPc | block atPc =>
    rw [atPc]
    refine ⟨?_, mask⟩
    have member : sigio ∈ masks.mask ∪ {sigio} :=
      Finset.mem_union_right _ (Finset.mem_singleton_self sigio)
    exact (decide_eq_true member).symm
  | unblock atPc =>
    rw [atPc]
    refine ⟨?_, oldmask⟩
    show (state.mask || state.oldmask) = decide (sigio ∈ masks.mask ∪ masks.oldmask)
    rw [mask, oldmask, ← Bool.decide_or]
    exact decide_eq_decide.mpr Finset.mem_union.symm

theorem executeHandler_masks {failure : Bool} {pc : HandlerPc}
    (executes : state.executeHandler failure pc = some (events, next)) :
    next.mask = state.mask ∧ next.oldmask = state.oldmask := by
  cases handlerDoes_of_executeHandler executes <;> exact ⟨rfl, rfl⟩

/-- Every run of the server with its masks is one of the server with the bits. -/
theorem run_of_masked {whole : State Address × Masks Signal}
    (run : Run (sigioEchoMasked sigio entry fails).system history whole) :
    Run (sigioEcho fails).system history whole.1 ∧ Agree sigio whole.1 whole.2 := by
  induction run with
  | start starts =>
    obtain ⟨rfl, begins, agree, -⟩ := starts
    exact ⟨.start ⟨rfl, begins⟩, agree⟩
  | @step history events whole next run steps inductionHypothesis =>
    obtain ⟨plain, agree⟩ := inductionHypothesis
    cases steps with
    | instruction executes =>
      obtain ⟨executes, masks⟩ := executes
      refine ⟨.step plain (.instruction executes), ?_⟩
      rcases executes_cases executes with ⟨outside, main⟩ | ⟨pc, failure, inside, -, handler⟩
      · rw [if_pos outside] at masks
        rw [masks]
        exact agree.executeMain main
      · rw [if_neg (by rw [inside]; exact Option.some_ne_none pc)] at masks
        obtain ⟨mask, oldmask⟩ := executeHandler_masks handler
        rw [masks]
        exact ⟨mask.trans agree.mask, oldmask.trans agree.oldmask⟩
    | delivery delivers =>
      obtain ⟨pending, outside, unblocked⟩ := delivers
      have unblocked' := unblocked.imp_left fun notMem =>
        agree.mask.trans (decide_eq_false notMem)
      exact ⟨.step plain (.delivery (.sigio pending outside unblocked')), agree.mask, agree.oldmask⟩
    | outside happens =>
      obtain ⟨state, masks⟩ := whole
      obtain ⟨next, masks'⟩ := next
      obtain ⟨⟨datagram⟩, same⟩ := happens
      obtain rfl : masks' = masks := same
      exact ⟨.step plain (.outside (.datagram _ datagram)), agree.mask, agree.oldmask⟩

/-! ### The mask in force -/

/-- What every run keeps of the masks: the one it was started with until `SIGIO` is blocked, and
then `SIGIO` as well, also in the old one. -/
structure Blocks (sigio : Signal) (entry : Finset Signal) (main : MainPc) (masks : Masks Signal) :
    Prop where
  before : main.startUp = true → masks.mask = entry
  behind : main.startUp = false → masks.mask = insert sigio entry
  oldmask : main.startUp = false → masks.oldmask ⊆ insert sigio entry

/-- A statement that stays on its side of the first `sigprocmask` and leaves the masks alone. -/
theorem Blocks.quiet {main main' : MainPc} (blocks : Blocks sigio entry main masks)
    (same : main'.startUp = main.startUp) : Blocks sigio entry main' masks := by
  refine ⟨?_, ?_, ?_⟩ <;> rw [same]
  · exact blocks.before
  · exact blocks.behind
  · exact blocks.oldmask

theorem Blocks.executeMain (blocks : Blocks sigio entry state.main masks)
    (executes : state.executeMain = some (events, next)) :
    Blocks sigio entry next.main (masks.execute sigio state.main) := by
  cases mainDoes_of_executeMain executes with
  | signal atPc | setown atPc | fioasync atPc | fionbio atPc | waits atPc | goesOn atPc
  | send atPc | advance atPc | decrement atPc =>
    rw [atPc]
    exact blocks.quiet (atPc ▸ rfl)
  | blockFirst atPc =>
    have mask : masks.mask = entry := blocks.before (atPc ▸ rfl)
    rw [atPc]
    refine ⟨fun wrong => absurd wrong Bool.false_ne_true, fun _ => ?_, fun _ => ?_⟩
    · show masks.mask ∪ {sigio} = insert sigio entry
      rw [mask, Finset.union_comm, ← Finset.insert_eq]
    · show masks.mask ⊆ insert sigio entry
      rw [mask]
      exact Finset.subset_insert sigio entry
  | block atPc =>
    have mask : masks.mask = insert sigio entry := blocks.behind (atPc ▸ rfl)
    rw [atPc]
    refine ⟨fun wrong => absurd wrong Bool.false_ne_true, fun _ => ?_, fun _ => mask.le⟩
    show masks.mask ∪ {sigio} = insert sigio entry
    rw [mask, Finset.union_comm, ← Finset.insert_eq, Finset.insert_idem]
  | unblock atPc =>
    have mask : masks.mask = insert sigio entry := blocks.behind (atPc ▸ rfl)
    have oldmask : masks.oldmask ⊆ insert sigio entry := blocks.oldmask (atPc ▸ rfl)
    rw [atPc]
    refine ⟨fun wrong => absurd wrong Bool.false_ne_true, fun _ => ?_, fun _ => oldmask⟩
    -- adding the old mask adds nothing, and takes nothing away
    show masks.mask ∪ masks.oldmask = insert sigio entry
    rw [mask, Finset.union_eq_left.mpr oldmask]

/-- A statement of the handler leaves the main loop on its side of the first `sigprocmask`. -/
theorem executeHandler_startUp {failure : Bool} {pc : HandlerPc}
    (executes : state.executeHandler failure pc = some (events, next)) :
    next.main.startUp = state.main.startUp := by
  cases handlerDoes_of_executeHandler executes with
  | overflows | tests | fails | finds | receives => rfl
  | leaves =>
    dsimp only
    split_ifs with suspended
    · rw [suspended]
      rfl
    · rfl

theorem blocks_of_run {whole : State Address × Masks Signal}
    (run : Run (sigioEchoMasked sigio entry fails).system history whole) :
    Blocks sigio entry whole.1.main whole.2 := by
  induction run with
  | start starts =>
    obtain ⟨-, begins, -, mask⟩ := starts
    refine ⟨fun _ => mask, ?_, ?_⟩ <;> rw [begins.1] <;> exact nofun
  | @step history events whole next run steps inductionHypothesis =>
    obtain ⟨state, masks⟩ := whole
    obtain ⟨next, masks'⟩ := next
    cases steps with
    | instruction executes =>
      obtain ⟨executes, rfl⟩ := executes
      rcases executes_cases executes with ⟨outside, main⟩ | ⟨pc, failure, inside, -, handler⟩
      · rw [if_pos outside]
        exact inductionHypothesis.executeMain main
      · rw [if_neg (by rw [inside]; exact Option.some_ne_none pc)]
        exact inductionHypothesis.quiet (executeHandler_startUp handler)
    | delivery delivers =>
      obtain ⟨pending, outside, unblocked⟩ := delivers
      exact inductionHypothesis
    | outside happens =>
      obtain ⟨⟨datagram⟩, same⟩ := happens
      obtain rfl : masks' = masks := same
      exact inductionHypothesis

/-- The mask as the two comments have it: `SIGIO` is blocked where the main loop tests or decrements
`nqueue`, and the mask it was started with is in force at `sendto`. -/
structure Disciplined (sigio : Signal) (entry : Finset Signal)
    (whole : State Address × Masks Signal) : Prop where
  blocked : whole.1.main = .test ∨ whole.1.main = .decrement → sigio ∈ whole.2.mask
  unblocked : whole.1.main = .send → whole.2.mask = entry

/-- From every mask that does not block `SIGIO`, in every run and every iteration: `SIGIO` is
blocked where `nqueue` is tested and decremented, but it is blocked at every `sendto` as well,
where the mask is the one at the start with `SIGIO` added. So the mask is as it should be
everywhere but at `sendto`, and there never. -/
theorem disciplined_iff {whole : State Address × Masks Signal} (notBlocked : sigio ∉ entry)
    (run : Run (sigioEchoMasked sigio entry fails).system history whole) :
    (whole.1.main = .send → whole.2.mask = insert sigio entry) ∧
      (Disciplined sigio entry whole ↔ whole.1.main ≠ .send) := by
  have blocks := blocks_of_run run
  have atSend (send : whole.1.main = .send) : whole.2.mask = insert sigio entry :=
    blocks.behind (send ▸ rfl)
  refine ⟨atSend, fun disciplined send => ?_, fun notSend => ⟨?_, fun send => absurd send notSend⟩⟩
  · refine notBlocked ?_
    rw [← disciplined.unblocked send, atSend send]
    exact Finset.mem_insert_self sigio entry
  · rintro (test | decrement)
    · rw [blocks.behind (test ▸ rfl)]
      exact Finset.mem_insert_self sigio entry
    · rw [blocks.behind (decrement ▸ rfl)]
      exact Finset.mem_insert_self sigio entry

/-! ### A run to the first `sendto` -/

theorem run_masked_executeMain (next : State Address) (events : List (Event Address))
    (run : Run (sigioEchoMasked sigio entry fails).system history (state, masks))
    (outside : state.handler = none) (executes : state.executeMain = some (events, next)) :
    ∃ masks', Run (sigioEchoMasked sigio entry fails).system (history ++ events)
      (next, masks') := by
  refine ⟨masks.execute sigio state.main, .step run (.instruction ⟨?_, ?_⟩)⟩
  · simp only [Executes, outside]
    exact executes
  · exact (if_pos outside).symm

theorem run_masked_executeHandler (next : State Address) (events : List (Event Address))
    (pc : HandlerPc)
    (run : Run (sigioEchoMasked sigio entry fails).system history (state, masks))
    (inside : state.handler = some pc)
    (executes : state.executeHandler false pc = some (events, next)) :
    Run (sigioEchoMasked sigio entry fails).system (history ++ events) (next, masks) := by
  refine .step run (.instruction ⟨?_, ?_⟩)
  · simp only [Executes, inside]
    exact ⟨false, fun wrong => absurd wrong Bool.false_ne_true, executes⟩
  · exact (if_neg (by rw [inside]; exact Option.some_ne_none pc)).symm

end Masks

/-- A server started with only the signal 1 blocked, where `SIGIO` is 29, that is about to send its
first datagram. -/
theorem run_firstSend :
    ∃ (history : List (Event Unit)) (state : State Unit) (masks : Masks Nat),
      Run (sigioEchoMasked 29 ({1} : Finset Nat) False).system history (state, masks) ∧
        state.main = .send := by
  let slots : Nat → Dg Unit := Function.update fresh.dg 0 ⟨[104], 1, some ()⟩
  let full : State Unit := { suspended with dg := slots, iput := 1, nqueue := 1 }
  have start : Run (sigioEchoMasked 29 ({1} : Finset Nat) False).system []
      (fresh, ⟨{1}, ∅⟩) :=
    .start ⟨rfl, ⟨rfl, rfl, rfl, rfl, rfl, rfl, rfl, rfl, rfl⟩, ⟨by decide, by decide⟩, rfl⟩
  obtain ⟨_, setown⟩ := run_masked_executeMain { fresh with main := .setown } [] start rfl rfl
  obtain ⟨_, fioasync⟩ := run_masked_executeMain { fresh with main := .fioasync } [] setown rfl rfl
  obtain ⟨_, fionbio⟩ := run_masked_executeMain
    { fresh with main := .fionbio, async := true } [] fioasync rfl rfl
  obtain ⟨_, block⟩ := run_masked_executeMain
    { fresh with main := .blockFirst, async := true, nonblock := true } [] fionbio rfl rfl
  obtain ⟨_, test⟩ := run_masked_executeMain { suspended with main := .test } [] block rfl rfl
  obtain ⟨masks, suspend⟩ := run_masked_executeMain suspended [] test rfl rfl
  have arrived : Run (sigioEchoMasked 29 ({1} : Finset Nat) False).system _
      ({ suspended with queue := [⟨[104], some ()⟩], pending := true }, masks) :=
    Run.step suspend (.outside ⟨.datagram suspended ⟨[104], some ()⟩, rfl⟩)
  have delivered : Run (sigioEchoMasked 29 ({1} : Finset Nat) False).system _
      ({ suspended with queue := [⟨[104], some ()⟩], handler := some (.test 0) }, masks) :=
    Run.step arrived (.delivery (.sigio rfl rfl (.inr rfl)))
  have empty := run_masked_executeHandler
    { suspended with queue := [⟨[104], some ()⟩], handler := some (.recvfrom 0) } [] _ delivered
    rfl rfl
  have received := run_masked_executeHandler { full with handler := some (.test 1) }
    [.received ⟨[104], some ()⟩] _ empty rfl rfl
  have more := run_masked_executeHandler { full with handler := some (.recvfrom 1) } [] _ received
    rfl rfl
  have drained := run_masked_executeHandler { full with handler := some (.leave 1) } [] _ more
    rfl rfl
  have left := run_masked_executeHandler { full with main := .test } [] _ drained rfl rfl
  obtain ⟨_, waiting⟩ := run_masked_executeMain { full with main := .unblock } [] left rfl rfl
  obtain ⟨_, unblocked⟩ := run_masked_executeMain { full with main := .send } [] waiting rfl rfl
  exact ⟨_, _, _, unblocked, rfl⟩

/-- At that `sendto`, `SIGIO` is blocked. -/
theorem disciplined_iff_firstSend :
    ∃ (history : List (Event Unit)) (state : State Unit) (masks : Masks Nat),
      Run (sigioEchoMasked 29 ({1} : Finset Nat) False).system history (state, masks) ∧
        state.main = .send ∧ masks.mask = {29, 1} := by
  obtain ⟨history, state, masks, run, send⟩ := run_firstSend
  exact ⟨history, state, masks, run, send, (disciplined_iff (by decide) run).1 send⟩

/-- So the mask is not always as it should be. -/
theorem not_disciplined :
    ¬ ∀ (history : List (Event Unit)) (whole : State Unit × Masks Nat),
      Run (sigioEchoMasked 29 {1} False).system history whole → Disciplined 29 {1} whole := by
  intro disciplined
  obtain ⟨history, state, masks, run, send⟩ := run_firstSend
  have entry := (disciplined history (state, masks) run).unblocked send
  have behind : masks.mask = insert 29 {1} := (blocks_of_run run).behind (send ▸ rfl)
  rw [show masks.mask = {1} from entry] at behind
  exact absurd behind (by decide)

end SocketProgram.SigioServer
