/-
This file models `lib/connect_timeo.c`, which lets an alarm interrupt `connect`. `SIGALRM` may come
between any two statements: the alarm of `connect_timeo` itself, or one that the caller has set.

The caller's handler is put back after the alarm has been turned off, so it never gets a signal
that is not the caller's. Nor is an alarm of the caller turned off and forgotten: either it has
gone off before, or the process ends with a message. A connection that is not made is closed, and
`EINTR` is never what the caller sees.
-/

import SocketProgram.Kernel
import SocketProgram.Library.Interrupts

namespace SocketProgram.ConnectTimeo

open Runs

/-! ### The function -/

/-- Where `connect_timeo` is: the statement it executes next. At `waiting` it is in `connect`. -/
inductive Pc
  | signal
  | alarm
  | connect
  | waiting
  | close
  | test
  | alarmOff
  | restore
  | returned
  | exited
  deriving DecidableEq, Repr

/-- The caller, or `connect_timeo`: whose handler is installed, and whose alarm is set. -/
inductive Owner
  | caller
  | connectTimeo
  deriving DecidableEq, Repr

/-- `ETIMEDOUT`. -/
def etimedout : Errno := .other 110

/-- `connect_timeo` with what it has from the kernel: the handler of `SIGALRM`, the alarm, and
whether `sockfd` is open. -/
structure State where
  pc : Pc
  handler : Owner
  sigfunc : Owner
  armed : Option Owner
  isOpen : Bool
  n : Int
  errno : Errno

/-- What is seen of a run: a signal, with the handler it finds and whether `connect` fails from it,
and the message about an alarm that was already set. -/
inductive Event
  | sigalrm (alarm handler : Owner) (interrupts : Bool)
  | alreadySet
  deriving DecidableEq, Repr

/-- `connect` returns. -/
def State.connected (state : State) : Except Errno Unit → State
  | .ok () => { state with pc := .alarmOff, n := 0 }
  | .error errno => { state with pc := .close, n := -1, errno := errno }

/-- One statement of `connect_timeo(sockfd,saptr,salen,nsec)`. `none` when it blocks or is at its
end; `outcome` is what `connect` comes to if it does not wait any longer. -/
def State.execute (nsec : Nat) (outcome : Option (Except Errno Unit)) (state : State) :
    Option (List Event × State) :=
  match state.pc with
  | .signal =>
    some ([], { state with pc := .alarm, sigfunc := state.handler, handler := .connectTimeo })
  | .alarm =>
    let armed := if nsec = 0 then none else some Owner.connectTimeo
    if state.armed = none then some ([], { state with pc := .connect, armed := armed })
    else some ([.alreadySet], { state with pc := .exited, armed := armed })
  | .connect =>
    match outcome with
    | none => some ([], { state with pc := .waiting })
    | some outcome => some ([], state.connected outcome)
  | .waiting => outcome.map fun outcome => ([], state.connected outcome)
  | .close => some ([], { state with pc := .test, isOpen := false })
  | .test =>
    some ([], { state with
      pc := .alarmOff, errno := if state.errno = .eintr then etimedout else state.errno })
  | .alarmOff => some ([], { state with pc := .restore, armed := none })
  | .restore => some ([], { state with pc := .returned, handler := state.sigfunc })
  | .returned => none
  | .exited => none

/-- The alarm goes off. A `connect` that waits fails, unless `Signal` has it restarted. -/
inductive Delivers (restarts : Bool) : State → List Event → State → Prop
  | interrupts {state : State} {alarm : Owner} (armed : state.armed = some alarm)
      (waiting : state.pc = .waiting) (fails : restarts = false) :
      Delivers restarts state [.sigalrm alarm state.handler true]
        { state.connected (.error .eintr) with armed := none }
  | passes {state : State} {alarm : Owner} (armed : state.armed = some alarm)
      (runs : state.pc ≠ .returned ∧ state.pc ≠ .exited)
      (unseen : state.pc ≠ .waiting ∨ restarts = true) :
      Delivers restarts state [.sigalrm alarm state.handler false] { state with armed := none }

/-- `connect_timeo` from its first statement on, for a caller that has an alarm set or not. Other
signals than `SIGALRM` may interrupt `connect` as well. -/
def connectTimeo (restarts : Bool) (nsec : Nat) (set : Bool) : Process State Event where
  begins state :=
    state.pc = .signal ∧ state.handler = .caller ∧ state.isOpen = true ∧
      state.armed = if set then some .caller else none
  instruction state events next := ∃ outcome, state.execute nsec outcome = some (events, next)
  delivery := Delivers restarts
  outside _ _ _ := False

/-! ### What every run keeps -/

/-- The handler is `connect_timeo`'s from the first statement to the last. -/
def Pc.inside : Pc → Bool
  | .alarm | .connect | .waiting | .close | .test | .alarmOff | .restore | .exited => true
  | .signal | .returned => false

/-- The alarm of `connect_timeo` may be set. -/
def Pc.timed : Pc → Bool
  | .connect | .waiting | .close | .test | .alarmOff | .exited => true
  | .signal | .alarm | .restore | .returned => false

/-- The alarm of the caller may be set. -/
def Pc.early : Pc → Bool
  | .signal | .alarm => true
  | .connect | .waiting | .close | .test | .alarmOff | .restore | .returned | .exited => false

/-- `connect` has returned. -/
def Pc.late : Pc → Bool
  | .close | .test | .alarmOff | .restore | .returned => true
  | .signal | .alarm | .connect | .waiting | .exited => false

/-- What `connect` leaves until the end: a connection, or a descriptor that is closed and an error
that is not `EINTR` once it has been looked at. -/
def State.Settled (state : State) : Prop :=
  match state.pc with
  | .close => state.n = -1
  | .test => state.n = -1 ∧ state.isOpen = false
  | .alarmOff | .restore | .returned =>
    state.n = 0 ∧ state.isOpen = true ∨
      state.n = -1 ∧ state.isOpen = false ∧ state.errno ≠ .eintr
  | .signal | .alarm | .connect | .waiting => state.isOpen = true
  | .exited => True

/-- The signal has made `connect` fail, which counts as a timeout. -/
def State.TimedOut (state : State) : Prop :=
  state.pc.late = true ∧ state.n = -1 ∧
    state.errno = if state.pc = .close ∨ state.pc = .test then .eintr else etimedout

/-- What every run keeps. -/
structure Inv (set : Bool) (history : List Event) (state : State) : Prop where
  handler : state.handler = if state.pc.inside then .connectTimeo else .caller
  sigfunc : state.pc.inside = true → state.sigfunc = .caller
  own : state.armed = some .connectTimeo → state.pc.timed = true
  caller : state.armed = some .caller → state.pc.early = true
  signals : ∀ handler interrupts, .sigalrm .connectTimeo handler interrupts ∈ history →
    handler = .connectTimeo
  kept : set = true → state.armed = some .caller ∨
    (∃ handler, .sigalrm .caller handler false ∈ history) ∨ .alreadySet ∈ history
  settled : state.Settled
  timedOut : ∀ alarm handler, .sigalrm alarm handler true ∈ history → state.TimedOut
  exits : .alreadySet ∈ history → state.pc = .exited

section Steps

variable {set : Bool} {history events : List Event} {state next : State}

/-- A statement that shows nothing. -/
theorem Inv.silent (inv : Inv set history state)
    (handler : next.handler = if next.pc.inside then .connectTimeo else .caller)
    (sigfunc : next.pc.inside = true → next.sigfunc = .caller)
    (own : next.armed = some .connectTimeo → next.pc.timed = true)
    (caller : next.armed = some .caller → next.pc.early = true)
    (kept : state.armed = some .caller → next.armed = some .caller) (settled : next.Settled)
    (timedOut : state.TimedOut → next.TimedOut) (goesOn : state.pc ≠ .exited) :
    Inv set (history ++ []) next := by
  rw [List.append_nil]
  refine ⟨handler, sigfunc, own, caller, inv.signals, fun isSet => ?_, settled,
    fun alarm handler member => timedOut (inv.timedOut alarm handler member),
    fun exits => absurd (inv.exits exits) goesOn⟩
  exact (inv.kept isSet).imp_left kept

/-- A state with the same alarm in which `connect` has not yet returned. -/
theorem not_timedOut (early : state.pc.late = false) : ¬ state.TimedOut := by
  rintro ⟨late, -⟩
  rw [early] at late
  cases late

/-- What `connect` returns. -/
theorem Inv.connected (inv : Inv set history state)
    (inside : state.pc = .connect ∨ state.pc = .waiting) (outcome : Except Errno Unit) :
    Inv set (history ++ []) (state.connected outcome) := by
  have handler := inv.handler
  have sigfunc := inv.sigfunc
  have notCaller : state.armed ≠ some .caller := fun armed => by
    have early := inv.caller armed
    rcases inside with pc | pc <;> rw [pc] at early <;> cases early
  have isOpen : state.isOpen = true := by
    have settled := inv.settled
    rcases inside with pc | pc <;> rwa [State.Settled, pc] at settled
  have notLate : state.pc.late = false := by rcases inside with pc | pc <;> rw [pc] <;> rfl
  have within : state.pc.inside = true := by rcases inside with pc | pc <;> rw [pc] <;> rfl
  have goesOn : state.pc ≠ .exited := by rcases inside with pc | pc <;> rw [pc] <;> decide
  rw [within, if_pos rfl] at handler
  cases outcome with
  | ok =>
    exact inv.silent handler (fun _ => sigfunc within) (fun _ => rfl)
      (fun armed => absurd armed notCaller) id (.inl ⟨rfl, isOpen⟩)
      (fun timedOut => absurd timedOut (not_timedOut notLate)) goesOn
  | error errno =>
    exact inv.silent handler (fun _ => sigfunc within) (fun _ => rfl)
      (fun armed => absurd armed notCaller) id rfl
      (fun timedOut => absurd timedOut (not_timedOut notLate)) goesOn

/-- A statement behind `connect` that leaves the handler and the alarm alone. -/
theorem Inv.late (inv : Inv set history state) {pc : Pc} (before : state.pc = pc)
    (inside : pc.inside = true ∧ next.pc.inside = true)
    (timed : next.pc.timed = true) (late : pc.early = false) (goesOn : pc ≠ .exited)
    (handler : next.handler = state.handler) (sigfunc : next.sigfunc = state.sigfunc)
    (armed : next.armed = state.armed) (settled : next.Settled)
    (timedOut : state.TimedOut → next.TimedOut) : Inv set (history ++ []) next := by
  subst before
  refine inv.silent ?_ ?_ (fun _ => timed) ?_ ?_ settled timedOut goesOn
  · rw [handler, inv.handler, inside.1, inside.2]
  · rw [sigfunc]
    exact fun _ => inv.sigfunc inside.1
  · rw [armed]
    intro caller
    have early := inv.caller caller
    rw [late] at early
    cases early
  · rw [armed]
    exact id

theorem inv_execute {nsec : Nat} {outcome : Option (Except Errno Unit)}
    (inv : Inv set history state)
    (executes : state.execute nsec outcome = some (events, next)) :
    Inv set (history ++ events) next := by
  cases pc : state.pc with
  | signal =>
    simp only [State.execute, pc, Option.some.injEq, Prod.mk.injEq] at executes
    obtain ⟨rfl, rfl⟩ := executes
    have handler := inv.handler
    have settled := inv.settled
    rw [pc] at handler
    rw [State.Settled, pc] at settled
    refine inv.silent rfl (fun _ => handler) (fun own => ?_) (fun _ => rfl) id settled
      (fun timedOut => absurd timedOut (not_timedOut (pc ▸ rfl))) (pc ▸ nofun)
    have timed := inv.own own
    rw [pc] at timed
    cases timed
  | alarm =>
    have handler := inv.handler
    have sigfunc := inv.sigfunc (pc ▸ rfl)
    have settled := inv.settled
    rw [pc] at handler
    rw [State.Settled, pc] at settled
    have notCaller : (if nsec = 0 then none else some Owner.connectTimeo) ≠ some .caller := by
      split_ifs <;> decide
    simp only [State.execute, pc] at executes
    revert executes notCaller
    generalize (if nsec = 0 then none else some Owner.connectTimeo) = own
    intro notCaller executes
    split_ifs at executes with nothing
    · obtain ⟨rfl, rfl⟩ := Prod.mk.inj (Option.some.inj executes)
      refine inv.silent handler (fun _ => sigfunc) (fun _ => rfl)
        (fun armed => absurd armed notCaller) (fun armed => ?_) settled
        (fun timedOut => absurd timedOut (not_timedOut (pc ▸ rfl))) (pc ▸ nofun)
      rw [nothing] at armed
      cases armed
    · obtain ⟨rfl, rfl⟩ := Prod.mk.inj (Option.some.inj executes)
      refine ⟨handler, fun _ => sigfunc, fun _ => rfl, fun armed => absurd armed notCaller, ?_,
        fun _ => .inr (.inr List.mem_concat_self), trivial, ?_, fun _ => rfl⟩
      · intro handler interrupts member
        exact inv.signals handler interrupts (by simpa using member)
      · intro alarm handler member
        have timedOut := inv.timedOut alarm handler (by simpa using member)
        exact absurd timedOut (not_timedOut (pc ▸ rfl))
  | connect =>
    cases outcome with
    | none =>
      have handler := inv.handler
      have sigfunc := inv.sigfunc (pc ▸ rfl)
      have settled := inv.settled
      rw [pc] at handler
      rw [State.Settled, pc] at settled
      simp only [State.execute, pc] at executes
      obtain ⟨rfl, rfl⟩ := Prod.mk.inj (Option.some.inj executes)
      refine inv.silent handler (fun _ => sigfunc) (fun _ => rfl) (fun armed => ?_) id settled
        (fun timedOut => absurd timedOut (not_timedOut (pc ▸ rfl))) (pc ▸ nofun)
      have early := inv.caller armed
      rw [pc] at early
      cases early
    | some outcome =>
      simp only [State.execute, pc] at executes
      obtain ⟨rfl, rfl⟩ := Prod.mk.inj (Option.some.inj executes)
      exact inv.connected (.inl pc) outcome
  | waiting =>
    simp only [State.execute, pc] at executes
    obtain ⟨outcome, -, same⟩ := Option.map_eq_some_iff.mp executes
    obtain ⟨rfl, rfl⟩ := Prod.mk.inj same
    exact inv.connected (.inr pc) outcome
  | close =>
    have settled := inv.settled
    rw [State.Settled, pc] at settled
    simp only [State.execute, pc] at executes
    obtain ⟨rfl, rfl⟩ := Prod.mk.inj (Option.some.inj executes)
    refine inv.late pc ⟨rfl, rfl⟩ rfl rfl nofun rfl rfl rfl ⟨settled, rfl⟩ ?_
    rintro ⟨-, failed, errno⟩
    rw [if_pos (.inl pc)] at errno
    exact ⟨rfl, failed, errno⟩
  | test =>
    have settled := inv.settled
    rw [State.Settled, pc] at settled
    simp only [State.execute, pc] at executes
    obtain ⟨rfl, rfl⟩ := Prod.mk.inj (Option.some.inj executes)
    refine inv.late pc ⟨rfl, rfl⟩ rfl rfl nofun rfl rfl rfl (.inr ⟨settled.1, settled.2, ?_⟩) ?_
    · dsimp only
      split_ifs with interrupted
      · decide
      · exact interrupted
    · rintro ⟨-, failed, errno⟩
      rw [if_pos (.inr pc)] at errno
      exact ⟨rfl, failed, if_pos errno⟩
  | alarmOff =>
    have handler := inv.handler
    have sigfunc := inv.sigfunc (pc ▸ rfl)
    have settled := inv.settled
    rw [pc] at handler
    rw [State.Settled, pc] at settled
    simp only [State.execute, pc] at executes
    obtain ⟨rfl, rfl⟩ := Prod.mk.inj (Option.some.inj executes)
    refine inv.silent handler (fun _ => sigfunc) nofun nofun (fun armed => ?_) settled ?_
      (pc ▸ nofun)
    · have early := inv.caller armed
      rw [pc] at early
      cases early
    · rintro ⟨-, failed, errno⟩
      rw [if_neg (by simp [pc])] at errno
      exact ⟨rfl, failed, errno⟩
  | restore =>
    have sigfunc := inv.sigfunc (pc ▸ rfl)
    have settled := inv.settled
    rw [State.Settled, pc] at settled
    simp only [State.execute, pc] at executes
    obtain ⟨rfl, rfl⟩ := Prod.mk.inj (Option.some.inj executes)
    refine inv.silent sigfunc nofun (fun own => ?_) (fun caller => ?_) id settled ?_ (pc ▸ nofun)
    · have timed := inv.own own
      rw [pc] at timed
      cases timed
    · have early := inv.caller caller
      rw [pc] at early
      cases early
    · rintro ⟨-, failed, errno⟩
      rw [if_neg (by simp [pc])] at errno
      exact ⟨rfl, failed, errno⟩
  | returned => simp [State.execute, pc] at executes
  | exited => simp [State.execute, pc] at executes

/-- The signal of `connect_timeo` finds its own handler. -/
theorem Inv.signals_append (inv : Inv set history state) {alarm : Owner} {interrupts : Bool}
    (armed : state.armed = some alarm) {handler : Owner} {interrupts' : Bool}
    (member : .sigalrm .connectTimeo handler interrupts' ∈
      history ++ [.sigalrm alarm state.handler interrupts]) : handler = .connectTimeo := by
  rcases List.mem_append.mp member with before | now
  · exact inv.signals handler interrupts' before
  · obtain ⟨rfl, rfl, -⟩ := Event.sigalrm.inj (List.mem_singleton.mp now)
    have timed := inv.own armed
    rw [inv.handler, if_pos]
    revert timed
    cases state.pc <;> decide

theorem inv_delivers {restarts : Bool} (inv : Inv set history state)
    (delivers : Delivers restarts state events next) : Inv set (history ++ events) next := by
  cases delivers with
  | @interrupts alarm armed waiting fails =>
    have handler := inv.handler
    have sigfunc := inv.sigfunc (waiting ▸ rfl)
    rw [waiting] at handler
    obtain rfl : alarm = .connectTimeo := by
      cases alarm with
      | connectTimeo => rfl
      | caller =>
        have early := inv.caller armed
        rw [waiting] at early
        cases early
    refine ⟨handler, fun _ => sigfunc, nofun, nofun, fun _ _ => inv.signals_append armed,
      fun isSet => .inr ?_, rfl, fun _ _ _ => ⟨rfl, rfl, rfl⟩, fun exits => ?_⟩
    · refine ((inv.kept isSet).resolve_left fun caller => ?_).imp ?_ ?_
      · rw [armed] at caller
        cases caller
      · exact fun ⟨handler, member⟩ => ⟨handler, List.mem_append_left _ member⟩
      · exact List.mem_append_left _
    · have exited := inv.exits (by simpa using exits)
      rw [waiting] at exited
      cases exited
  | @passes alarm armed runs unseen =>
    refine ⟨inv.handler, inv.sigfunc, nofun, nofun, fun _ _ => inv.signals_append armed,
      fun isSet => .inr ?_, inv.settled, fun alarm' handler member => ?_, fun exits => ?_⟩
    · rcases inv.kept isSet with caller | ⟨handler, member⟩ | exits
      · obtain rfl := Option.some.inj (armed.symm.trans caller)
        exact .inl ⟨state.handler, List.mem_concat_self⟩
      · exact .inl ⟨handler, List.mem_append_left _ member⟩
      · exact .inr (List.mem_append_left _ exits)
    · exact inv.timedOut alarm' handler (by simpa using member)
    · exact inv.exits (by simpa using exits)

theorem inv_run {restarts : Bool} {nsec : Nat}
    (run : Run (connectTimeo restarts nsec set).system history state) : Inv set history state := by
  refine Process.invariant (Inv set) ?_ ?_ ?_ ?_ run
  · rintro state ⟨pc, handler, isOpen, armed⟩
    refine ⟨?_, ?_, ?_, fun _ => pc ▸ rfl, nofun, fun isSet => .inl ?_, ?_, nofun, nofun⟩
    · rw [handler, pc]
      rfl
    · rw [pc]
      exact nofun
    · rw [armed]
      cases set <;> exact nofun
    · rw [armed, if_pos isSet]
    · rw [State.Settled, pc]
      exact isOpen
  · rintro history state events next inv ⟨outcome, executes⟩
    exact inv_execute inv executes
  · intro history state events next inv delivers
    exact inv_delivers inv delivers
  · intro history state events next inv happens
    exact happens.elim

/-- Wherever the alarms go off, the caller's handler never gets the signal of `connect_timeo`. An
alarm that the caller had set is still set, or has gone off, or the process has ended with the
message. When `connect_timeo` returns, the caller's handler is installed again, no alarm is set, and
an alarm that the caller had set has gone off. The socket is open just if it is connected; otherwise
`errno` is not `EINTR`, and it is `ETIMEDOUT` if the signal has interrupted `connect`. -/
theorem connect_timeo_returns {restarts set : Bool} {nsec : Nat} {history : List Event}
    {state : State} (run : Run (connectTimeo restarts nsec set).system history state) :
    (∀ handler interrupts, .sigalrm .connectTimeo handler interrupts ∈ history →
        handler = .connectTimeo) ∧
      (set = true → state.armed = some .caller ∨
        (∃ handler, .sigalrm .caller handler false ∈ history) ∨
          .alreadySet ∈ history ∧ state.pc = .exited) ∧
      (state.pc = .returned →
        state.handler = .caller ∧ state.armed = none ∧
          (set = true → ∃ handler, .sigalrm .caller handler false ∈ history) ∧
          (state.n = 0 ∧ state.isOpen = true ∨
            state.n = -1 ∧ state.isOpen = false ∧ state.errno ≠ .eintr) ∧
          ∀ alarm handler, .sigalrm alarm handler true ∈ history →
            state.n = -1 ∧ state.errno = etimedout) := by
  have inv := inv_run run
  have kept (isSet : set = true) : state.armed = some .caller ∨
      (∃ handler, .sigalrm .caller handler false ∈ history) ∨
        .alreadySet ∈ history ∧ state.pc = .exited :=
    (inv.kept isSet).imp_right (.imp_right fun message => ⟨message, inv.exits message⟩)
  refine ⟨inv.signals, kept, fun returned => ?_⟩
  have handler := inv.handler
  have settled := inv.settled
  have own := inv.own
  have caller := inv.caller
  rw [returned] at handler own caller
  rw [State.Settled, returned] at settled
  have unarmed : state.armed = none := by
    cases armed : state.armed with
    | none => rfl
    | some alarm =>
      cases alarm with
      | caller => cases caller armed
      | connectTimeo => cases own armed
  refine ⟨handler, unarmed, fun isSet => ?_, settled, fun alarm handler member => ?_⟩
  · rcases kept isSet with still | gone | ⟨-, exited⟩
    · rw [unarmed] at still
      cases still
    · exact gone
    · rw [returned] at exited
      cases exited
  · obtain ⟨-, failed, errno⟩ := inv.timedOut alarm handler member
    rw [if_neg (by simp [returned])] at errno
    exact ⟨failed, errno⟩

end Steps

/-- The alarm of the caller goes off before that of `connect_timeo` is set, and the latter
interrupts `connect`. -/
theorem connect_timeo_returns_timedOut :
    ∃ state, Run (connectTimeo false 5 true).system
        [.sigalrm .caller .connectTimeo false, .sigalrm .connectTimeo .connectTimeo true] state ∧
      state.n = -1 ∧ state.errno = etimedout := by
  have start : Run (connectTimeo false 5 true).system []
      ⟨.signal, .caller, .caller, some .caller, true, 0, .eintr⟩ :=
    .start ⟨rfl, rfl, rfl, rfl, rfl⟩
  have signal := start.step (.instruction ⟨none, rfl⟩)
  have passes := signal.step (.delivery (.passes rfl (by decide) (.inl (by decide))))
  have alarm := passes.step (.instruction ⟨none, rfl⟩)
  have connect := alarm.step (.instruction ⟨none, rfl⟩)
  have interrupts := connect.step (.delivery (.interrupts rfl rfl rfl))
  have close := interrupts.step (.instruction ⟨none, rfl⟩)
  have test := close.step (.instruction ⟨none, rfl⟩)
  have alarmOff := test.step (.instruction ⟨none, rfl⟩)
  have restore := alarmOff.step (.instruction ⟨none, rfl⟩)
  obtain ⟨-, -, -, -, timedOut⟩ := (connect_timeo_returns restore).2.2 rfl
  exact ⟨_, restore, timedOut _ _ (List.mem_cons_of_mem _ List.mem_cons_self)⟩

end SocketProgram.ConnectTimeo
