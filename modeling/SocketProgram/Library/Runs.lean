/-
This file is the theory of runs. A system starts in some state, having emitted
the events of its start-up, and every step moves to another state and emits
events of its own. A run keeps the whole history next to the state it ends in,
so a property of histories (what was read, what was written, in which order) is
an invariant like any other.

Two rules do the work. The invariant rule is induction over the run, packaged
once. An acceptor is deterministic and partial and reads a history event by event:
that it accepts every history of a system is an invariant of the system, and what
one letter keeps holds of every accepted word.
-/

import Mathlib.Data.List.Basic
import Mathlib.Data.List.Infix
import Mathlib.Order.Basic

namespace Runs

/-- A system: what it can start from, with the events of its start-up, and one step with
the events it emits. -/
structure System (State Event : Type*) where
  start : List Event → State → Prop
  step : State → List Event → State → Prop

variable {State Event : Type*} {system : System State Event}

/-- `Run system history state`: the system can emit `history` and be in `state`. -/
inductive Run (system : System State Event) : List Event → State → Prop
  | start {history : List Event} {state : State} (starts : system.start history state) :
      Run system history state
  | step {history events : List Event} {state next : State} (run : Run system history state)
      (steps : system.step state events next) : Run system (history ++ events) next

/-- A step that emits nothing leaves the history. -/
theorem Run.silent {history : List Event} {state next : State} (run : Run system history state)
    (steps : system.step state [] next) : Run system history next :=
  List.append_nil history ▸ run.step steps

/-- The invariant rule: what holds at the start and is kept by every step of a run holds of
every run. -/
theorem Run.invariant (Inv : List Event → State → Prop)
    (atStart : ∀ history state, system.start history state → Inv history state)
    (preserved : ∀ history state events next, Inv history state →
      system.step state events next → Inv (history ++ events) next)
    {history : List Event} {state : State} (run : Run system history state) :
    Inv history state := by
  induction run with
  | start starts => exact atStart _ _ starts
  | step _ steps inductionHypothesis => exact preserved _ _ _ _ inductionHypothesis steps

/-- A place in a history that is one event longer is the last one, or a place in the shorter one. -/
theorem place_concat {history before after : List Event} {last event : Event}
    (split : history ++ [last] = before ++ event :: after) :
    history = before ∧ last = event ∧ after = [] ∨
      ∃ earlier, history = before ++ event :: earlier := by
  rcases List.eq_nil_or_concat' after with rfl | ⟨earlier, last', rfl⟩
  · obtain ⟨same, same'⟩ := List.append_inj' split rfl
    exact .inl ⟨same, (List.cons.inj same').1, rfl⟩
  · rw [← List.cons_append, ← List.append_assoc] at split
    exact .inr ⟨earlier, (List.append_inj' split rfl).1⟩

/-- Where a step emits no more than one event, an event in the middle of a history is that of a step
after the run that has the history before it. -/
theorem Run.before_event (atStart : ∀ history state, system.start history state → history = [])
    (single : ∀ state events next, system.step state events next → events.length ≤ 1)
    {before after : List Event} {event : Event} {final : State}
    (run : Run system (before ++ event :: after) final) :
    ∃ state next, Run system before state ∧ system.step state [event] next := by
  generalize whole : before ++ event :: after = history at run
  induction run generalizing after with
  | start starts =>
    rw [atStart _ _ starts] at whole
    simp at whole
  | @step history events state next run steps inductionHypothesis =>
    rcases events with _ | ⟨emitted, more⟩
    · rw [List.append_nil] at whole
      exact inductionHypothesis whole
    · have none : more = [] := by
        have few := single _ _ _ steps
        rw [List.length_cons] at few
        exact List.eq_nil_of_length_eq_zero (by omega)
      subst none
      rcases place_concat whole.symm with ⟨rfl, rfl, -⟩ | ⟨earlier, front⟩
      · exact ⟨state, next, run, steps⟩
      · exact inductionHypothesis front.symm

/-- The rule for what follows an event. If a step that emits the event of a value leaves the
system where something holds of the value, every step from there on keeps that and emits only
events that suit the value, then this is so of everything behind the event in a history. -/
theorem Run.since {Value : Type*} {mark : Value → Event} {Holds : Value → State → Prop}
    {Suits : Value → Event → Prop}
    (atStart : ∀ history state, system.start history state → ∀ value, mark value ∉ history)
    (marks : ∀ value state events next, system.step state events next → mark value ∈ events →
      events = [mark value] ∧ Holds value next)
    (keeps : ∀ value state events next, system.step state events next → Holds value state →
      Holds value next ∧ ∀ event ∈ events, Suits value event)
    {history : List Event} {state : State} (run : Run system history state) :
    ∀ before value after, history = before ++ mark value :: after →
      Holds value state ∧ ∀ event ∈ after, Suits value event := by
  induction run with
  | @start history state starts =>
    intro before value after split
    refine absurd ?_ (atStart history state starts value)
    rw [split]
    exact List.mem_append_right _ List.mem_cons_self
  | @step history events state next run steps inductionHypothesis =>
    intro before value after split
    rcases List.append_eq_append_iff.mp split with ⟨more, rfl, tail⟩ | ⟨more, earlier, rest⟩
    · have member : mark value ∈ events := by
        rw [tail]
        exact List.mem_append_right _ List.mem_cons_self
      obtain ⟨single, holds⟩ := marks value state events next steps member
      rw [single] at tail
      have none : after = [] := by
        have lengths := congrArg List.length tail
        rw [List.length_append, List.length_singleton, List.length_cons] at lengths
        exact List.eq_nil_of_length_eq_zero (by omega)
      subst none
      exact ⟨holds, fun event member => absurd member List.not_mem_nil⟩
    · cases more with
      | nil =>
        rw [List.nil_append] at rest
        have member : mark value ∈ events := by
          rw [← rest]
          exact List.mem_cons_self
        obtain ⟨single, holds⟩ := marks value state events next steps member
        rw [single] at rest
        obtain ⟨-, rfl⟩ := List.cons.inj rest
        exact ⟨holds, fun event member => absurd member List.not_mem_nil⟩
      | cons first more =>
        obtain ⟨rfl, rfl⟩ := List.cons.inj rest
        obtain ⟨holds, suits⟩ := inductionHypothesis before value more earlier
        obtain ⟨holds', suits'⟩ := keeps value state events next steps holds
        exact ⟨holds', List.forall_mem_append.mpr ⟨suits, suits'⟩⟩

/-- The runs of a system whose steps all meet a condition. -/
def System.restrict (system : System State Event) (meets : State → State → Prop) :
    System State Event where
  start := system.start
  step state events next := system.step state events next ∧ meets state next

theorem Run.of_restrict {meets : State → State → Prop} {history : List Event} {state : State}
    (run : Run (system.restrict meets) history state) : Run system history state := by
  induction run with
  | start starts => exact .start starts
  | step _ steps inductionHypothesis => exact .step inductionHypothesis steps.1

/-- Every step of a run is one from a state that a run ends in. -/
theorem Run.reachable {history : List Event} {state : State} (run : Run system history state) :
    Run (system.restrict fun state _ => ∃ earlier, Run system earlier state) history state := by
  induction run with
  | start starts => exact .start starts
  | step run steps inductionHypothesis => exact .step inductionHypothesis ⟨steps, _, run⟩

/-- The system from this state on. -/
def System.startedFrom (system : System State Event) (state : State) : System State Event where
  start history first := history = [] ∧ first = state
  step := system.step

/-- A run goes on from the state it ends in. -/
theorem Run.append {before after : List Event} {middle state : State}
    (run : Run system before middle) (more : Run (system.startedFrom middle) after state) :
    Run system (before ++ after) state := by
  induction more with
  | start starts =>
    obtain ⟨rfl, rfl⟩ := starts
    rw [List.append_nil]
    exact run
  | step _ steps inductionHypothesis =>
    rw [← List.append_assoc]
    exact .step inductionHypothesis steps

/-- The rule for simulations: if an abstraction matches every step with a step that shows the same,
or with none where there is nothing to show, a run of the one system is a run of the other. -/
theorem Run.simulates {State' Event' : Type*} {abstract : System State' Event'}
    (abstraction : State → State') (shows : Event → Option Event')
    (atStart : ∀ history state, system.start history state →
      abstract.start (history.filterMap shows) (abstraction state))
    (matched : ∀ history state events next, Run system history state →
      system.step state events next →
      events.filterMap shows = [] ∧ abstraction next = abstraction state ∨
        abstract.step (abstraction state) (events.filterMap shows) (abstraction next))
    {history : List Event} {state : State} (run : Run system history state) :
    Run abstract (history.filterMap shows) (abstraction state) := by
  induction run with
  | start starts => exact .start (atStart _ _ starts)
  | step run steps inductionHypothesis =>
    rw [List.filterMap_append]
    rcases matched _ _ _ _ run steps with ⟨nothing, same⟩ | steps'
    · rw [nothing, same, List.append_nil]
      exact inductionHypothesis
    · exact inductionHypothesis.step steps'

/-- The runs in which a property holds at every moment. -/
inductive Always (system : System State Event) (Property : List Event → State → Prop) :
    List Event → State → Prop
  | start {history : List Event} {state : State} (starts : system.start history state)
      (holds : Property history state) : Always system Property history state
  | step {history events : List Event} {state next : State}
      (always : Always system Property history state) (steps : system.step state events next)
      (holds : Property (history ++ events) next) :
      Always system Property (history ++ events) next

theorem Always.run {Property : List Event → State → Prop} {history : List Event} {state : State}
    (always : Always system Property history state) : Run system history state := by
  induction always with
  | start starts holds => exact .start starts
  | step always steps holds inductionHypothesis => exact .step inductionHypothesis steps

theorem Always.property {Property : List Event → State → Prop} {history : List Event}
    {state : State} (always : Always system Property history state) :
    Property history state := by
  cases always with
  | start starts holds => exact holds
  | step always steps holds => exact holds

/-- The rule for a property that holds at every moment of a run just if its history meets a
condition: on what holds of every run, and as long as the condition is met, the step decides the
two together. -/
theorem always_iff_meets {Property : List Event → State → Prop} (Meets : List Event → Prop)
    (Inv : List Event → State → Prop)
    (atStart : ∀ history state, system.start history state →
      Inv history state ∧ Property history state ∧ Meets history)
    (preserved : ∀ history state events next, Inv history state →
      system.step state events next → Inv (history ++ events) next)
    (decides : ∀ history state events next, Inv history state → Property history state →
      Meets history → system.step state events next →
      (Property (history ++ events) next ↔ Meets (history ++ events)))
    (front : ∀ history events, Meets (history ++ events) → Meets history)
    {history : List Event} {state : State} :
    Always system Property history state ↔ Run system history state ∧ Meets history := by
  have holds : ∀ {history state}, Run system history state → Inv history state := fun run =>
    run.invariant Inv (fun history state starts => (atStart history state starts).1) preserved
  constructor
  · intro always
    refine ⟨always.run, ?_⟩
    induction always with
    | start starts _ => exact (atStart _ _ starts).2.2
    | step always steps property inductionHypothesis =>
      have property' := always.property
      exact (decides _ _ _ _ (holds always.run) property' inductionHypothesis steps).mp property
  · rintro ⟨run, meets⟩
    induction run with
    | start starts => exact .start starts (atStart _ _ starts).2.1
    | step run steps inductionHypothesis =>
      have always := inductionHypothesis (front _ _ meets)
      exact .step always steps
        ((decides _ _ _ _ (holds run) always.property (front _ _ meets) steps).mpr meets)

/-! ### Acceptors -/

section Acceptor

variable {Letter Monitor : Type*} (accept : Monitor → Letter → Option Monitor)

/-- The acceptor's state after a word, if it accepts the word. -/
def accepts : Monitor → List Letter → Option Monitor
  | monitor, [] => some monitor
  | monitor, letter :: word => (accept monitor letter).bind fun next => accepts next word

@[simp]
theorem accepts_nil (monitor : Monitor) : accepts accept monitor [] = some monitor := rfl

theorem accepts_cons (monitor : Monitor) (letter : Letter) (word : List Letter) :
    accepts accept monitor (letter :: word) =
      (accept monitor letter).bind fun next => accepts accept next word := rfl

@[simp]
theorem accepts_singleton (monitor : Monitor) (letter : Letter) :
    accepts accept monitor [letter] = accept monitor letter := by
  rw [accepts_cons]
  exact Option.bind_fun_some _

theorem accepts_append (monitor : Monitor) (first second : List Letter) :
    accepts accept monitor (first ++ second) =
      (accepts accept monitor first).bind fun next => accepts accept next second := by
  induction first generalizing monitor with
  | nil => rfl
  | cons letter first inductionHypothesis =>
    rw [List.cons_append, accepts_cons, accepts_cons, Option.bind_assoc]
    exact congrArg _ (funext fun next => inductionHypothesis next)

/-- An accepted word splits at any point into an accepted word and one accepted from where
the first ends. -/
theorem accepts_append_eq_some {monitor final : Monitor} {first second : List Letter}
    (accepted : accepts accept monitor (first ++ second) = some final) :
    ∃ middle, accepts accept monitor first = some middle ∧
      accepts accept middle second = some final := by
  rw [accepts_append] at accepted
  exact Option.bind_eq_some_iff.mp accepted

/-- Induction along an accepted word: a relation between the word read so far and the
acceptor's state that one letter keeps holds of every accepted word. -/
theorem accepts_invariant (Inv : List Letter → Monitor → Prop) {monitor : Monitor}
    (atStart : Inv [] monitor)
    (preserved : ∀ word state letter next, Inv word state → accept state letter = some next →
      Inv (word ++ [letter]) next)
    {word : List Letter} {final : Monitor} (accepted : accepts accept monitor word = some final) :
    Inv word final := by
  induction word using List.reverseRecOn generalizing final with
  | nil => exact Option.some.inj accepted ▸ atStart
  | append_singleton word letter inductionHypothesis =>
    obtain ⟨middle, before, last⟩ := accepts_append_eq_some accept accepted
    rw [accepts_singleton] at last
    exact preserved word middle letter final (inductionHypothesis before) last

end Acceptor

end Runs
