/-
This file is the theory of a process that signals interrupt. The process executes one
instruction at a time; between two of them a pending signal may be delivered, and the
world outside may do something of its own. A handler that runs to its end at once is a
delivery; one that is itself interrupted leaves a mark of its own in the state and goes
on as instructions.

What each of the three keeps holds in every run, however they are interleaved.
-/

import SocketProgram.Library.Runs

namespace Runs

/-- A process: where it begins, what one of its instructions does, what the delivery of a
signal does, and what may happen outside it. -/
structure Process (State Event : Type*) where
  begins : State → Prop
  instruction : State → List Event → State → Prop
  delivery : State → List Event → State → Prop
  outside : State → List Event → State → Prop

variable {State Event : Type*}

/-- One step of a process and of what is around it. -/
inductive Process.Step (process : Process State Event) :
    State → List Event → State → Prop
  | instruction {state next : State} {events : List Event}
      (executes : process.instruction state events next) : Step process state events next
  | delivery {state next : State} {events : List Event}
      (delivers : process.delivery state events next) : Step process state events next
  | outside {state next : State} {events : List Event}
      (happens : process.outside state events next) : Step process state events next

/-- The runs of a process, signals and the world outside included. -/
def Process.system (process : Process State Event) : System State Event where
  start history state := history = [] ∧ process.begins state
  step := process.Step

/-- The rule for interrupted processes: what holds at the beginning and is kept by every
instruction, by every delivery and by the world outside holds in every run. -/
theorem Process.invariant {process : Process State Event} (Inv : List Event → State → Prop)
    (begins : ∀ state, process.begins state → Inv [] state)
    (instruction : ∀ history state events next, Inv history state →
      process.instruction state events next → Inv (history ++ events) next)
    (delivery : ∀ history state events next, Inv history state →
      process.delivery state events next → Inv (history ++ events) next)
    (outside : ∀ history state events next, Inv history state →
      process.outside state events next → Inv (history ++ events) next)
    {history : List Event} {state : State} (run : Run process.system history state) :
    Inv history state := by
  refine run.invariant Inv ?_ ?_
  · rintro history state ⟨rfl, began⟩
    exact begins state began
  · intro history state events next inv steps
    cases steps with
    | instruction executes => exact instruction history state events next inv executes
    | delivery delivers => exact delivery history state events next inv delivers
    | outside happens => exact outside history state events next inv happens

end Runs
