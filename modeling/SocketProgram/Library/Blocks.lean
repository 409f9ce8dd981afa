/-
This file is about blocks that emit events and may return early. A block ends by going
on with a state or by returning a final one; a block after another is run only when
the other goes on, and its events come after.

The rule of the file is the one for sequences: what the first block establishes when it
goes on is what the second starts from, and both keep to the same condition when
they return. Conditions speak of the whole history, the events of the block included.
-/

import Mathlib.Data.List.Basic

namespace Blocks

variable {Event State Final : Type*}

/-- How a block ends, with the events it has emitted. -/
inductive Flow (Event State Final : Type*)
  | next (events : List Event) (state : State)
  | ret (events : List Event) (final : Final)

namespace Flow

/-- A block after another. -/
def andThen (flow : Flow Event State Final) (block : State → Flow Event State Final) :
    Flow Event State Final :=
  match flow with
  | .ret events final => .ret events final
  | .next events state =>
    match block state with
    | .next more state => .next (events ++ more) state
    | .ret more final => .ret (events ++ more) final

/-- The events of a block. -/
def events : Flow Event State Final → List Event
  | .next events _ | .ret events _ => events

/-- After this history, a block ends under one condition when it goes on and under another
when it returns. -/
def Ends (goesOn : List Event → State → Prop) (returns : List Event → Final → Prop)
    (history : List Event) : Flow Event State Final → Prop
  | .next events state => goesOn (history ++ events) state
  | .ret events final => returns (history ++ events) final

variable {goesOn goesOn' between : List Event → State → Prop}
  {returns returns' : List Event → Final → Prop} {history : List Event}
  {flow : Flow Event State Final} {block : State → Flow Event State Final}

/-- The rule for sequences. -/
theorem Ends.andThen (first : flow.Ends between returns history)
    (second : ∀ history state, between history state →
      (block state).Ends goesOn returns history) :
    (flow.andThen block).Ends goesOn returns history := by
  cases flow with
  | ret events final => exact first
  | next events state =>
    have ends := second _ state first
    rw [Flow.andThen]
    cases same : block state with
    | next more next =>
      rw [same, Ends, List.append_assoc] at ends
      exact ends
    | ret more final =>
      rw [same, Ends, List.append_assoc] at ends
      exact ends

theorem Ends.and (first : flow.Ends goesOn returns history)
    (second : flow.Ends goesOn' returns' history) :
    flow.Ends (fun history state => goesOn history state ∧ goesOn' history state)
      (fun history final => returns history final ∧ returns' history final) history := by
  cases flow with
  | next events state => exact ⟨first, second⟩
  | ret events final => exact ⟨first, second⟩

theorem Ends.imp (ends : flow.Ends goesOn returns history)
    (weaker : ∀ history state, goesOn history state → goesOn' history state)
    (weaker' : ∀ history final, returns history final → returns' history final) :
    flow.Ends goesOn' returns' history := by
  cases flow with
  | next events state => exact weaker _ _ ends
  | ret events final => exact weaker' _ _ ends

end Flow

end Blocks
