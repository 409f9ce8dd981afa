/-
This file is about systems that get somewhere. Some of the events of a system are work, others,
like an interrupted call that is made again, are not. If a number that belongs to the states goes
down by at least one with every piece of work, and never up, then no run can work more often than
that number says at its start. If besides there is work to do in every state that is not a goal,
every run can be continued to a goal.
-/

import SocketProgram.Library.Runs

namespace Runs

section Progress

variable {State Event : Type*} {system : System State Event} {works : Event → Bool}
  {rank : State → Nat} {history : List Event} {state : State}

/-- Every piece of work takes at least one off the rank. -/
def Spends (system : System State Event) (works : Event → Bool) (rank : State → Nat) : Prop :=
  ∀ history state events next, Run system history state → system.step state events next →
    rank next + events.countP works ≤ rank state

/-- No run works more often than its rank was at the start. -/
theorem Run.countP_works_le (spends : Spends system works rank) (bound : Nat)
    (initially : ∀ history state, system.start history state →
      rank state + history.countP works ≤ bound)
    (run : Run system history state) : rank state + history.countP works ≤ bound := by
  induction run with
  | start starts => exact initially _ _ starts
  | @step history events state next run steps inductionHypothesis =>
    have spent := spends history state events next run steps
    rw [List.countP_append]
    omega

/-- Where there is work to do in every state that is not a goal, every run can be continued to a
goal. -/
theorem Run.reaches (spends : Spends system works rank) {Goal : State → Prop}
    (work : ∀ history state, Run system history state → ¬ Goal state →
      ∃ events next, system.step state events next ∧ 0 < events.countP works)
    (run : Run system history state) :
    ∃ more final, Run system (history ++ more) final ∧ Goal final := by
  induction size : rank state using Nat.strong_induction_on generalizing history state with
  | _ _ inductionHypothesis =>
  by_cases goal : Goal state
  · exact ⟨[], state, (List.append_nil history).symm ▸ run, goal⟩
  · obtain ⟨events, next, steps, worked⟩ := work history state run goal
    have spent := spends history state events next run steps
    obtain ⟨more, final, run', goal'⟩ :=
      inductionHypothesis (rank next) (by omega) (run.step steps) rfl
    exact ⟨events ++ more, final, (List.append_assoc _ _ _) ▸ run', goal'⟩

end Progress

end Runs
