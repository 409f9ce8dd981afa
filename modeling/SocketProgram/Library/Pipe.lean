/-
This file is the abstract byte pipe: what one direction of a relay is for. Data
is put in at one end and taken out at the other in the order it went in; the
input may end, and once it has ended and everything has been taken the output is
closed, after which nothing more happens.

The pipe is an acceptor of its own event words, so a program is shown to be a
pipe by having the words of its runs accepted. The conservation law (everything
put is what was taken followed by what is still queued) and the closing law
(the close comes once, after the end of input, with nothing queued and nothing
after it) are then facts about accepted words.
-/

import SocketProgram.Library.Runs

namespace Pipe

open Runs

variable {Data : Type*}

/-- What happens at the two ends of a pipe. -/
inductive Event (Data : Type*)
  | put (data : List Data)
  | take (data : List Data)
  | ended
  | close
  deriving DecidableEq, Repr

/-- The queued data, whether the input has ended, and whether the output is closed. -/
structure State (Data : Type*) where
  queue : List Data
  ended : Bool
  closed : Bool
  deriving DecidableEq, Repr

/-- The empty open pipe. -/
def State.empty : State Data := ⟨[], false, false⟩

/-- What goes through the pipe of a program whose calls are seen by it as words is read off call by
call. -/
theorem flatMap_letters {Call : Type*} {letters : Call → List (Event Data)}
    {part : Event Data → List Data} {bytes : Call → List Data}
    (each : ∀ call, (letters call).flatMap part = bytes call) (history : List Call) :
    (history.flatMap letters).flatMap part = history.flatMap bytes := by
  rw [List.flatMap_assoc]
  exact congrArg history.flatMap (funext each)

variable [DecidableEq Data]

/-- One event of the pipe, when the pipe allows it. -/
def accept (pipe : State Data) : Event Data → Option (State Data)
  | .put data =>
    if pipe.ended then none else some { pipe with queue := pipe.queue ++ data }
  | .take data =>
    if pipe.closed = false ∧ data <+: pipe.queue then
      some { pipe with queue := pipe.queue.drop data.length }
    else none
  | .ended => if pipe.ended then none else some { pipe with ended := true }
  | .close =>
    if pipe.ended = true ∧ pipe.queue = [] ∧ pipe.closed = false then
      some { pipe with closed := true }
    else none

/-! ### What each event asks for and does -/

theorem accept_put (pipe : State Data) (data : List Data) (notEnded : pipe.ended = false) :
    accept pipe (.put data) = some { pipe with queue := pipe.queue ++ data } := by
  rw [accept, notEnded, if_neg Bool.false_ne_true]

theorem accept_take (pipe : State Data) (data : List Data) (notClosed : pipe.closed = false)
    (isPrefix : data <+: pipe.queue) :
    accept pipe (.take data) = some { pipe with queue := pipe.queue.drop data.length } := by
  rw [accept, if_pos ⟨notClosed, isPrefix⟩]

/-- Taking the front of the queue. -/
theorem accept_take_front (queue : List Data) (ended : Bool) {count : Nat}
    (fits : count ≤ queue.length) :
    accept ⟨queue, ended, false⟩ (.take (queue.take count)) =
      some ⟨queue.drop count, ended, false⟩ := by
  rw [accept_take _ _ rfl (List.take_prefix _ _), List.length_take, Nat.min_eq_left fits]

theorem accept_ended (pipe : State Data) (notEnded : pipe.ended = false) :
    accept pipe .ended = some { pipe with ended := true } := by
  rw [accept, notEnded, if_neg Bool.false_ne_true]

theorem accept_close (pipe : State Data) (ended : pipe.ended = true) (empty : pipe.queue = [])
    (notClosed : pipe.closed = false) :
    accept pipe .close = some { pipe with closed := true } := by
  rw [accept, if_pos ⟨ended, empty, notClosed⟩]

theorem of_accept_put {pipe next : State Data} {data : List Data}
    (accepted : accept pipe (.put data) = some next) :
    pipe.ended = false ∧ next = { pipe with queue := pipe.queue ++ data } := by
  simp only [accept, Option.ite_none_left_eq_some, Option.some.injEq, Bool.not_eq_true] at accepted
  exact ⟨accepted.1, accepted.2.symm⟩

theorem of_accept_take {pipe next : State Data} {data : List Data}
    (accepted : accept pipe (.take data) = some next) :
    pipe.closed = false ∧ data <+: pipe.queue ∧
      next = { pipe with queue := pipe.queue.drop data.length } := by
  simp only [accept, Option.ite_none_right_eq_some, Option.some.injEq] at accepted
  exact ⟨accepted.1.1, accepted.1.2, accepted.2.symm⟩

theorem of_accept_ended {pipe next : State Data} (accepted : accept pipe .ended = some next) :
    pipe.ended = false ∧ next = { pipe with ended := true } := by
  simp only [accept, Option.ite_none_left_eq_some, Option.some.injEq, Bool.not_eq_true] at accepted
  exact ⟨accepted.1, accepted.2.symm⟩

theorem of_accept_close {pipe next : State Data} (accepted : accept pipe .close = some next) :
    pipe.ended = true ∧ pipe.queue = [] ∧ pipe.closed = false ∧
      next = { pipe with closed := true } := by
  simp only [accept, Option.ite_none_right_eq_some, Option.some.injEq] at accepted
  exact ⟨accepted.1.1, accepted.1.2.1, accepted.1.2.2, accepted.2.symm⟩

/-! ### Conservation -/

/-- The data an event puts in. -/
def Event.entered : Event Data → List Data
  | .put data => data
  | _ => []

/-- The data an event takes out. -/
def Event.left : Event Data → List Data
  | .take data => data
  | _ => []

theorem conserved_step {pipe next : State Data} {event : Event Data} {entered left : List Data}
    (before : entered = left ++ pipe.queue) (accepted : accept pipe event = some next) :
    entered ++ event.entered = left ++ event.left ++ next.queue := by
  cases event with
  | put data =>
    obtain ⟨_, rfl⟩ := of_accept_put accepted
    simp [Event.entered, Event.left, before]
  | take data =>
    obtain ⟨_, ⟨rest, split⟩, rfl⟩ := of_accept_take accepted
    simp [Event.entered, Event.left, before, ← split]
  | ended =>
    obtain ⟨_, rfl⟩ := of_accept_ended accepted
    simp [Event.entered, Event.left, before]
  | close =>
    obtain ⟨_, _, _, rfl⟩ := of_accept_close accepted
    simp [Event.entered, Event.left, before]

/-- The conservation law: what was put in is what was taken out followed by the queue. -/
theorem conserved {word : List (Event Data)} {pipe : State Data}
    (accepted : accepts accept State.empty word = some pipe) :
    word.flatMap Event.entered = word.flatMap Event.left ++ pipe.queue := by
  refine accepts_invariant accept
    (fun word pipe => word.flatMap Event.entered = word.flatMap Event.left ++ pipe.queue)
    rfl ?_ accepted
  intro word state letter next before step
  simp only [List.flatMap_append, List.flatMap_singleton]
  exact conserved_step before step

/-! ### Closing -/

/-- A pipe that is closed saw the end of its input and is empty. -/
def Closing (pipe : State Data) : Prop :=
  pipe.closed = true → pipe.ended = true ∧ pipe.queue = []

/-- A closed pipe allows no further event. -/
theorem accept_closed (pipe : State Data) (closing : Closing pipe) (closed : pipe.closed = true)
    (event : Event Data) : accept pipe event = none := by
  cases event with
  | put data => rw [accept, (closing closed).1, if_pos rfl]
  | take data => simp [accept, closed]
  | ended => rw [accept, (closing closed).1, if_pos rfl]
  | close => simp [accept, closed]

/-- The end of the input is in the word exactly when the pipe has ended. -/
theorem ended_iff_mem {word : List (Event Data)} {pipe : State Data}
    (accepted : accepts accept State.empty word = some pipe) :
    pipe.ended = true ↔ Event.ended ∈ word := by
  refine accepts_invariant accept (fun word pipe => pipe.ended = true ↔ Event.ended ∈ word)
    (by simp [State.empty]) ?_ accepted
  intro word state letter next before step
  rw [List.mem_append, List.mem_singleton, ← before]
  cases letter with
  | put data =>
    obtain ⟨_, rfl⟩ := of_accept_put step
    simp
  | take data =>
    obtain ⟨_, _, rfl⟩ := of_accept_take step
    simp
  | ended =>
    obtain ⟨_, rfl⟩ := of_accept_ended step
    simp
  | close =>
    obtain ⟨_, _, _, rfl⟩ := of_accept_close step
    simp

/-- A pipe that is closed has seen a close. -/
theorem close_mem_of_accepts {word : List (Event Data)} {pipe : State Data}
    (accepted : accepts accept State.empty word = some pipe) (closed : pipe.closed = true) :
    Event.close ∈ word := by
  refine accepts_invariant accept (fun word pipe => pipe.closed = true → Event.close ∈ word)
    (fun closed => absurd closed Bool.false_ne_true) ?_ accepted closed
  intro word state letter next before step closed
  rw [List.mem_append, List.mem_singleton]
  cases letter with
  | put data =>
    obtain ⟨_, rfl⟩ := of_accept_put step
    exact Or.inl (before closed)
  | take data =>
    obtain ⟨_, _, rfl⟩ := of_accept_take step
    exact Or.inl (before closed)
  | ended =>
    obtain ⟨_, rfl⟩ := of_accept_ended step
    exact Or.inl (before closed)
  | close => exact Or.inr rfl

/-- The closing law: whenever a word with a close in it is accepted, the end of the input
came before the close, everything put in had been taken out by then, and the close is the
last event. -/
theorem close_last {before after : List (Event Data)} {pipe : State Data}
    (accepted : accepts accept State.empty (before ++ Event.close :: after) = some pipe) :
    Event.ended ∈ before ∧ before.flatMap Event.entered = before.flatMap Event.left ∧
      after = [] := by
  obtain ⟨middle, accepted, rest⟩ := accepts_append_eq_some accept accepted
  rw [accepts_cons] at rest
  obtain ⟨closed, step, rest⟩ := Option.bind_eq_some_iff.mp rest
  obtain ⟨ended, empty, _, rfl⟩ := of_accept_close step
  refine ⟨(ended_iff_mem accepted).mp ended, ?_, ?_⟩
  · rw [conserved accepted, empty, List.append_nil]
  · cases after with
    | nil => rfl
    | cons event after =>
      have stuck : accept { middle with closed := true } event = none :=
        accept_closed { middle with closed := true } (fun _ => ⟨ended, empty⟩) rfl event
      rw [accepts_cons, stuck] at rest
      cases rest

/-- The closing law for a program whose calls are seen by the pipe as words. -/
theorem close_last_flatMap {Call : Type*} (letters : Call → List (Event Data)) {shutdown : Call}
    (closes : letters shutdown = [.close]) {before after : List Call} {pipe : State Data}
    (accepted : accepts accept State.empty ((before ++ shutdown :: after).flatMap letters) =
      some pipe) :
    Event.ended ∈ before.flatMap letters ∧
      (before.flatMap letters).flatMap Event.entered =
        (before.flatMap letters).flatMap Event.left ∧
      ∀ call ∈ after, letters call = [] := by
  rw [List.flatMap_append, List.flatMap_cons, closes] at accepted
  obtain ⟨ended, drained, nothing⟩ := close_last accepted
  exact ⟨ended, drained, List.flatMap_eq_nil_iff.mp nothing⟩

/-- A program closes its pipe no more than once. -/
theorem count_close_le_one {Call : Type*} [DecidableEq Call] (letters : Call → List (Event Data))
    {shutdown : Call} (closes : letters shutdown = [.close]) {history : List Call}
    {pipe : State Data}
    (accepted : accepts accept State.empty (history.flatMap letters) = some pipe) :
    history.count shutdown ≤ 1 := by
  by_cases called : shutdown ∈ history
  · obtain ⟨before, after, rfl, first⟩ := List.eq_append_cons_of_mem called
    have unseen := (close_last_flatMap letters closes accepted).2.2
    have second : shutdown ∉ after := fun member => by
      have nothing := unseen shutdown member
      rw [closes] at nothing
      cases nothing
    rw [List.count_append, List.count_cons_self, List.count_eq_zero.mpr first,
      List.count_eq_zero.mpr second]
  · rw [List.count_eq_zero.mpr called]
    exact Nat.zero_le 1

end Pipe
