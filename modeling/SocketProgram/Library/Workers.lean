/-
This file is about systems that start workers and give each of them a resource. The
history of such a system says who has been started with what, and who has made which
call on what.

A worker is a part of the system: whatever the others do in between, its own calls are
a run of its own program. If besides no resource is given away twice and every worker
calls on no other resource than its own, then all the calls on a resource are those of
one worker, and a run of one program.
-/

import Mathlib.Logic.Function.Basic
import SocketProgram.Library.Runs

namespace Workers

open Runs

/-- What is seen of the workers: one is started, one makes a call. `none` is a worker that was
started without a resource. -/
inductive Event (Resource Call Other : Type*)
  | started (worker : Nat) (resource : Option Resource)
  | call (worker : Nat) (resource : Option Resource) (call : Call)
  | other (event : Other)
  deriving DecidableEq, Repr

variable {Resource Call Other Part State : Type*}

namespace Event

/-- The call of the event, if this worker makes it. -/
def callOf (worker : Nat) : Event Resource Call Other → Option Call
  | .call caller _ made => if caller = worker then some made else none
  | _ => none

/-- The call of the event, if it is made on this resource. -/
def callOn [DecidableEq Resource] (resource : Resource) : Event Resource Call Other → Option Call
  | .call _ called made => if called = some resource then some made else none
  | _ => none

end Event

/-- The calls of a worker. -/
def callsOf (worker : Nat) (history : List (Event Resource Call Other)) : List Call :=
  history.filterMap (Event.callOf worker)

/-- The calls on a resource. -/
def callsOn [DecidableEq Resource] (resource : Resource)
    (history : List (Event Resource Call Other)) : List Call :=
  history.filterMap (Event.callOn resource)

/-! ### Every worker has a resource of its own -/

/-- Every worker calls on the resource it was started with, and no resource was given away
twice. -/
structure Assigned (history : List (Event Resource Call Other)) : Prop where
  own : ∀ worker resource call, Event.call worker resource call ∈ history →
    .started worker resource ∈ history
  once : ∀ worker first second, Event.started worker first ∈ history →
    .started worker second ∈ history → first = second
  unique : ∀ first second resource, Event.started first (some resource) ∈ history →
    .started second (some resource) ∈ history → first = second

section Assigned

variable {history : List (Event Resource Call Other)} {worker : Nat}

theorem assigned_nil : Assigned ([] : List (Event Resource Call Other)) :=
  ⟨fun _ _ _ member => absurd member List.not_mem_nil,
    fun _ _ _ member => absurd member List.not_mem_nil,
    fun _ _ _ member => absurd member List.not_mem_nil⟩

/-- What is in a history that is one event longer. -/
theorem mem_concat {Item : Type*} {items : List Item} {item last : Item} :
    item ∈ items ++ [last] ↔ item ∈ items ∨ item = last := by
  rw [List.mem_append, List.mem_singleton]

theorem Assigned.other (assigned : Assigned history) (event : Other) :
    Assigned (history ++ [.other event]) := by
  refine ⟨fun worker resource call member => ?_, fun worker first second member member' => ?_,
    fun first second resource member member' => ?_⟩ <;>
    simp only [mem_concat, reduceCtorEq, or_false] at *
  · exact assigned.own _ _ _ member
  · exact assigned.once _ _ _ member member'
  · exact assigned.unique _ _ _ member member'

theorem Assigned.call (assigned : Assigned history) {resource : Option Resource}
    (started : .started worker resource ∈ history) (call : Call) :
    Assigned (history ++ [.call worker resource call]) := by
  refine ⟨fun caller called call' member => ?_, fun worker first second member member' => ?_,
    fun first second resource member member' => ?_⟩ <;>
    simp only [mem_concat, reduceCtorEq, or_false, Event.call.injEq] at *
  · rcases member with member | ⟨rfl, rfl, -⟩
    · exact assigned.own _ _ _ member
    · exact started
  · exact assigned.once _ _ _ member member'
  · exact assigned.unique _ _ _ member member'

/-- A new worker is started with a resource that nobody has got. -/
theorem Assigned.started (assigned : Assigned history)
    (new : ∀ resource, .started worker resource ∉ history) {resource : Option Resource}
    (fresh : ∀ given, resource = some given → ∀ other, .started other (some given) ∉ history) :
    Assigned (history ++ [.started worker resource]) := by
  refine ⟨fun caller called call member => ?_, fun other first second member member' => ?_,
    fun first second given member member' => ?_⟩ <;>
    simp only [mem_concat, reduceCtorEq, or_false, Event.started.injEq] at *
  · exact .inl (assigned.own _ _ _ member)
  · rcases member with member | ⟨rfl, rfl⟩ <;> rcases member' with member' | ⟨same, rfl⟩
    · exact assigned.once _ _ _ member member'
    · exact absurd (same ▸ member) (new _)
    · exact absurd member' (new _)
    · rfl
  · rcases member with member | ⟨rfl, given'⟩ <;> rcases member' with member' | ⟨rfl, given''⟩
    · exact assigned.unique _ _ _ member member'
    · exact absurd member (fresh _ given''.symm _)
    · exact absurd member' (fresh _ given'.symm _)
    · rfl

variable [DecidableEq Resource]

/-- The calls on a resource are those of the worker that has it. -/
theorem Assigned.callsOn_eq (assigned : Assigned history) {resource : Resource}
    (started : .started worker (some resource) ∈ history) :
    callsOn resource history = callsOf worker history := by
  refine List.filterMap_congr fun event member => ?_
  cases event with
  | started _ _ => rfl
  | other _ => rfl
  | call caller called call =>
    have given := assigned.own _ _ _ member
    have same : called = some resource ↔ caller = worker := by
      constructor
      · rintro rfl
        exact assigned.unique _ _ _ given started
      · rintro rfl
        exact assigned.once _ _ _ given started
    simp only [Event.callOn, Event.callOf, same]

theorem Assigned.callsOn_eq_nil (assigned : Assigned history) {resource : Resource}
    (none : ∀ worker, .started worker (some resource) ∉ history) :
    callsOn resource history = [] := by
  refine List.filterMap_eq_nil_iff.mpr fun event member => ?_
  cases event with
  | started _ _ => rfl
  | other _ => rfl
  | call caller called call =>
    refine if_neg ?_
    rintro rfl
    exact none caller (assigned.own _ _ _ member)

end Assigned

/-! ### Workers in a list -/

section Places

variable {Item : Type*} (project : Item → Part) {items : List Item}

/-- What stands at each place of a list. -/
def placed (items : List Item) : Nat → Option Part := fun place => items[place]?.map project

theorem placed_concat (new : Item) :
    placed project (items ++ [new]) =
      Function.update (placed project items) items.length (some (project new)) := by
  funext place
  rcases Nat.lt_trichotomy place items.length with before | rfl | behind
  · rw [Function.update_of_ne (Nat.ne_of_lt before), placed, List.getElem?_append_left before,
      placed]
  · rw [Function.update_self, placed, List.getElem?_concat_length]
    rfl
  · rw [Function.update_of_ne (Nat.ne_of_gt behind), placed, placed,
      List.getElem?_eq_none (by rw [List.length_append, List.length_singleton]; omega),
      List.getElem?_eq_none (Nat.le_of_lt behind)]

theorem placed_set {place : Nat} {old : Item} (there : items[place]? = some old) (new : Item) :
    placed project (items.set place new) =
      Function.update (placed project items) place (some (project new)) := by
  obtain ⟨inside, -⟩ := List.getElem?_eq_some_iff.mp there
  funext other
  by_cases same : other = place
  · rw [same, Function.update_self, placed, List.getElem?_set_self inside]
    rfl
  · rw [Function.update_of_ne same, placed, List.getElem?_set_ne (Ne.symm same), placed]

theorem placed_set_same {place : Nat} {old new : Item} (there : items[place]? = some old)
    (same : project new = project old) : placed project (items.set place new) =
      placed project items := by
  rw [placed_set project there, same]
  refine Function.update_eq_self_iff.mpr ?_
  rw [placed, there]
  rfl

/-- What stands at a place is between what is before it and what is behind it. -/
theorem exists_split {place : Nat} {old : Item} (there : items[place]? = some old) :
    ∃ before after, items = before ++ old :: after ∧
      ∀ new, items.set place new = before ++ new :: after := by
  obtain ⟨inside, rfl⟩ := List.getElem?_eq_some_iff.mp there
  refine ⟨items.take place, items.drop (place + 1), ?_, fun new => ?_⟩
  · rw [← List.drop_eq_getElem_cons inside, List.take_append_drop]
  · exact List.set_eq_take_append_cons_drop.trans (if_pos inside)

end Places

/-! ### Every worker runs its own program -/

/-- What one step does to the workers, each of them a part that is there or not: nothing, or it
starts one, or lets one make a call. -/
inductive Moves (part : System Part Call) :
    (Nat → Option Part) → List (Event Resource Call Other) → (Nat → Option Part) → Prop
  | quiet {parts : Nat → Option Part} : Moves part parts [] parts
  | other {parts : Nat → Option Part} (event : Other) : Moves part parts [.other event] parts
  | started {parts : Nat → Option Part} {worker : Nat} {resource : Option Resource} {first : Part}
      (new : parts worker = none) (starts : part.start [] first) :
      Moves part parts [.started worker resource] (Function.update parts worker (some first))
  | call {parts : Nat → Option Part} {worker : Nat} {resource : Option Resource} {call : Call}
      {here there : Part} (runs : parts worker = some here) (steps : part.step here [call] there) :
      Moves part parts [.call worker resource call] (Function.update parts worker (some there))

/-- The worker's calls are a run of its program, and it has made none before it is there. -/
def Follows (part : System Part Call) (worker : Nat) (history : List (Event Resource Call Other)) :
    Option Part → Prop
  | none => callsOf worker history = []
  | some here => Run part (callsOf worker history) here

section Parts

variable {part : System Part Call} {system : System State (Event Resource Call Other)}
  {history events : List (Event Resource Call Other)}

theorem callsOf_append (worker : Nat) :
    callsOf worker (history ++ events) = callsOf worker history ++ callsOf worker events :=
  List.filterMap_append

theorem Follows.quiet {worker : Nat} {here : Option Part} (runs : Follows part worker history here)
    (none : callsOf worker events = []) : Follows part worker (history ++ events) here := by
  cases here with
  | none => rw [Follows, callsOf_append, runs, none, List.nil_append]
  | some here => rw [Follows, callsOf_append, none, List.append_nil]; exact runs

/-- One step keeps every worker's calls a run of its program. -/
theorem Moves.follows {before after : Nat → Option Part} (moves : Moves part before events after)
    (runs : ∀ worker, Follows part worker history (before worker)) (worker : Nat) :
    Follows part worker (history ++ events) (after worker) := by
  cases moves with
  | quiet => exact (runs worker).quiet rfl
  | other event => exact (runs worker).quiet rfl
  | @started new resource first absent starts =>
    by_cases same : worker = new
    · subst same
      have none := runs worker
      rw [absent, Follows] at none
      rw [Function.update_self, Follows, callsOf_append, none]
      exact .start starts
    · rw [Function.update_of_ne same]
      exact (runs worker).quiet rfl
  | @call caller resource call here there present steps =>
    by_cases same : worker = caller
    · subst same
      have run := runs worker
      rw [present, Follows] at run
      have call' : callsOf worker
          ([.call worker resource call] : List (Event Resource Call Other)) = [call] := by
        simp [callsOf, Event.callOf]
      rw [Function.update_self, Follows, callsOf_append, call']
      exact run.step steps
    · rw [Function.update_of_ne same]
      refine (runs worker).quiet ?_
      simp [callsOf, Event.callOf, Ne.symm same]

/-- The rule for workers: when every step of a system starts one of them, or lets one make a call,
or does neither, each has a run of its own. -/
theorem follows_of_run (part : System Part Call) (view : State → Nat → Option Part)
    (atStart : ∀ history state, system.start history state →
      history = [] ∧ ∀ worker, view state worker = none)
    (moves : ∀ state events next, system.step state events next →
      Moves part (view state) events (view next))
    {state : State} (run : Run system history state) (worker : Nat) :
    Follows part worker history (view state worker) := by
  refine run.invariant
    (fun history state => ∀ worker, Follows part worker history (view state worker)) ?_ ?_ worker
  · intro history state starts worker
    obtain ⟨rfl, none⟩ := atStart history state starts
    rw [none worker]
    rfl
  · intro history state events next follows steps
    exact (moves state events next steps).follows follows

/-- The rule for resources: if each worker has its own, then all the calls on a resource are a run
of one worker, or there are none. -/
theorem run_on_resource [DecidableEq Resource] (assigned : Assigned history)
    {parts : Nat → Option Part} (runs : ∀ worker, Follows part worker history (parts worker))
    (resource : Resource) :
    callsOn resource history = [] ∨ ∃ final, Run part (callsOn resource history) final := by
  by_cases given : ∃ worker, .started worker (some resource) ∈ history
  · obtain ⟨worker, started⟩ := given
    rw [assigned.callsOn_eq started]
    have run := runs worker
    cases here : parts worker with
    | none =>
      rw [here] at run
      exact .inl run
    | some final =>
      rw [here] at run
      exact .inr ⟨final, run⟩
  · exact .inl (assigned.callsOn_eq_nil (not_exists.mp given))

end Parts

end Workers
