/-
This file is about the argument of the threads in `threads/tcpserv02.c`. `main`
allocates a cell for every connection, lets `accept` store the descriptor in it and
gives the thread a pointer to it; the thread reads the cell and frees it. Addresses are
used again once they are free.

At any time a cell belongs to one of them: to `main` until the thread is created, and
to the thread until it frees the cell. So nobody reads or frees what is free already,
and the only cells that are never freed are those for which no thread could be created.
When the cells are forgotten, what is left of a run is a run of `tcpserv01.c`.
-/

import SocketProgram.ThreadServer

namespace SocketProgram.ThreadServer

open Descriptors Runs Workers
open EchoSystem (Server)
open StrEcho (Call)
open ForkServer (File lookup closeFd)

namespace Cells

/-! ### `tcpserv02.c` -/

/-- What is in a cell from `malloc(sizeof(int))`. -/
inductive Cell
  | garbage
  | holds (connfd : Option Nat)
  deriving DecidableEq, Repr

/-- Where `main` is: at `malloc`, at `*iptr=accept(...)`, or at `pthread_create`. -/
inductive MainPc
  | malloc
  | accept (iptr : Nat)
  | create (iptr : Nat)
  deriving DecidableEq, Repr

/-- Where `doit` is: at `connfd=*((int *)arg)`, at `free(arg)`, or as in the other server. -/
inductive ThreadPc
  | load
  | free
  | detach
  | serving
  | returned
  deriving DecidableEq, Repr

structure Thread where
  pc : ThreadPc
  arg : Nat
  connfd : Option Nat
  server : Server

structure State where
  main : MainPc
  heap : Nat → Option Cell
  table : Table File
  threads : List Thread
  connections : Nat

/-- What is seen: what is seen of the other server, a cell being allocated or freed, and the use
of a cell that is free or holds nothing yet. -/
inductive Event
  | shown (event : ThreadServer.Event)
  | malloc (address : Nat)
  | free (address : Nat)
  | fault
  deriving DecidableEq

/-- What the event shows when the cells are forgotten. -/
def Event.shows : Event → Option ThreadServer.Event
  | .shown event => some event
  | _ => none

/-- The descriptor in a cell. -/
def valueAt (heap : Nat → Option Cell) (address : Nat) : Option Nat :=
  match heap address with
  | some (.holds connfd) => connfd
  | _ => none

/-- The state with this thread in its place. -/
def State.setThread (state : State) (place : Nat) (thread : Thread) : State :=
  { state with threads := state.threads.set place thread }

/-- One step of `main` or of a thread; `malloc` is taken to succeed. -/
inductive Step : State → List Event → State → Prop
  | malloc {state : State} {address : Nat} (pc : state.main = .malloc)
      (unused : state.heap address = none) :
      Step state [.malloc address]
        { state with
          main := .accept address
          heap := Function.update state.heap address (some .garbage) }
  | accept {state : State} {iptr : Nat} (pc : state.main = .accept iptr)
      (allocated : state.heap iptr ≠ none) :
      Step state [.shown (.other (.accepted state.connections))]
        { state with
          main := .create iptr
          heap := Function.update state.heap iptr (some (.holds (some state.table.lowest)))
          table := state.table.install (.connection state.connections)
          connections := state.connections + 1 }
  | acceptError {state : State} {iptr : Nat} (errno : Errno) (pc : state.main = .accept iptr)
      (allocated : state.heap iptr ≠ none) :
      Step state [.shown (.other (.acceptError errno))]
        { state with
          main := .create iptr
          heap := Function.update state.heap iptr (some (.holds none)) }
  | acceptFault {state : State} {iptr : Nat} (pc : state.main = .accept iptr)
      (unused : state.heap iptr = none) : Step state [.fault] state
  | create {state : State} {iptr : Nat} (buf : List Byte) (pc : state.main = .create iptr) :
      Step state
        [.shown (.started state.threads.length (lookup state.table (valueAt state.heap iptr)))]
        { state with
          main := .malloc
          threads := state.threads ++
            [{ pc := .load
               arg := iptr
               connfd := none
               server := { pc := .reading, buf := buf, stdout := [] } }] }
  | createError {state : State} {iptr : Nat} (pc : state.main = .create iptr) :
      Step state [.shown (.other .createError)] { state with main := .malloc }
  | load {state : State} {place : Nat} {thread : Thread} {connfd : Option Nat}
      (there : state.threads[place]? = some thread) (pc : thread.pc = .load)
      (cell : state.heap thread.arg = some (.holds connfd)) :
      Step state [] (state.setThread place { thread with pc := .free, connfd := connfd })
  | loadFault {state : State} {place : Nat} {thread : Thread}
      (there : state.threads[place]? = some thread) (pc : thread.pc = .load)
      (cell : ∀ connfd, state.heap thread.arg ≠ some (.holds connfd)) : Step state [.fault] state
  | free {state : State} {place : Nat} {thread : Thread}
      (there : state.threads[place]? = some thread) (pc : thread.pc = .free)
      (allocated : state.heap thread.arg ≠ none) :
      Step state [.free thread.arg]
        ({ state with heap := Function.update state.heap thread.arg none }.setThread place
          { thread with pc := .detach })
  | freeFault {state : State} {place : Nat} {thread : Thread}
      (there : state.threads[place]? = some thread) (pc : thread.pc = .free)
      (unused : state.heap thread.arg = none) : Step state [.fault] state
  | detach {state : State} {place : Nat} {thread : Thread}
      (there : state.threads[place]? = some thread) (pc : thread.pc = .detach) :
      Step state [] (state.setThread place { thread with pc := .serving })
  | call {state : State} {place : Nat} {thread : Thread} {call : Call} {server : Server}
      (there : state.threads[place]? = some thread) (pc : thread.pc = .serving)
      (steps : StrEcho.Step thread.server call server)
      (answers : ForkServer.Answers (lookup state.table thread.connfd) call) :
      Step state [.shown (.call place (lookup state.table thread.connfd) call)]
        (state.setThread place { thread with server := server })
  | close {state : State} {place : Nat} {thread : Thread}
      (there : state.threads[place]? = some thread) (pc : thread.pc = .serving)
      (returned : thread.server.pc = .returned) :
      Step state [.shown (.other (.closed place))]
        ({ state with table := closeFd state.table thread.connfd }.setThread place
          { thread with pc := .returned })

/-- The server from its `for(;;)` on, with no connection yet, and whatever else is allocated. -/
def tcpserv02 : System State Event where
  start history state := history = [] ∧ state.main = .malloc ∧ state.threads = [] ∧
    state.connections = 0 ∧ ∀ number, ¬ state.table.Refers (.connection number)
  step := Step

/-! ### Whom the cells belong to -/

def MainPc.owned : MainPc → List Nat
  | .malloc => []
  | .accept iptr | .create iptr => [iptr]

def Thread.owned (thread : Thread) : List Nat :=
  match thread.pc with
  | .load | .free => [thread.arg]
  | _ => []

/-- The cells that somebody will still use, each as often as there is somebody. -/
def State.owned (state : State) : List Nat :=
  state.main.owned ++ state.threads.flatMap Thread.owned

/-- The cell has the descriptor in it. -/
def Ready (heap : Nat → Option Cell) (address : Nat) : Prop :=
  ∃ connfd, heap address = some (.holds connfd)

/-- No cell has two owners, all of them are allocated, and those that will be read hold a
descriptor. -/
structure Inv (state : State) : Prop where
  nodup : state.owned.Nodup
  allocated : ∀ address ∈ state.owned, state.heap address ≠ none
  created : ∀ iptr, state.main = .create iptr → Ready state.heap iptr
  loading : ∀ thread ∈ state.threads, thread.pc = .load → Ready state.heap thread.arg

/-! ### The ledger of the cells -/

/-- The event allocates a cell. -/
def Event.allocates : Event → Bool
  | .malloc _ => true
  | _ => false

/-- The event frees a cell. -/
def Event.frees : Event → Bool
  | .free _ => true
  | _ => false

/-- `pthread_create` fails, and nobody has a pointer to the cell any more. -/
def Event.leaks : Event → Bool
  | .shown (.other .createError) => true
  | _ => false

/-- What one step does to the cells: nobody uses a free one, and each that is allocated goes to an
owner, as each that an owner gives up is freed or leaked. -/
structure Keeps (state : State) (events : List Event) (next : State) : Prop where
  inv : Inv next
  clean : .fault ∉ events
  ledger : events.countP Event.allocates + state.owned.length =
    events.countP Event.frees + events.countP Event.leaks + next.owned.length

section Steps

variable {state : State} {place : Nat} {thread : Thread} {address : Nat} {cell : Option Cell}

theorem Ready.update {heap : Nat → Option Cell} {other : Nat} (ready : Ready heap other)
    (different : other ≠ address) : Ready (Function.update heap address cell) other := by
  obtain ⟨connfd, holds⟩ := ready
  exact ⟨connfd, by rw [Function.update_of_ne different, holds]⟩

/-- The cell of a thread that has still to read it is the thread's. -/
theorem mem_owned {threads : List Thread} (member : thread ∈ threads) (pc : thread.pc = .load) :
    thread.arg ∈ threads.flatMap Thread.owned := by
  refine List.mem_flatMap.mpr ⟨thread, member, ?_⟩
  rw [Thread.owned, pc]
  exact List.mem_singleton_self _

/-- A cell of nobody else is written or freed. -/
theorem loading_update {heap : Nat → Option Cell} {threads : List Thread}
    (loading : ∀ thread ∈ threads, thread.pc = .load → Ready heap thread.arg)
    (apart : address ∉ threads.flatMap Thread.owned) (thread : Thread) (member : thread ∈ threads)
    (pc : thread.pc = .load) : Ready (Function.update heap address cell) thread.arg :=
  (loading thread member pc).update fun same => apart (same ▸ mem_owned member pc)

theorem allocated_update {heap : Nat → Option Cell} {addresses : List Nat}
    (allocated : ∀ other ∈ addresses, heap other ≠ none) (written : cell ≠ none) (other : Nat)
    (member : other = address ∨ other ∈ addresses) :
    Function.update heap address cell other ≠ none := by
  by_cases same : other = address
  · rw [same, Function.update_self]
    exact written
  · rw [Function.update_of_ne same]
    exact allocated other (member.resolve_left same)

/-- `main` gets a cell that nobody has. -/
theorem keeps_malloc (inv : Inv state) (pc : state.main = .malloc)
    (unused : state.heap address = none) :
    Keeps state [.malloc address]
      { state with
        main := .accept address
        heap := Function.update state.heap address (some .garbage) } := by
  have owned : state.owned = state.threads.flatMap Thread.owned := by
    rw [State.owned, pc]
    rfl
  have apart : address ∉ state.threads.flatMap Thread.owned := fun member =>
    inv.allocated address (owned ▸ member) unused
  refine ⟨⟨?_, ?_, nofun, loading_update inv.loading apart⟩, by simp, ?_⟩
  · exact List.nodup_cons.mpr ⟨apart, owned ▸ inv.nodup⟩
  · intro other member
    refine allocated_update (fun other member => inv.allocated other (owned ▸ member))
      (Option.some_ne_none _) other ?_
    exact List.mem_cons.mp member
  · rw [owned]
    show 1 + _ = 0 + 0 + (address :: state.threads.flatMap Thread.owned).length
    rw [List.length_cons]
    omega

/-- `main` stores what `accept` returns in its own cell. -/
theorem keeps_store (inv : Inv state) (pc : state.main = .accept address)
    (connfd : Option Nat) {next : State} {event : ThreadServer.Event}
    (other : event ≠ .other .createError)
    (moved : next.main = .create address ∧ next.threads = state.threads ∧
      next.heap = Function.update state.heap address (some (.holds connfd))) :
    Keeps state [.shown event] next := by
  obtain ⟨main, threads, heap⟩ := moved
  have owned : state.owned = address :: state.threads.flatMap Thread.owned := by
    rw [State.owned, pc]
    rfl
  have owned' : next.owned = state.owned := by
    rw [owned, State.owned, main, threads]
    rfl
  have nodup := inv.nodup
  rw [owned] at nodup
  refine ⟨⟨owned' ▸ inv.nodup, ?_, ?_, ?_⟩, by simp, ?_⟩
  · rw [owned', heap]
    exact fun other member => allocated_update inv.allocated (Option.some_ne_none _) other
      (.inr member)
  · intro iptr same
    obtain rfl := MainPc.create.inj (main.symm.trans same)
    exact ⟨connfd, by rw [heap, Function.update_self]⟩
  · rw [threads, heap]
    exact loading_update inv.loading (List.nodup_cons.mp nodup).1
  · have leaks : Event.leaks (.shown event) = false := by
      cases event with
      | other event =>
        cases event with
        | createError => exact absurd rfl other
        | _ => rfl
      | _ => rfl
    rw [owned', List.countP_singleton, List.countP_singleton, List.countP_singleton, leaks]
    rfl

/-- The new thread has the cell that `main` had. -/
theorem keeps_create (inv : Inv state) (pc : state.main = .create address) (server : Server)
    (held : Option File) :
    Keeps state [.shown (.started state.threads.length held)]
      { state with
        main := .malloc
        threads := state.threads ++
          [{ pc := .load, arg := address, connfd := none, server := server }] } := by
  have owned : state.owned = [address] ++ state.threads.flatMap Thread.owned := by
    rw [State.owned, pc]
    rfl
  have owned' : ({ state with
      main := .malloc
      threads := state.threads ++
        [{ pc := .load, arg := address, connfd := none, server := server }] } : State).owned =
      state.threads.flatMap Thread.owned ++ [address] := by
    rw [State.owned, List.flatMap_append, List.flatMap_singleton]
    rfl
  have same : ∀ other, other ∈ state.threads.flatMap Thread.owned ++ [address] ↔
      other ∈ state.owned := by
    intro other
    rw [owned, List.mem_append, List.mem_append]
    exact or_comm
  refine ⟨⟨?_, ?_, nofun, ?_⟩, by simp, ?_⟩
  · have nodup := inv.nodup
    rw [owned] at nodup
    rw [owned']
    exact List.nodup_append_comm.mp nodup
  · intro other member
    rw [owned'] at member
    exact inv.allocated other ((same other).mp member)
  · intro thread member loading
    rcases mem_concat.mp member with member | rfl
    · exact inv.loading thread member loading
    · exact inv.created address pc
  · rw [owned', owned, List.length_append, List.length_append]
    show 0 + _ = 0 + 0 + _
    omega

/-- The cells with those of one thread taken out. -/
theorem owned_setThread (there : state.threads[place]? = some thread) :
    ∃ before after, state.owned = before ++ (thread.owned ++ after) ∧
      (∀ next, (state.setThread place next).owned = before ++ (next.owned ++ after)) ∧
      (∀ address ∈ state.main.owned, address ∈ before) ∧
      ∀ other ∈ state.threads, other = thread ∨ ∀ address ∈ other.owned,
        address ∈ before ++ after := by
  obtain ⟨before, after, split, set⟩ := exists_split there
  refine ⟨state.main.owned ++ before.flatMap Thread.owned, after.flatMap Thread.owned, ?_,
    fun next => ?_, fun _ => List.mem_append_left _, fun other member => ?_⟩
  · rw [State.owned, split, List.flatMap_append, List.flatMap_cons, List.append_assoc]
  · show _ ++ (state.threads.set place next).flatMap Thread.owned = _
    rw [set next, List.flatMap_append, List.flatMap_cons, ← List.append_assoc]
    rfl
  · rw [split, List.mem_append, List.mem_cons] at member
    rcases member with early | rfl | late
    · refine .inr fun address owned => List.mem_append_left _ (List.mem_append_right _ ?_)
      exact List.mem_flatMap.mpr ⟨other, early, owned⟩
    · exact .inl rfl
    · refine .inr fun address owned => List.mem_append_right _ ?_
      exact List.mem_flatMap.mpr ⟨other, late, owned⟩

/-- The cell a thread is going to free is neither that of `main` nor one that another thread has
still to read. -/
theorem Inv.freeing (inv : Inv state) (there : state.threads[place]? = some thread)
    (pc : thread.pc = .free) : thread.arg ∉ state.main.owned ∧
      ∀ other ∈ state.threads, other.pc = .load → other.arg ≠ thread.arg := by
  obtain ⟨before, after, split, -, main, threads⟩ := owned_setThread there
  have held : thread.owned = [thread.arg] := by rw [Thread.owned, pc]
  have nodup := inv.nodup
  rw [split, held] at nodup
  have apart := (List.nodup_cons.mp (List.nodup_middle.mp nodup)).1
  refine ⟨fun member => apart (List.mem_append_left _ (main _ member)),
    fun other member loading same => apart ?_⟩
  rcases threads other member with rfl | kept
  · cases pc.symm.trans loading
  · rw [← same]
    refine kept _ ?_
    rw [Thread.owned, loading]
    exact List.mem_singleton_self _

/-- A thread moves on with the cell it has, or without one. -/
theorem keeps_move (inv : Inv state) (there : state.threads[place]? = some thread)
    (event : Option ThreadServer.Event) {next : Thread} (table : Table File)
    (owned : next.owned = thread.owned) (load : next.pc ≠ .load)
    (other : ∀ event', event = some event' → event' ≠ .other .createError) :
    Keeps state (event.map Event.shown).toList
      ({ state with table := table }.setThread place next) := by
  obtain ⟨before, after, split, set, -⟩ := owned_setThread there
  have owned' : ({ state with table := table }.setThread place next).owned = state.owned := by
    rw [split, ← owned]
    exact set next
  refine ⟨⟨owned' ▸ inv.nodup, ?_, inv.created, ?_⟩, ?_, ?_⟩
  · rw [owned']
    exact inv.allocated
  · intro thread' member loading
    rcases List.mem_or_eq_of_mem_set member with member | rfl
    · exact inv.loading thread' member loading
    · exact absurd loading load
  · cases event <;> simp
  · rw [owned']
    cases event with
    | none => rfl
    | some event =>
      have leaks : Event.leaks (.shown event) = false := by
        cases event with
        | other event =>
          cases event with
          | createError => exact absurd rfl (other _ rfl)
          | _ => rfl
        | _ => rfl
      rw [Option.map_some, Option.toList_some, List.countP_singleton, List.countP_singleton,
        List.countP_singleton, leaks]
      rfl

/-- A thread frees its cell. -/
theorem keeps_free (inv : Inv state) (there : state.threads[place]? = some thread)
    (pc : thread.pc = .free) :
    Keeps state [.free thread.arg]
      ({ state with heap := Function.update state.heap thread.arg none }.setThread place
        { thread with pc := .detach }) := by
  obtain ⟨before, after, split, set, -⟩ := owned_setThread there
  have held : thread.owned = [thread.arg] := by rw [Thread.owned, pc]
  have nodup := inv.nodup
  rw [split, held] at nodup
  obtain ⟨apart, nodup⟩ := List.nodup_cons.mp (List.nodup_middle.mp nodup)
  have owned : ({ state with heap := Function.update state.heap thread.arg none }.setThread place
      { thread with pc := .detach }).owned = before ++ after := set { thread with pc := .detach }
  have allocated : ∀ address ∈ before ++ after, state.heap address ≠ none := by
    intro address member
    refine inv.allocated address ?_
    rw [split, held]
    rcases List.mem_append.mp member with early | late
    · exact List.mem_append_left _ early
    · exact List.mem_append_right _ (List.mem_append_right _ late)
  refine ⟨⟨owned ▸ nodup, ?_, ?_, ?_⟩, by simp, ?_⟩
  · rw [owned]
    intro address member
    show Function.update state.heap thread.arg none address ≠ none
    have different : address ≠ thread.arg := fun same => apart (same ▸ member)
    rw [Function.update_of_ne different]
    exact allocated address member
  · intro iptr main
    refine (inv.created iptr main).update fun same => (inv.freeing there pc).1 ?_
    rw [← same, show state.main = .create iptr from main]
    exact List.mem_singleton_self _
  · intro thread' member loading
    rcases List.mem_or_eq_of_mem_set member with member | rfl
    · exact (inv.loading thread' member loading).update
        ((inv.freeing there pc).2 thread' member loading)
    · cases loading
  · rw [owned, split, held, List.length_append, List.length_append, List.length_append]
    show 0 + _ = 1 + 0 + _
    rw [List.length_singleton]
    omega

/-- `main` gives up the cell of a thread that could not be created. -/
theorem keeps_createError (inv : Inv state) (pc : state.main = .create address) :
    Keeps state [.shown (.other .createError)] { state with main := .malloc } := by
  have owned : state.owned = address :: state.threads.flatMap Thread.owned := by
    rw [State.owned, pc]
    rfl
  have owned' : ({ state with main := .malloc } : State).owned =
      state.threads.flatMap Thread.owned := rfl
  have nodup := inv.nodup
  rw [owned] at nodup
  refine ⟨⟨owned' ▸ (List.nodup_cons.mp nodup).2, ?_, nofun, inv.loading⟩, by simp, ?_⟩
  · intro other member
    exact inv.allocated other (owned ▸ List.mem_cons_of_mem _ (owned' ▸ member))
  · rw [owned', owned, List.length_cons]
    show 0 + _ = 0 + 1 + _
    omega

theorem keeps_step {events : List Event} {next : State} (inv : Inv state)
    (step : Step state events next) : Keeps state events next := by
  have main : ∀ iptr, iptr ∈ state.main.owned → state.heap iptr ≠ none := fun iptr member =>
    inv.allocated iptr (List.mem_append_left _ member)
  cases step with
  | malloc pc unused => exact keeps_malloc inv pc unused
  | accept pc allocated => exact keeps_store inv pc _ nofun ⟨rfl, rfl, rfl⟩
  | acceptError errno pc allocated => exact keeps_store inv pc _ nofun ⟨rfl, rfl, rfl⟩
  | @acceptFault iptr pc unused =>
    refine absurd unused (main iptr ?_)
    rw [pc]
    exact List.mem_singleton_self _
  | create buf pc => exact keeps_create inv pc _ _
  | createError pc => exact keeps_createError inv pc
  | @load place thread connfd there pc cell =>
    have owned : ({ thread with pc := .free, connfd := connfd } : Thread).owned = thread.owned := by
      rw [Thread.owned, Thread.owned, pc]
    exact keeps_move inv there none state.table owned nofun nofun
  | @loadFault place thread there pc cell =>
    obtain ⟨connfd, holds⟩ := inv.loading thread (List.mem_of_getElem? there) pc
    exact absurd holds (cell connfd)
  | free there pc allocated => exact keeps_free inv there pc
  | @freeFault place thread there pc unused =>
    refine absurd unused (inv.allocated _ (List.mem_append_right _ ?_))
    refine List.mem_flatMap.mpr ⟨thread, List.mem_of_getElem? there, ?_⟩
    rw [Thread.owned, pc]
    exact List.mem_singleton_self _
  | @detach place thread there pc =>
    have owned : ({ thread with pc := .serving } : Thread).owned = thread.owned := by
      rw [Thread.owned, Thread.owned, pc]
    exact keeps_move inv there none state.table owned nofun nofun
  | @call place thread call server there pc steps answers =>
    exact keeps_move inv there (some _) state.table rfl (by rw [pc]; exact nofun)
      fun event same => by
        rw [← Option.some.inj same]
        exact nofun
  | @close place thread there pc returned =>
    have owned : ({ thread with pc := .returned } : Thread).owned = thread.owned := by
      rw [Thread.owned, Thread.owned, pc]
    exact keeps_move inv there (some _) _ owned nofun fun event same => by
      rw [← Option.some.inj same]
      exact nofun

end Steps

/-! ### Without the cells -/

/-- A thread of the other server that is as far. -/
def Thread.forget (heap : Nat → Option Cell) (thread : Thread) : ThreadServer.Thread :=
  match thread.pc with
  | .load => ⟨.detach, valueAt heap thread.arg, thread.server⟩
  | .free | .detach => ⟨.detach, thread.connfd, thread.server⟩
  | .serving => ⟨.serving, thread.connfd, thread.server⟩
  | .returned => ⟨.returned, thread.connfd, thread.server⟩

/-- The other server when it is as far. -/
def State.forget (state : State) : ThreadServer.State where
  main :=
    match state.main with
    | .malloc | .accept _ => .accept
    | .create iptr => .create (valueAt state.heap iptr)
  table := state.table
  threads := state.threads.map (Thread.forget state.heap)
  connections := state.connections

section Forget

variable {state : State} {place : Nat} {thread : Thread} {address : Nat} {cell : Option Cell}

theorem valueAt_update (heap : Nat → Option Cell) (address : Nat) (connfd : Option Nat) :
    valueAt (Function.update heap address (some (.holds connfd))) address = connfd := by
  rw [valueAt, Function.update_self]

/-- What happens to a cell that no thread has still to read makes no difference. -/
theorem forget_update (heap : Nat → Option Cell) {threads : List Thread}
    (apart : ∀ thread ∈ threads, thread.pc = .load → thread.arg ≠ address) :
    threads.map (Thread.forget (Function.update heap address cell)) =
      threads.map (Thread.forget heap) := by
  refine List.map_congr_left fun thread member => ?_
  cases pc : thread.pc with
  | load =>
    rw [Thread.forget, Thread.forget, pc]
    simp only [valueAt, Function.update_of_ne (apart thread member pc)]
  | _ => rw [Thread.forget, Thread.forget, pc]

/-- What `main` does to its own cell makes no difference to a thread. -/
theorem Inv.apart (inv : Inv state) {address : Nat} (own : state.main.owned = [address])
    (thread : Thread) (member : thread ∈ state.threads) (pc : thread.pc = .load) :
    thread.arg ≠ address := by
  have disjoint := List.disjoint_of_nodup_append inv.nodup
  rintro rfl
  exact disjoint (own ▸ List.mem_singleton_self _) (mem_owned member pc)

theorem getElem?_forget (there : state.threads[place]? = some thread) :
    state.forget.threads[place]? = some (thread.forget state.heap) := by
  show (state.threads.map _)[place]? = _
  rw [List.getElem?_map, there]
  rfl

/-- A step that leaves a thread as far as it was. -/
theorem forget_setThread_same (there : state.threads[place]? = some thread) {next : Thread}
    (same : next.forget state.heap = thread.forget state.heap) :
    (state.setThread place next).forget = state.forget := by
  have threads : (state.threads.set place next).map (Thread.forget state.heap) =
      state.threads.map (Thread.forget state.heap) := by
    obtain ⟨before, after, split, set⟩ := exists_split there
    rw [set next, split, List.map_append, List.map_cons, same, List.map_append, List.map_cons]
  rw [State.forget, State.forget, State.setThread]
  exact congrArg (ThreadServer.State.mk _ _ · _) threads

theorem forget_setThread (next : Thread) :
    (state.setThread place next).forget =
      state.forget.setThread place (next.forget state.heap) := by
  rw [State.forget, State.setThread, ThreadServer.State.setThread, State.forget]
  exact congrArg (ThreadServer.State.mk _ _ · _) List.map_set

/-- Every step of this server is a step of the other, or none when it is about a cell. -/
theorem matched (inv : Inv state) {events : List Event} {next : State}
    (step : Step state events next) :
    events.filterMap Event.shows = [] ∧ next.forget = state.forget ∨
      ThreadServer.Step state.forget (events.filterMap Event.shows) next.forget := by
  cases step with
  | @malloc address pc unused =>
    refine .inl ⟨rfl, ?_⟩
    have apart : ∀ thread ∈ state.threads, thread.pc = .load → thread.arg ≠ address := by
      rintro thread member loading rfl
      obtain ⟨connfd, holds⟩ := inv.loading thread member loading
      rw [unused] at holds
      cases holds
    simp only [State.forget, pc, forget_update state.heap apart]
  | @accept iptr pc allocated =>
    have apart := inv.apart (show state.main.owned = [iptr] by rw [pc]; rfl)
    have main : state.forget.main = .accept := by rw [State.forget, pc]
    have steps := ThreadServer.Step.accept main
    simp only [State.forget, valueAt_update, forget_update state.heap apart]
    exact .inr steps
  | @acceptError iptr errno pc allocated =>
    have apart := inv.apart (show state.main.owned = [iptr] by rw [pc]; rfl)
    have main : state.forget.main = .accept := by rw [State.forget, pc]
    have steps := ThreadServer.Step.acceptError errno main
    simp only [State.forget, valueAt_update, forget_update state.heap apart]
    exact .inr steps
  | acceptFault pc unused => exact .inl ⟨rfl, rfl⟩
  | @create iptr buf pc =>
    have main : state.forget.main = .create (valueAt state.heap iptr) := by rw [State.forget, pc]
    have steps := ThreadServer.Step.create buf main
    have length : state.forget.threads.length = state.threads.length := List.length_map _
    rw [length] at steps
    simp only [State.forget, List.map_append]
    exact .inr steps
  | @createError iptr pc =>
    have main : state.forget.main = .create (valueAt state.heap iptr) := by rw [State.forget, pc]
    exact .inr (ThreadServer.Step.createError main)
  | @load place thread connfd there pc cell =>
    refine .inl ⟨rfl, forget_setThread_same there ?_⟩
    simp only [Thread.forget, pc, valueAt, cell]
  | loadFault there pc cell => exact .inl ⟨rfl, rfl⟩
  | @free place thread there pc allocated =>
    obtain ⟨main, others⟩ := inv.freeing there pc
    have freed : ({ state with heap := Function.update state.heap thread.arg none } :
        State).forget = state.forget := by
      rw [State.forget, State.forget, forget_update state.heap others]
      cases at' : state.main with
      | create iptr =>
        have different : iptr ≠ thread.arg := by
          rintro rfl
          rw [at'] at main
          exact main (List.mem_singleton_self _)
        simp only [valueAt, Function.update_of_ne different]
      | _ => rfl
    have there' : ({ state with heap := Function.update state.heap thread.arg none } :
        State).threads[place]? = some thread := there
    refine .inl ⟨rfl, (forget_setThread_same there' ?_).trans freed⟩
    rw [Thread.forget, Thread.forget, pc]
  | freeFault there pc unused => exact .inl ⟨rfl, rfl⟩
  | @detach place thread there pc =>
    have steps := ThreadServer.Step.detach (getElem?_forget there) (by rw [Thread.forget, pc])
    rw [forget_setThread]
    simp only [Thread.forget, pc] at steps ⊢
    exact .inr steps
  | @call place thread call server there pc steps answers =>
    have same : thread.forget state.heap = ⟨.serving, thread.connfd, thread.server⟩ := by
      rw [Thread.forget, pc]
    have there' := getElem?_forget there
    rw [same] at there'
    rw [forget_setThread]
    simp only [Thread.forget, pc]
    exact .inr (ThreadServer.Step.call there' rfl steps answers)
  | @close place thread there pc returned =>
    have same : thread.forget state.heap = ⟨.serving, thread.connfd, thread.server⟩ := by
      rw [Thread.forget, pc]
    have there' := getElem?_forget there
    rw [same] at there'
    rw [forget_setThread]
    exact .inr (ThreadServer.Step.close there' rfl returned)

end Forget

/-! ### Every run of `tcpserv02.c` -/

section Runs

variable {history : List Event} {state : State}

theorem inv_of_run (run : Run tcpserv02 history state) : Inv state := by
  refine run.invariant (fun _ state => Inv state) ?_ fun _ _ _ _ inv step =>
    (keeps_step inv step).inv
  rintro _ state ⟨rfl, main, threads, -, -⟩
  have owned : state.owned = [] := by
    rw [State.owned, main, threads]
    rfl
  refine ⟨owned ▸ List.nodup_nil, ?_, ?_, ?_⟩
  · rw [owned]
    exact fun address member => absurd member List.not_mem_nil
  · intro iptr same
    cases main.symm.trans same
  · rw [threads]
    exact fun thread member => absurd member List.not_mem_nil

/-- A thread is created, and reads and frees its cell. -/
theorem run_freed : ∃ history state, Run tcpserv02 history state ∧
    history.countP Event.allocates = 1 ∧ history.countP Event.leaks = 0 ∧ state.owned = [] ∧
      0 < state.forget.connections := by
  have start : Run tcpserv02 []
      { main := .malloc, heap := fun _ => none, table := ForkServer.nothingOpen, threads := [],
        connections := 0 } :=
    .start ⟨rfl, rfl, rfl, rfl, fun number => ForkServer.not_refers_nothingOpen _⟩
  have accepted := (start.step (@Step.malloc _ 7 rfl rfl)).step (.accept rfl nofun)
  have created := accepted.step (.create [] rfl)
  have loaded := created.step (@Step.load _ 0 _ _ rfl rfl rfl)
  exact ⟨_, _, loaded.step (@Step.free _ 0 _ rfl rfl nofun), rfl, rfl, rfl, Nat.one_pos⟩

/-- No thread ever reads or frees a cell that is free, or reads one that holds nothing yet, whatever
the order of the steps. Every cell that was allocated has been freed, belongs to somebody who will
free it, or was leaked when `pthread_create` failed. -/
theorem cells_freed (run : Run tcpserv02 history state) :
    .fault ∉ history ∧
      history.countP Event.allocates =
        history.countP Event.frees + history.countP Event.leaks + state.owned.length := by
  have both : Inv state ∧ .fault ∉ history ∧ history.countP Event.allocates =
      history.countP Event.frees + history.countP Event.leaks + state.owned.length := by
    refine run.invariant (fun history state => Inv state ∧ .fault ∉ history ∧
      history.countP Event.allocates =
        history.countP Event.frees + history.countP Event.leaks + state.owned.length) ?_ ?_
    · intro history state starts
      refine ⟨inv_of_run (.start starts), ?_⟩
      obtain ⟨rfl, main, threads, -, -⟩ := starts
      rw [State.owned, main, threads]
      exact ⟨List.not_mem_nil, rfl⟩
    · rintro history state events next ⟨inv, clean, ledger⟩ step
      obtain ⟨inv', clean', ledger'⟩ := keeps_step inv step
      refine ⟨inv', ?_, ?_⟩
      · rw [List.mem_append]
        exact not_or.mpr ⟨clean, clean'⟩
      · rw [List.countP_append, List.countP_append, List.countP_append]
        omega
  exact both.2

theorem cells_freed_created : ∃ history state, Run tcpserv02 history state ∧
    history.countP Event.frees = 1 := by
  obtain ⟨history, state, run, allocated, leaked, owned, -⟩ := run_freed
  have ledger := (cells_freed run).2
  rw [allocated, leaked, owned] at ledger
  exact ⟨history, state, run, ledger.symm⟩

/-- Without the cells the server does what `tcpserv01.c` does. -/
theorem tcpserv02_simulates (run : Run tcpserv02 history state) :
    Run tcpserv01 (history.filterMap Event.shows) state.forget := by
  refine run.simulates State.forget Event.shows ?_ fun _ _ _ _ run step =>
    matched (inv_of_run run) step
  rintro _ state ⟨rfl, main, threads, connections, none⟩
  refine ⟨rfl, ?_, ?_, connections, none⟩
  · rw [State.forget, main]
  · rw [State.forget, threads]
    rfl

theorem tcpserv02_simulates_created : ∃ history state, Run tcpserv01 history state ∧
    0 < state.connections := by
  obtain ⟨history, state, run, -, -, -, below⟩ := run_freed
  exact ⟨_, _, tcpserv02_simulates run, below⟩

end Runs

end Cells

end SocketProgram.ThreadServer
