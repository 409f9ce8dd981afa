/-
This file is about the servers of `threads/` that create a thread for each connection.
All threads share one table of descriptors, so what a thread closes is closed for all,
and the number it closes can be that of the next connection at once. `tcpserv01.c`
hands the descriptor to its thread as the value of the argument. `tcpserv02.c`
allocates a cell for it, which the thread reads and frees.

A thread closes its descriptor when it has done with it and never uses it afterwards;
until then nobody else closes it. So each connection is served by one thread, whatever
the order of the steps. The cells add nothing to this: each belongs to `main` until its
thread is created and to that thread until it frees it, and then the second server does
what the first does.
-/

import SocketProgram.ForkServer

namespace SocketProgram.ThreadServer

open Descriptors Runs Workers
open EchoSystem (Server)
open StrEcho (Call strEcho)
open ForkServer (File lookup closeFd)

/-! ### `tcpserv01.c` -/

/-- Where `main` is: at `accept`, or at `pthread_create`. -/
inductive MainPc
  | accept
  | create (connfd : Option Nat)
  deriving DecidableEq, Repr

/-- Where `doit` is: at `pthread_detach`, in `str_echo` or behind it at `close`, or returned. -/
inductive ThreadPc
  | detach
  | serving
  | returned
  deriving DecidableEq, Repr

/-- A thread, with the descriptor in its argument. -/
structure Thread where
  pc : ThreadPc
  connfd : Option Nat
  server : Server

/-- The process: its table, where `main` is, and the threads in the order they were created in,
with the number of connections there have been. -/
structure State where
  main : MainPc
  table : Table File
  threads : List Thread
  connections : Nat

/-- What is seen besides a thread being created and its calls. -/
inductive Other
  | accepted (connection : Nat)
  | acceptError (errno : Errno)
  | createError
  | closed (thread : Nat)
  deriving DecidableEq, Repr

abbrev Event := Workers.Event File Call Other

/-- The state with this thread in its place. -/
def State.setThread (state : State) (place : Nat) (thread : Thread) : State :=
  { state with threads := state.threads.set place thread }

/-- One step of `main` or of a thread. Neither `accept` nor `pthread_create` is looked at. -/
inductive Step : State → List Event → State → Prop
  | accept {state : State} (pc : state.main = .accept) :
      Step state [.other (.accepted state.connections)]
        { state with
          main := .create (some state.table.lowest)
          table := state.table.install (.connection state.connections)
          connections := state.connections + 1 }
  | acceptError {state : State} (errno : Errno) (pc : state.main = .accept) :
      Step state [.other (.acceptError errno)] { state with main := .create none }
  | create {state : State} {connfd : Option Nat} (buf : List Byte)
      (pc : state.main = .create connfd) :
      Step state [.started state.threads.length (lookup state.table connfd)]
        { state with
          main := .accept
          threads := state.threads ++
            [{ pc := .detach
               connfd := connfd
               server := { pc := .reading, buf := buf, stdout := [] } }] }
  | createError {state : State} {connfd : Option Nat} (pc : state.main = .create connfd) :
      Step state [.other .createError] { state with main := .accept }
  | detach {state : State} {place : Nat} {thread : Thread}
      (there : state.threads[place]? = some thread) (pc : thread.pc = .detach) :
      Step state [] (state.setThread place { thread with pc := .serving })
  | call {state : State} {place : Nat} {thread : Thread} {call : Call} {server : Server}
      (there : state.threads[place]? = some thread) (pc : thread.pc = .serving)
      (steps : StrEcho.Step thread.server call server)
      (answers : ForkServer.Answers (lookup state.table thread.connfd) call) :
      Step state [.call place (lookup state.table thread.connfd) call]
        (state.setThread place { thread with server := server })
  | close {state : State} {place : Nat} {thread : Thread}
      (there : state.threads[place]? = some thread) (pc : thread.pc = .serving)
      (returned : thread.server.pc = .returned) :
      Step state [.other (.closed place)]
        ({ state with table := closeFd state.table thread.connfd }.setThread place
          { thread with pc := .returned })

/-- The server from its `for(;;)` on, with no connection yet. -/
def tcpserv01 : System State Event where
  start history state := history = [] ∧ state.main = .accept ∧ state.threads = [] ∧
    state.connections = 0 ∧ ∀ number, ¬ state.table.Refers (.connection number)
  step := Step

/-! ### What every run keeps -/

/-- The descriptor refers to this, and to something unless it is `-1`. -/
structure Held (table : Table File) (connfd : Option Nat) (held : Option File) : Prop where
  refers : lookup table connfd = held
  something : connfd ≠ none → held ≠ none

/-- Every thread has the descriptor of the connection it was created for until it closes it, and no
other descriptor refers to that connection; the history tells which connections are closed. -/
structure Inv (history : List Event) (state : State) : Prop where
  assigned : Assigned history
  placed : ∀ worker file, .started worker file ∈ history → worker < state.threads.length
  main : ∀ connfd, state.main = .create connfd → ∃ held, Held state.table connfd held ∧
    ∀ file, held = some file → ∃ number, number + 1 = state.connections ∧
      file = .connection number
  given : ∀ worker file, .started worker (some file) ∈ history →
    ∃ number, file = .connection number ∧ number < state.connections ∧
      ∀ fd, state.main = .create (some fd) → number + 1 < state.connections
  threads : ∀ (place : Nat) (thread : Thread), state.threads[place]? = some thread →
    ∃ held, .started place held ∈ history ∧
      (thread.pc ≠ .returned → Held state.table thread.connfd held)
  only : ∀ number, state.table.Refers (.connection number) →
    ∃ fd, state.table.Only (.connection number) fd
  below : ∀ number, state.table.Refers (.connection number) → number < state.connections
  closed : ∀ place, .other (.closed place) ∈ history ↔
    ∃ thread, state.threads[place]? = some thread ∧ thread.pc = .returned
  finished : ∀ number < state.connections, ¬ state.table.Refers (.connection number) ↔
    ∃ place, .started place (some (.connection number)) ∈ history ∧
      .other (.closed place) ∈ history

section Held

variable {table : Table File} {connfd : Option Nat} {held : Option File} {fd : Nat}

theorem held_none (table : Table File) : Held table none none :=
  ⟨rfl, fun some' => absurd rfl some'⟩

/-- A descriptor that is held is not free. -/
theorem Held.install (holds : Held table connfd held) (file : File) :
    Held (table.install file) connfd held := by
  refine ⟨?_, holds.something⟩
  cases connfd with
  | none => exact holds.refers
  | some fd =>
    have other : fd ≠ table.lowest := by
      rintro rfl
      refine holds.something (Option.some_ne_none _) ?_
      rw [← holds.refers]
      exact table.file_lowest
    rw [lookup, Table.file_install_of_ne other]
    exact holds.refers

/-- Closing another descriptor leaves it. -/
theorem Held.close (holds : Held table connfd held) {closed : Option Nat}
    (other : ∀ fd, closed = some fd → connfd ≠ some fd) :
    Held (closeFd table closed) connfd held := by
  cases closed with
  | none => exact holds
  | some fd =>
    refine ⟨?_, holds.something⟩
    cases connfd with
    | none => exact holds.refers
    | some number =>
      have different : number ≠ fd := fun same => other fd rfl (congrArg some same)
      rw [lookup, closeFd, Table.file_close_of_ne different]
      exact holds.refers

/-- Closing a descriptor closes the file it refers to, if no other refers to it, and no other
file. -/
theorem Held.refers_close_iff (holds : Held table connfd held) {file : File}
    (only : table.Refers file → ∃ fd, table.Only file fd) :
    (closeFd table connfd).Refers file ↔ table.Refers file ∧ held ≠ some file := by
  cases connfd with
  | none =>
    rw [← holds.refers]
    exact (and_iff_left nofun).symm
  | some fd =>
    have refers : table.file fd = held := holds.refers
    by_cases same : held = some file
    · obtain ⟨number, only⟩ := only ⟨fd, refers.trans same⟩
      obtain rfl := (only fd).mp (refers.trans same)
      exact iff_of_false only.not_refers_close fun both => both.2 same
    · rw [and_iff_left same]
      exact Table.refers_close_iff (refers.symm ▸ same)

theorem only_close {file : File} (only : table.Only file fd)
    (open' : (closeFd table connfd).Refers file) : ∃ fd, (closeFd table connfd).Only file fd := by
  cases connfd with
  | none => exact ⟨fd, only⟩
  | some closed =>
    have different : closed ≠ fd := by
      rintro rfl
      exact only.not_refers_close open'
    exact ⟨fd, only.close different⟩

end Held

section Steps

variable {history : List Event} {state : State}

/-- Most events are of no interest afterwards. -/
theorem Inv.other (inv : Inv history state) (event : Other)
    (open' : ∀ place, event ≠ .closed place) : Inv (history ++ [.other event]) state := by
  refine ⟨inv.assigned.other event, ?_, inv.main, ?_, ?_, inv.only, inv.below, ?_, ?_⟩ <;>
    simp only [mem_concat, reduceCtorEq, or_false, Event.other.injEq]
  · exact inv.placed
  · exact inv.given
  · exact inv.threads
  · intro place
    rw [or_iff_left (open' place).symm]
    exact inv.closed place
  · intro number below
    rw [inv.finished number below]
    refine exists_congr fun place => and_congr Iff.rfl ?_
    rw [or_iff_left (open' place).symm]

/-- `main` moves on without a connection. -/
theorem Inv.moveMain (inv : Inv history state) {main : MainPc}
    (nothing : ∀ connfd, main = .create connfd → connfd = none) :
    Inv history { state with main := main } := by
  refine ⟨inv.assigned, inv.placed, ?_, ?_, inv.threads, inv.only, inv.below, inv.closed,
    inv.finished⟩
  · intro connfd pc
    obtain rfl := nothing connfd pc
    exact ⟨none, held_none _, fun _ => nofun⟩
  · intro worker file started
    obtain ⟨number, connection, below, -⟩ := inv.given worker file started
    exact ⟨number, connection, below, fun fd pc => nomatch nothing _ pc⟩

/-- A thread moves on with its descriptor. -/
theorem Inv.moveThread (inv : Inv history state) {place : Nat} {thread : Thread}
    (there : state.threads[place]? = some thread) (next : Thread)
    (connfd : next.connfd = thread.connfd) (before : thread.pc ≠ .returned)
    (after : next.pc ≠ .returned) : Inv history (state.setThread place next) := by
  obtain ⟨inside, -⟩ := List.getElem?_eq_some_iff.mp there
  refine ⟨inv.assigned, ?_, inv.main, inv.given, ?_, inv.only, inv.below, ?_, inv.finished⟩
  · intro worker file started
    rw [State.setThread, List.length_set]
    exact inv.placed worker file started
  · intro other thread' there'
    by_cases same : place = other
    · subst same
      rw [State.setThread, List.getElem?_set_self inside] at there'
      obtain rfl := Option.some.inj there'
      obtain ⟨held, started, holds⟩ := inv.threads place thread there
      exact ⟨held, started, fun _ => connfd ▸ holds before⟩
    · rw [State.setThread, List.getElem?_set_ne same] at there'
      exact inv.threads other thread' there'
  · intro other
    rw [inv.closed other]
    by_cases same : place = other
    · subst same
      rw [State.setThread, List.getElem?_set_self inside, there]
      simp [before, after]
    · rw [State.setThread, List.getElem?_set_ne same]

/-- `accept` installs a connection that nobody has been given. -/
theorem inv_accept (inv : Inv history state) :
    Inv (history ++ [.other (.accepted state.connections)])
      { state with
        main := .create (some state.table.lowest)
        table := state.table.install (.connection state.connections)
        connections := state.connections + 1 } := by
  have inv' := inv.other (.accepted state.connections) fun _ => nofun
  have new : ¬ state.table.Refers (.connection state.connections) := fun refers =>
    Nat.lt_irrefl _ (inv.below _ refers)
  refine ⟨inv'.assigned, inv'.placed, ?_, ?_, ?_, ?_, ?_, inv'.closed, ?_⟩
  · rintro connfd ⟨⟩
    refine ⟨some (.connection state.connections), ⟨state.table.file_install_lowest _, ?_⟩, ?_⟩
    · exact fun _ => Option.some_ne_none _
    · rintro _ ⟨⟩
      exact ⟨state.connections, rfl, rfl⟩
  · intro worker file started
    obtain ⟨number, connection, below, -⟩ := inv'.given worker file started
    exact ⟨number, connection, Nat.lt_succ_of_lt below, fun _ _ => Nat.succ_lt_succ below⟩
  · intro place thread there
    obtain ⟨held, started, holds⟩ := inv'.threads place thread there
    exact ⟨held, started, fun running => (holds running).install _⟩
  · intro number refers
    rcases Table.refers_install_iff.mp refers with old | same
    · obtain ⟨fd, only⟩ := inv'.only number old
      refine ⟨fd, only.install fun same => new ?_⟩
      rw [same]
      exact old
    · rw [same]
      exact ⟨_, Table.only_install new⟩
  · intro number refers
    rcases Table.refers_install_iff.mp refers with old | same
    · exact Nat.lt_succ_of_lt (inv'.below number old)
    · rw [File.connection.inj same]
      exact Nat.lt_succ_self _
  · intro number below
    show ¬ (state.table.install _).Refers _ ↔ _
    rw [Table.refers_install_iff, File.connection.injEq]
    rcases Nat.lt_succ_iff_lt_or_eq.mp below with old | rfl
    · rw [or_iff_left (Nat.ne_of_lt old)]
      exact inv'.finished number old
    · refine iff_of_false (fun open' => open' (.inr rfl)) ?_
      rintro ⟨place, started, -⟩
      obtain ⟨number, connection, below, -⟩ := inv'.given place _ started
      rw [File.connection.inj connection] at below
      exact Nat.lt_irrefl _ below

/-- A new thread has the descriptor that `main` had. -/
theorem inv_create (inv : Inv history state) {connfd : Option Nat}
    (pc : state.main = .create connfd) (server : Server) :
    Inv (history ++ [.started state.threads.length (lookup state.table connfd)])
      { state with
        main := .accept
        threads := state.threads ++ [{ pc := .detach, connfd := connfd, server := server }] } := by
  obtain ⟨held, holds, last⟩ := inv.main connfd pc
  have unplaced : ∀ resource, Event.started state.threads.length resource ∉ history :=
    fun resource started => Nat.lt_irrefl _ (inv.placed _ _ started)
  have fresh : ∀ file, held = some file → ∀ worker, .started worker (some file) ∉ history := by
    rintro file rfl worker started
    obtain ⟨number, rfl, -, before⟩ := inv.given worker file started
    obtain ⟨number', latest, same⟩ := last _ rfl
    obtain rfl := File.connection.inj same
    cases connfd with
    | none => cases holds.refers
    | some fd => exact absurd latest (Nat.ne_of_lt (before fd pc))
  rw [holds.refers]
  refine ⟨inv.assigned.started unplaced fresh, ?_, fun _ => nofun, ?_, ?_, inv.only, inv.below, ?_,
    ?_⟩
  · intro worker file started
    rw [List.length_append, List.length_singleton]
    rcases mem_concat.mp started with started | same
    · exact Nat.lt_succ_of_lt (inv.placed worker file started)
    · obtain ⟨rfl, -⟩ := Event.started.inj same
      exact Nat.lt_succ_self _
  · intro worker file started
    rcases mem_concat.mp started with started | same
    · obtain ⟨number, connection, below, -⟩ := inv.given worker file started
      exact ⟨number, connection, below, fun _ => nofun⟩
    · obtain ⟨number, latest, connection⟩ := last file (Event.started.inj same).2.symm
      refine ⟨number, connection, ?_, fun _ => nofun⟩
      show number < state.connections
      omega
  · intro place thread there
    rcases Nat.lt_or_ge place state.threads.length with old | new
    · rw [List.getElem?_append_left old] at there
      obtain ⟨held', started, holds'⟩ := inv.threads place thread there
      exact ⟨held', List.mem_append_left _ started, holds'⟩
    · have inside := (List.getElem?_eq_some_iff.mp there).1
      rw [List.length_append, List.length_singleton] at inside
      obtain rfl : place = state.threads.length := by omega
      rw [List.getElem?_concat_length] at there
      obtain rfl := Option.some.inj there
      exact ⟨held, List.mem_concat_self, fun _ => holds⟩
  · intro place
    rw [mem_concat, or_iff_left nofun, inv.closed place]
    rcases Nat.lt_trichotomy place state.threads.length with old | rfl | beyond
    · rw [List.getElem?_append_left old]
    · rw [List.getElem?_concat_length, List.getElem?_eq_none (Nat.le_refl _)]
      simp
    · rw [List.getElem?_eq_none (Nat.le_of_lt beyond), List.getElem?_eq_none]
      rw [List.length_append, List.length_singleton]
      exact beyond
  · intro number below
    rw [inv.finished number below]
    refine exists_congr fun place => ?_
    simp only [mem_concat, reduceCtorEq, or_false]
    refine and_congr_left fun gone => (or_iff_left ?_).symm
    intro same
    obtain ⟨rfl, -⟩ := Event.started.inj same
    obtain ⟨thread, there, -⟩ := (inv.closed _).mp gone
    rw [List.getElem?_eq_none (Nat.le_refl _)] at there
    cases there

/-- A thread closes its descriptor, which nobody else has. -/
theorem inv_close (inv : Inv history state) {place : Nat} {thread : Thread}
    (there : state.threads[place]? = some thread) (pc : thread.pc ≠ .returned) :
    Inv (history ++ [.other (.closed place)])
      ({ state with table := closeFd state.table thread.connfd }.setThread place
        { thread with pc := .returned }) := by
  obtain ⟨inside, -⟩ := List.getElem?_eq_some_iff.mp there
  obtain ⟨held, started, holds⟩ := inv.threads place thread there
  have holds := holds pc
  have refers : ∀ number, (closeFd state.table thread.connfd).Refers (.connection number) ↔
      state.table.Refers (.connection number) ∧ held ≠ some (.connection number) :=
    fun number => holds.refers_close_iff (inv.only number)
  have own : ∀ fd, thread.connfd = some fd → ∃ file, held = some file := fun fd same =>
    Option.ne_none_iff_exists'.mp (holds.something (same ▸ Option.some_ne_none fd))
  have main : ∀ connfd, state.main = .create connfd →
      ∃ held, Held (closeFd state.table thread.connfd) connfd held ∧
        ∀ file, held = some file → ∃ number, number + 1 = state.connections ∧
          file = .connection number := by
    intro connfd main
    obtain ⟨held', holds', last⟩ := inv.main connfd main
    refine ⟨held', holds'.close fun fd closed same => ?_, last⟩
    -- `main` has the latest connection, and this thread an earlier one.
    obtain ⟨file, rfl⟩ := own fd closed
    obtain ⟨number, rfl, -, before⟩ := inv.given place file started
    have both : held' = some (.connection number) := by
      rw [← holds'.refers, same, ← closed]
      exact holds.refers
    obtain ⟨number', latest, connection⟩ := last _ both
    obtain rfl := File.connection.inj connection
    exact absurd latest (Nat.ne_of_lt (before fd (same ▸ main)))
  have only : ∀ number, (closeFd state.table thread.connfd).Refers (.connection number) →
      ∃ fd, (closeFd state.table thread.connfd).Only (.connection number) fd := by
    intro number open'
    obtain ⟨fd, only⟩ := inv.only number ((refers number).mp open').1
    exact only_close only open'
  refine ⟨inv.assigned.other _, ?_, main, ?_, ?_, only,
    fun number open' => inv.below number ((refers number).mp open').1, ?_, ?_⟩ <;>
    simp only [mem_concat, reduceCtorEq, or_false, Event.other.injEq, Other.closed.injEq]
  · intro worker file started
    rw [State.setThread, List.length_set]
    exact inv.placed worker file started
  · exact inv.given
  · intro other thread' there'
    by_cases same : place = other
    · subst same
      rw [State.setThread, List.getElem?_set_self inside] at there'
      obtain rfl := Option.some.inj there'
      exact ⟨held, started, fun running => absurd rfl running⟩
    · rw [State.setThread, List.getElem?_set_ne same] at there'
      obtain ⟨held', started', holds'⟩ := inv.threads other thread' there'
      refine ⟨held', started', fun running => (holds' running).close fun fd closed both => ?_⟩
      obtain ⟨file, rfl⟩ := own fd closed
      have given : held' = some file := by
        rw [← (holds' running).refers, both, ← closed]
        exact holds.refers
      exact same (inv.assigned.unique _ _ file started (given ▸ started'))
  · intro other
    by_cases same : place = other
    · subst same
      rw [State.setThread, List.getElem?_set_self inside]
      simp
    · rw [or_iff_left (Ne.symm same), State.setThread, List.getElem?_set_ne same]
      exact inv.closed other
  · intro number below
    show ¬ (closeFd state.table thread.connfd).Refers _ ↔ _
    rw [refers number]
    constructor
    · intro finished
      by_cases open' : state.table.Refers (.connection number)
      · have same : held = some (.connection number) := by
          by_contra different
          exact finished ⟨open', different⟩
        exact ⟨place, same ▸ started, .inr rfl⟩
      · obtain ⟨other, started', gone⟩ := (inv.finished number below).mp open'
        exact ⟨other, started', .inl gone⟩
    · rintro ⟨other, started', gone | rfl⟩ ⟨open', different⟩
      · exact (inv.finished number below).mpr ⟨other, started', gone⟩ open'
      · exact different (inv.assigned.once _ _ _ started started')

theorem inv_step {events : List Event} {next : State} (inv : Inv history state)
    (step : Step state events next) : Inv (history ++ events) next := by
  cases step with
  | accept pc => exact inv_accept inv
  | acceptError errno pc =>
    exact (inv.other (.acceptError errno) fun _ => nofun).moveMain fun connfd same =>
      (MainPc.create.inj same).symm
  | create buf pc => exact inv_create inv pc _
  | createError pc => exact (inv.other .createError fun _ => nofun).moveMain fun _ => nofun
  | detach there pc =>
    rw [List.append_nil]
    exact inv.moveThread there _ rfl (by rw [pc]; exact nofun) nofun
  | @call place thread call server there pc steps answers =>
    obtain ⟨held, started, holds⟩ := inv.threads place thread there
    have running : thread.pc ≠ .returned := by rw [pc]; exact nofun
    rw [(holds running).refers]
    have inv' := inv.moveThread there { thread with server := server } rfl running running
    refine ⟨inv.assigned.call started call, ?_, inv'.main, ?_, ?_, inv'.only, inv'.below, ?_,
      ?_⟩ <;>
      simp only [mem_concat, reduceCtorEq, or_false]
    · exact inv'.placed
    · exact inv'.given
    · exact inv'.threads
    · exact inv'.closed
    · exact inv'.finished
  | close there pc returned => exact inv_close inv there (by rw [pc]; exact nofun)

end Steps

/-! ### Every run of `tcpserv01.c` -/

section Runs

variable {history : List Event} {state : State}

theorem inv_of_run (run : Run tcpserv01 history state) : Inv history state := by
  refine run.invariant Inv ?_ fun _ _ _ _ => inv_step
  rintro _ state ⟨rfl, main, threads, connections, none⟩
  refine ⟨assigned_nil, ?_, ?_, ?_, ?_, ?_, ?_, ?_, ?_⟩
  · exact fun worker file started => absurd started List.not_mem_nil
  · intro connfd same
    cases main.symm.trans same
  · exact fun worker file started => absurd started List.not_mem_nil
  · intro place thread there
    rw [threads] at there
    cases there
  · exact fun number open' => absurd open' (none number)
  · exact fun number open' => absurd open' (none number)
  · intro place
    simp [threads]
  · intro number below
    rw [connections] at below
    exact absurd below (Nat.not_lt_zero _)

/-- What each thread's `str_echo` has done. -/
def view (state : State) : Nat → Option Server := placed Thread.server state.threads

theorem moves_step {events : List Event} {next : State} (step : Step state events next) :
    Moves strEcho (view state) events (view next) := by
  cases step with
  | accept pc => exact .other _
  | acceptError errno pc => exact .other _
  | create buf pc =>
    rw [view, view, placed_concat]
    refine .started ?_ ⟨rfl, rfl, rfl⟩
    rw [placed, List.getElem?_eq_none (Nat.le_refl _)]
    rfl
  | createError pc => exact .other _
  | detach there pc =>
    rw [view, view, State.setThread, placed_set_same _ there]
    · exact .quiet
    · rfl
  | call there pc steps answers =>
    rw [view, view, State.setThread, placed_set _ there]
    refine .call ?_ ⟨_, steps, rfl⟩
    rw [placed, there]
    rfl
  | close there pc returned =>
    rw [view, view, State.setThread, placed_set_same _ there]
    · exact .other _
    · rfl

/-- A call on a connection. -/
theorem step_call {place : Nat} {thread : Thread} {call : Call} {server : Server} {file : File}
    (there : state.threads[place]? = some thread) (pc : thread.pc = .serving)
    (held : lookup state.table thread.connfd = some file)
    (steps : StrEcho.Step thread.server call server) :
    Step state [.call place (some file) call]
      (state.setThread place { thread with server := server }) := by
  have answers : ForkServer.Answers (lookup state.table thread.connfd) call := by
    rw [held]
    exact trivial
  have step : Step state _ _ := .call there pc steps answers
  rwa [held] at step

/-- A connection is accepted, and a thread is created for it, which reads two bytes and has written
the first of them. -/
theorem run_created : ∃ history state, Run tcpserv01 history state ∧ 0 < state.connections ∧
    (∀ thread, Event.other (.closed thread) ∉ history) ∧
    callsOn (.connection 0) history =
      [.read (.data [97, 98]), .write [97, 98] (.wrote 1)] := by
  have start : Run tcpserv01 []
      { main := .accept, table := ForkServer.nothingOpen, threads := [], connections := 0 } :=
    .start ⟨rfl, rfl, rfl, rfl, fun number => ForkServer.not_refers_nothingOpen _⟩
  have created := (start.step (.accept rfl)).step (.create [] rfl)
  have serving := created.step (@Step.detach _ 0 _ rfl rfl)
  have held : lookup (ForkServer.nothingOpen.install (.connection 0))
      (some ForkServer.nothingOpen.lowest) = some (.connection 0) :=
    Table.file_install_lowest _ _
  have nonempty : ([97, 98] : List Byte) ≠ [] := List.cons_ne_nil 97 [98]
  have fits : (ReadOutcome.data [97, 98]).Fits maxline := show 2 ≤ maxline by decide
  have reads := serving.step (@step_call _ 0 _ _ _ _ rfl rfl held (.read rfl fits))
  have writes := reads.step (@step_call _ 0 _ _ _ _ rfl rfl held
    (StrEcho.step_piece _ nonempty (show (WriteOutcome.wrote 1).Fits 2 from Nat.le_succ 1)))
  refine ⟨_, _, writes, Nat.one_pos, fun thread => ?_, rfl⟩
  simp

/-- Although all threads share the descriptors and their numbers are used again, the calls on a
connection are those of one `str_echo`. So what has been written on it is a first part of what has
been read from it, if it takes nothing after a `write` that fails. -/
theorem thread_connection_echoed (run : Run tcpserv01 history state) (number : Nat) :
    (∃ server, Run strEcho (callsOn (.connection number) history) server) ∧
      (StrEcho.FailsForGood (callsOn (.connection number) history) →
        StrEcho.sent (callsOn (.connection number) history) <+:
          StrEcho.received (callsOn (.connection number) history)) := by
  have follows := follows_of_run strEcho view
    (fun history state starts => by
      obtain ⟨rfl, -, threads, -⟩ := starts
      exact ⟨rfl, fun _ => by rw [view, placed, threads]; rfl⟩)
    (fun state events next => moves_step) run
  have run' : ∃ server, Run strEcho (callsOn (.connection number) history) server := by
    rcases run_on_resource (inv_of_run run).assigned follows (.connection number) with
      none | some'
    · rw [none]
      exact ⟨_, StrEcho.run_started⟩
    · exact some'
  obtain ⟨server, run'⟩ := run'
  exact ⟨⟨server, run'⟩, fun forGood => (StrEcho.inv_of_run run' forGood).front⟩

theorem thread_connection_echoed_created : ∃ history state, Run tcpserv01 history state ∧
    callsOn (.connection 0) history = [.read (.data [97, 98]), .write [97, 98] (.wrote 1)] ∧
    (∃ server, Run strEcho (callsOn (.connection 0) history) server) ∧
    StrEcho.sent (callsOn (.connection 0) history) <+:
      StrEcho.received (callsOn (.connection 0) history) := by
  obtain ⟨history, state, run, -, -, calls⟩ := run_created
  obtain ⟨served, front⟩ := thread_connection_echoed run 0
  refine ⟨history, state, run, calls, served, front ?_⟩
  rw [calls]
  decide

/-- A connection is open until its thread has closed it. One for which no thread could be created
is never closed. -/
theorem thread_connection_open_iff (run : Run tcpserv01 history state) (number : Nat)
    (below : number < state.connections) :
    state.table.Refers (.connection number) ↔
      ∀ thread, .started thread (some (.connection number)) ∈ history →
        .other (.closed thread) ∉ history := by
  rw [← not_iff_not, (inv_of_run run).finished number below]
  simp only [not_forall, not_not, exists_prop]

theorem thread_connection_open_created : ∃ history state, Run tcpserv01 history state ∧
    state.table.Refers (.connection 0) := by
  obtain ⟨history, state, run, below, open', -⟩ := run_created
  exact ⟨history, state, run,
    (thread_connection_open_iff run 0 below).mpr fun thread _ => open' thread⟩

end Runs

end SocketProgram.ThreadServer
