/-
This file is about the servers that fork: `tcpserv01.c` and `tcpserv04.c` of
`tcpcliserv/`, and `unixstrserv01.c`. The parent accepts a connection, forks, and
closes the connection; the child closes the listening socket, runs `str_echo` on the
connection and exits. All children run at the same time.

`fork` copies the descriptors of the parent. Because the parent has closed every
earlier connection by then, a child gets the connection it was forked for and no
other. So whatever is read and written on a connection is done by one `str_echo`, and
a connection is open until the parent has closed it and its child has exited. The
parent itself is left after each connection with the descriptors it had before.
-/

import SocketProgram.Library.Descriptors
import SocketProgram.Library.Workers
import SocketProgram.StrEcho

namespace SocketProgram.ForkServer

open Descriptors Runs Workers
open EchoSystem (Server)
open StrEcho (Call strEcho)

/-! ### Descriptors -/

/-- What a descriptor refers to: something the process had from the beginning, the listening
socket, or a connection. The connections are numbered in the order they are accepted in. -/
inductive File
  | inherited (number : Nat)
  | listening
  | connection (number : Nat)
  deriving DecidableEq, Repr

/-- What an `int` that came from `accept` refers to; `none` is `-1`. -/
def lookup (table : Table File) : Option Nat → Option File
  | none => none
  | some fd => table.file fd

/-- `close`, which fails on `-1`. -/
def closeFd (table : Table File) : Option Nat → Table File
  | none => table
  | some fd => table.close fd

/-- The table of a process that is over. -/
def nothingOpen : Table File := ⟨fun _ => none, 0, fun _ _ => rfl⟩

/-! ### The processes -/

/-- What becomes of the loop when `accept` fails: `continue`, `return -1`, or on with `-1` for
`connfd`. -/
inductive Reaction
  | again
  | leave
  | goOn
  deriving DecidableEq, Repr

/-- `tcpserv01.c` does not look at what `accept` returns. -/
def tcpserv01 : Errno → Reaction := fun _ => .goOn

/-- `if(errno==EINTR) continue; else { printf("accept error\n"); return -1; }`. -/
def tcpserv04 : Errno → Reaction := fun errno => if errno = .eintr then .again else .leave

/-- `if(errno== EINTR) continue; else printf("accept error \n");`, and on to `fork`. -/
def unixstrserv01 : Errno → Reaction := fun errno => if errno = .eintr then .again else .goOn

/-- Where the parent is: at `accept`, at `fork`, at `close(connfd)`, or out of the loop. -/
inductive ParentPc
  | accept
  | fork (connfd : Option Nat)
  | close (connfd : Option Nat)
  | returned
  deriving DecidableEq, Repr

structure Parent where
  pc : ParentPc
  table : Table File

/-- Where a child is: at `close(listenfd)`, in `str_echo` or behind it at `exit(0)`, or gone. -/
inductive ChildPc
  | closing
  | serving
  | exited
  deriving DecidableEq, Repr

structure Child where
  pc : ChildPc
  connfd : Option Nat
  table : Table File
  server : Server

/-- All processes, the children in the order they were forked in, with the number of connections
there have been. -/
structure State where
  parent : Parent
  children : List Child
  connections : Nat

/-- What is seen besides a child being forked and its calls. -/
inductive Other
  | accepted (connection : Nat)
  | acceptError (errno : Errno)
  | forkError
  | closed (file : Option File)
  | exited (child : Nat)
  deriving DecidableEq, Repr

abbrev Event := Workers.Event File Call Other

/-- A call on a descriptor that refers to nothing fails with `EBADF`. -/
def Answers : Option File → Call → Prop
  | some _, _ => True
  | none, .read outcome => outcome = .error (.other 9)
  | none, .write _ outcome => outcome = .error (.other 9)

/-- The state with this child in its place. -/
def State.setChild (state : State) (place : Nat) (child : Child) : State :=
  { state with children := state.children.set place child }

/-- One step of one of the processes. -/
inductive Step (onError : Errno → Reaction) (listenfd : Nat) : State → List Event → State → Prop
  | accept {state : State} (pc : state.parent.pc = .accept) :
      Step onError listenfd state [.other (.accepted state.connections)]
        { state with
          parent :=
            { pc := .fork (some state.parent.table.lowest)
              table := state.parent.table.install (.connection state.connections) }
          connections := state.connections + 1 }
  | acceptAgain {state : State} {errno : Errno} (pc : state.parent.pc = .accept)
      (reaction : onError errno = .again) :
      Step onError listenfd state [.other (.acceptError errno)] state
  | acceptLeave {state : State} {errno : Errno} (pc : state.parent.pc = .accept)
      (reaction : onError errno = .leave) :
      Step onError listenfd state [.other (.acceptError errno)]
        { state with parent := { pc := .returned, table := nothingOpen } }
  | acceptGoOn {state : State} {errno : Errno} (pc : state.parent.pc = .accept)
      (reaction : onError errno = .goOn) :
      Step onError listenfd state [.other (.acceptError errno)]
        { state with parent := { state.parent with pc := .fork none } }
  | fork {state : State} {connfd : Option Nat} (buf : List Byte)
      (pc : state.parent.pc = .fork connfd) :
      Step onError listenfd state
        [.started state.children.length (lookup state.parent.table connfd)]
        { state with
          parent := { state.parent with pc := .close connfd }
          children := state.children ++
            [{ pc := .closing
               connfd := connfd
               table := state.parent.table
               server := { pc := .reading, buf := buf, stdout := [] } }] }
  | forkError {state : State} {connfd : Option Nat} (pc : state.parent.pc = .fork connfd) :
      Step onError listenfd state [.other .forkError]
        { state with parent := { state.parent with pc := .close connfd } }
  | close {state : State} {connfd : Option Nat} (pc : state.parent.pc = .close connfd) :
      Step onError listenfd state [.other (.closed (lookup state.parent.table connfd))]
        { state with
          parent := { pc := .accept, table := closeFd state.parent.table connfd } }
  | closeListenfd {state : State} {place : Nat} {child : Child}
      (there : state.children[place]? = some child) (pc : child.pc = .closing) :
      Step onError listenfd state []
        (state.setChild place
          { child with pc := .serving, table := child.table.close listenfd })
  | call {state : State} {place : Nat} {child : Child} {call : Call} {server : Server}
      (there : state.children[place]? = some child) (pc : child.pc = .serving)
      (steps : StrEcho.Step child.server call server)
      (answers : Answers (lookup child.table child.connfd) call) :
      Step onError listenfd state [.call place (lookup child.table child.connfd) call]
        (state.setChild place { child with server := server })
  | exit {state : State} {place : Nat} {child : Child}
      (there : state.children[place]? = some child) (pc : child.pc = .serving)
      (returned : child.server.pc = .returned) :
      Step onError listenfd state [.other (.exited place)]
        (state.setChild place { child with pc := .exited, table := nothingOpen })

/-- What the parent has at the `for(;;)`: the listening socket, and no connection. -/
structure Listening (base : Table File) (listenfd : Nat) : Prop where
  listening : base.file listenfd = some .listening
  none : ∀ number, ¬ base.Refers (.connection number)

/-- The server from its `for(;;)` on. -/
def forkServer (onError : Errno → Reaction) (base : Table File) (listenfd : Nat) :
    System State Event where
  start history state := history = [] ∧
    state = { parent := { pc := .accept, table := base }, children := [], connections := 0 }
  step := Step onError listenfd

/-- Some process has a descriptor of the file. -/
def State.Open (state : State) (file : File) : Prop :=
  state.parent.table.Refers file ∨
    ∃ (place : Nat) (child : Child), state.children[place]? = some child ∧
      child.table.Refers file

/-! ### What a process holds -/

/-- A table that is the one of the beginning, with the file of `connfd` besides. -/
inductive Holds (base table : Table File) : Option Nat → Option File → Prop
  | nothing (same : table.file = base.file) : Holds base table none none
  | connection {fd : Nat} {file : File} (free : base.file fd = none)
      (more : table.file = Function.update base.file fd (some file)) :
      Holds base table (some fd) (some file)

section Holds

variable {base table : Table File} {connfd : Option Nat} {held : Option File} {file : File}
  {listenfd : Nat}

theorem Holds.lookup (holds : Holds base table connfd held) : lookup table connfd = held := by
  cases holds with
  | nothing same => rfl
  | connection free more =>
    rw [ForkServer.lookup, more]
    exact Function.update_self _ _ _

theorem Holds.refers_iff (holds : Holds base table connfd held) (new : ¬ base.Refers file) :
    table.Refers file ↔ held = some file := by
  cases holds with
  | nothing same =>
    rw [Table.Refers, same]
    exact iff_of_false new (Option.some_ne_none file).symm
  | @connection fd held free more =>
    rw [Table.Refers, more]
    constructor
    · rintro ⟨other, refers⟩
      by_cases same : other = fd
      · rw [same, Function.update_self] at refers
        exact refers
      · rw [Function.update_of_ne same] at refers
        exact absurd ⟨other, refers⟩ new
    · intro same
      exact ⟨fd, by rw [Function.update_self, same]⟩

/-- A new descriptor is one that was free in the beginning. -/
theorem holds_install (same : table.file = base.file) (file : File) :
    Holds base (table.install file) (some table.lowest) (some file) := by
  refine .connection ?_ ?_
  · rw [← same]
    exact table.file_lowest
  · rw [← same]
    rfl

/-- Closing `connfd` leaves what there was in the beginning. -/
theorem Holds.close (holds : Holds base table connfd held) :
    (closeFd table connfd).file = base.file := by
  cases holds with
  | nothing same => exact same
  | @connection fd file free more =>
    show Function.update table.file fd none = base.file
    rw [more, Function.update_idem, ← free, Function.update_eq_self]

/-- Closing the listening socket closes no connection. -/
theorem Holds.lookup_close (holds : Holds base table connfd held)
    (listening : base.file listenfd = some .listening) :
    ForkServer.lookup (table.close listenfd) connfd = held := by
  cases holds with
  | nothing same => rfl
  | @connection fd file free more =>
    have other : fd ≠ listenfd := by
      rintro rfl
      rw [free] at listening
      cases listening
    rw [ForkServer.lookup, Table.file_close_of_ne other, more]
    exact Function.update_self _ _ _

theorem Holds.refers_close_iff (holds : Holds base table connfd held)
    (listening : base.file listenfd = some .listening) (new : ¬ base.Refers file) :
    (table.close listenfd).Refers file ↔ held = some file := by
  rw [← holds.refers_iff new]
  constructor
  · rintro ⟨fd, refers⟩
    by_cases same : fd = listenfd
    · rw [same, Table.file_close_self] at refers
      cases refers
    · rw [Table.file_close_of_ne same] at refers
      exact ⟨fd, refers⟩
  · intro refers
    have same := (holds.refers_iff new).mp refers
    subst same
    cases connfd with
    | none => cases holds
    | some fd => exact ⟨fd, holds.lookup_close listening⟩

end Holds

/-- What a child holds: what the parent had when it forked, less the listening socket once that is
closed. -/
def Child.Holds (base : Table File) (listenfd : Nat) (child : Child) (held : Option File) : Prop :=
  match child.pc with
  | .closing => ForkServer.Holds base child.table child.connfd held
  | .serving => ∃ table, ForkServer.Holds base table child.connfd held ∧
      child.table = table.close listenfd
  | .exited => child.table = nothingOpen

section Child

variable {base : Table File} {listenfd : Nat} {child : Child} {held : Option File} {number : Nat}

theorem Child.Holds.lookup (holds : child.Holds base listenfd held)
    (listening : Listening base listenfd) (serving : child.pc = .serving) :
    ForkServer.lookup child.table child.connfd = held := by
  rw [Child.Holds, serving] at holds
  obtain ⟨table, before, same⟩ := holds
  rw [same]
  exact before.lookup_close listening.listening

theorem Child.Holds.refers_iff (holds : child.Holds base listenfd held)
    (listening : Listening base listenfd) :
    child.table.Refers (.connection number) ↔
      child.pc ≠ .exited ∧ held = some (.connection number) := by
  rw [Child.Holds] at holds
  cases pc : child.pc with
  | closing =>
    rw [pc] at holds
    rw [holds.refers_iff (listening.none number)]
    exact (and_iff_right nofun).symm
  | serving =>
    rw [pc] at holds
    obtain ⟨table, before, same⟩ := holds
    rw [same, before.refers_close_iff listening.listening (listening.none number)]
    exact (and_iff_right nofun).symm
  | exited =>
    rw [pc] at holds
    rw [holds]
    refine iff_of_false ?_ fun both => both.1 rfl
    rintro ⟨fd, refers⟩
    cases refers

end Child

/-- What the parent holds: between `accept` and `close` the last connection, or nothing if
`accept` has failed. -/
def Parent.Holds (base : Table File) (connections : Nat) (parent : Parent) : Prop :=
  match parent.pc with
  | .accept => parent.table.file = base.file
  | .fork connfd | .close connfd => ∃ held, ForkServer.Holds base parent.table connfd held ∧
      ∀ file, held = some file → ∃ number, number + 1 = connections ∧ file = .connection number
  | .returned => parent.table = nothingOpen

/-! ### What every run keeps -/

/-- Every child was forked with the connection it holds, and every connection was given to one
child only; the history tells which connections the parent has closed and which children have
exited. -/
structure Inv (base : Table File) (listenfd : Nat) (history : List Event) (state : State) :
    Prop where
  assigned : Assigned history
  placed : ∀ worker file, .started worker file ∈ history → worker < state.children.length
  parent : state.parent.Holds base state.connections
  given : ∀ worker file, .started worker (some file) ∈ history →
    ∃ number, file = .connection number ∧ number < state.connections ∧
      ∀ fd, state.parent.pc = .fork (some fd) → number + 1 < state.connections
  children : ∀ (place : Nat) (child : Child), state.children[place]? = some child →
    ∃ held, .started place held ∈ history ∧ child.Holds base listenfd held
  exited : ∀ place, .other (.exited place) ∈ history ↔
    ∃ child, state.children[place]? = some child ∧ child.pc = .exited
  closed : ∀ number, .other (.closed (some (.connection number))) ∈ history ↔
    number < state.connections ∧ ¬ state.parent.table.Refers (.connection number)

section Steps

variable {base : Table File} {listenfd : Nat} {history : List Event} {state : State}

theorem not_refers_base (listening : Listening base listenfd) {table : Table File}
    (same : table.file = base.file) (number : Nat) : ¬ table.Refers (.connection number) := by
  rw [Table.Refers, same]
  exact listening.none number

theorem not_refers_nothingOpen (file : File) : ¬ nothingOpen.Refers file := by
  rintro ⟨fd, refers⟩
  cases refers

/-- Most events are of no interest afterwards. -/
theorem Inv.other (inv : Inv base listenfd history state) (event : Other)
    (open' : ∀ number, event ≠ .closed (some (.connection number)))
    (alive : ∀ place, event ≠ .exited place) :
    Inv base listenfd (history ++ [.other event]) state := by
  refine ⟨inv.assigned.other event, ?_, inv.parent, ?_, ?_, ?_, ?_⟩ <;>
    simp only [mem_concat, reduceCtorEq, or_false, Event.other.injEq]
  · exact inv.placed
  · exact inv.given
  · exact inv.children
  · intro place
    rw [or_iff_left (alive place).symm]
    exact inv.exited place
  · intro number
    rw [or_iff_left (open' number).symm]
    exact inv.closed number

/-- The parent moves on with the same connection or none. -/
theorem Inv.moveParent (inv : Inv base listenfd history state) {parent : Parent}
    (holds : parent.Holds base state.connections)
    (waits : ∀ fd, parent.pc = .fork (some fd) → state.parent.pc = .fork (some fd))
    (same : ∀ number, parent.table.Refers (.connection number) ↔
      state.parent.table.Refers (.connection number)) :
    Inv base listenfd history { state with parent := parent } := by
  refine ⟨inv.assigned, inv.placed, holds, ?_, inv.children, inv.exited, ?_⟩
  · intro worker file started
    obtain ⟨number, connection, below, before⟩ := inv.given worker file started
    exact ⟨number, connection, below, fun fd pc => before fd (waits fd pc)⟩
  · intro number
    rw [inv.closed number, same number]

/-- A child moves on. -/
theorem Inv.moveChild (inv : Inv base listenfd history state) {place : Nat} {child : Child}
    (there : state.children[place]? = some child) (next : Child)
    (holds : ∀ held, child.Holds base listenfd held → next.Holds base listenfd held)
    (before : child.pc ≠ .exited) (after : next.pc ≠ .exited) :
    Inv base listenfd history (state.setChild place next) := by
  obtain ⟨inside, -⟩ := List.getElem?_eq_some_iff.mp there
  refine ⟨inv.assigned, ?_, inv.parent, inv.given, ?_, ?_, inv.closed⟩
  · intro worker file started
    rw [State.setChild, List.length_set]
    exact inv.placed worker file started
  · intro other child' there'
    by_cases same : place = other
    · subst same
      rw [State.setChild, List.getElem?_set_self inside] at there'
      obtain rfl := Option.some.inj there'
      obtain ⟨held, started, holds'⟩ := inv.children place child there
      exact ⟨held, started, holds held holds'⟩
    · rw [State.setChild, List.getElem?_set_ne same] at there'
      exact inv.children other child' there'
  · intro other
    rw [inv.exited other]
    by_cases same : place = other
    · subst same
      rw [State.setChild, List.getElem?_set_self inside, there]
      simp [before, after]
    · rw [State.setChild, List.getElem?_set_ne same]

/-- `accept` installs a connection that nobody has been given. -/
theorem inv_accept (listening : Listening base listenfd) (inv : Inv base listenfd history state)
    (pc : state.parent.pc = .accept) :
    Inv base listenfd (history ++ [.other (.accepted state.connections)])
      { state with
        parent :=
          { pc := .fork (some state.parent.table.lowest)
            table := state.parent.table.install (.connection state.connections) }
        connections := state.connections + 1 } := by
  have before : state.parent.table.file = base.file := by
    have holds := inv.parent
    rw [Parent.Holds, pc] at holds
    exact holds
  have holds := holds_install before (.connection state.connections)
  have inv' := inv.other (.accepted state.connections) (fun _ => nofun) fun _ => nofun
  refine ⟨inv'.assigned, inv'.placed, ⟨_, holds, ?_⟩, ?_, inv'.children, inv'.exited, ?_⟩
  · rintro _ ⟨⟩
    exact ⟨state.connections, rfl, rfl⟩
  · intro worker file started
    obtain ⟨number, connection, below, -⟩ := inv'.given worker file started
    exact ⟨number, connection, Nat.lt_succ_of_lt below, fun _ _ => Nat.succ_lt_succ below⟩
  · intro number
    rw [inv'.closed number, holds.refers_iff (listening.none number), Option.some.injEq,
      File.connection.injEq]
    have none := not_refers_base listening before number
    show number < state.connections ∧ _ ↔ number < state.connections + 1 ∧ _
    rw [and_iff_left none]
    omega

/-- `fork` gives the child what the parent has. -/
theorem inv_fork (inv : Inv base listenfd history state) {connfd : Option Nat}
    (pc : state.parent.pc = .fork connfd) (server : Server) :
    Inv base listenfd
      (history ++ [.started state.children.length (lookup state.parent.table connfd)])
      { state with
        parent := { state.parent with pc := .close connfd }
        children := state.children ++
          [{ pc := .closing, connfd := connfd, table := state.parent.table
             server := server }] } := by
  have holds := inv.parent
  rw [Parent.Holds, pc] at holds
  obtain ⟨held, holds, last⟩ := holds
  have unplaced : ∀ resource, Event.started state.children.length resource ∉ history :=
    fun resource started => Nat.lt_irrefl _ (inv.placed _ _ started)
  rw [holds.lookup]
  refine ⟨inv.assigned.started unplaced ?_, ?_, ⟨held, holds, last⟩, ?_, ?_, ?_, ?_⟩
  · rintro file rfl worker started
    obtain ⟨number, rfl, -, before⟩ := inv.given worker file started
    obtain ⟨number', latest, same⟩ := last _ rfl
    obtain rfl := File.connection.inj same
    cases connfd with
    | none => cases holds
    | some fd => exact absurd latest (Nat.ne_of_lt (before fd pc))
  · intro worker file started
    rw [List.length_append, List.length_singleton]
    rcases mem_concat.mp started with started | same
    · exact Nat.lt_succ_of_lt (inv.placed worker file started)
    · obtain ⟨rfl, -⟩ := Event.started.inj same
      exact Nat.lt_succ_self _
  · intro worker file started
    rcases mem_concat.mp started with started | same
    · obtain ⟨number, connection, below, -⟩ := inv.given worker file started
      exact ⟨number, connection, below, fun _ => nofun⟩
    · obtain ⟨number, latest, connection⟩ := last file (Event.started.inj same).2.symm
      refine ⟨number, connection, ?_, fun _ => nofun⟩
      show number < state.connections
      omega
  · intro place child there
    rcases Nat.lt_or_ge place state.children.length with old | new
    · rw [List.getElem?_append_left old] at there
      obtain ⟨held', started, holds'⟩ := inv.children place child there
      exact ⟨held', List.mem_append_left _ started, holds'⟩
    · have inside := (List.getElem?_eq_some_iff.mp there).1
      rw [List.length_append, List.length_singleton] at inside
      obtain rfl : place = state.children.length := by omega
      rw [List.getElem?_concat_length] at there
      obtain rfl := Option.some.inj there
      exact ⟨held, List.mem_concat_self, holds⟩
  · intro place
    rw [mem_concat, or_iff_left nofun, inv.exited place]
    rcases Nat.lt_trichotomy place state.children.length with old | rfl | beyond
    · rw [List.getElem?_append_left old]
    · rw [List.getElem?_concat_length, List.getElem?_eq_none (Nat.le_refl _)]
      simp
    · rw [List.getElem?_eq_none (Nat.le_of_lt beyond), List.getElem?_eq_none]
      rw [List.length_append, List.length_singleton]
      exact beyond
  · intro number
    rw [mem_concat, or_iff_left nofun]
    exact inv.closed number

/-- `close` leaves the parent with what it had before `accept`. -/
theorem inv_close (listening : Listening base listenfd) (inv : Inv base listenfd history state)
    {connfd : Option Nat} (pc : state.parent.pc = .close connfd) :
    Inv base listenfd (history ++ [.other (.closed (lookup state.parent.table connfd))])
      { state with parent := { pc := .accept, table := closeFd state.parent.table connfd } } := by
  have holds := inv.parent
  rw [Parent.Holds, pc] at holds
  obtain ⟨held, holds, last⟩ := holds
  rw [holds.lookup]
  refine ⟨inv.assigned.other _, ?_, holds.close, ?_, ?_, ?_, ?_⟩ <;>
    simp only [mem_concat, reduceCtorEq, or_false, Event.other.injEq]
  · exact inv.placed
  · intro worker file started
    obtain ⟨number, connection, below, -⟩ := inv.given worker file started
    exact ⟨number, connection, below, fun _ => nofun⟩
  · exact inv.children
  · exact inv.exited
  · intro number
    have none := not_refers_base listening holds.close number
    rw [inv.closed number, holds.refers_iff (listening.none number), and_iff_left none,
      Other.closed.injEq]
    constructor
    · rintro (⟨below, -⟩ | same)
      · exact below
      · obtain ⟨number', latest, connection⟩ := last _ same.symm
        obtain rfl := File.connection.inj connection
        omega
    · intro below
      by_cases same : held = some (.connection number)
      · exact .inr same.symm
      · exact .inl ⟨below, same⟩

/-- A child exits, and its descriptors are closed. -/
theorem inv_exit (inv : Inv base listenfd history state) {place : Nat} {child : Child}
    (there : state.children[place]? = some child) :
    Inv base listenfd (history ++ [.other (.exited place)])
      (state.setChild place { child with pc := .exited, table := nothingOpen }) := by
  obtain ⟨inside, -⟩ := List.getElem?_eq_some_iff.mp there
  refine ⟨inv.assigned.other _, ?_, inv.parent, ?_, ?_, ?_, ?_⟩ <;>
    simp only [mem_concat, reduceCtorEq, or_false, Event.other.injEq, Other.exited.injEq]
  · intro worker file started
    rw [State.setChild, List.length_set]
    exact inv.placed worker file started
  · exact inv.given
  · intro other child' there'
    by_cases same : place = other
    · subst same
      rw [State.setChild, List.getElem?_set_self inside] at there'
      obtain rfl := Option.some.inj there'
      obtain ⟨held, started, -⟩ := inv.children place child there
      exact ⟨held, started, rfl⟩
    · rw [State.setChild, List.getElem?_set_ne same] at there'
      exact inv.children other child' there'
  · intro other
    by_cases same : place = other
    · subst same
      rw [State.setChild, List.getElem?_set_self inside]
      simp
    · rw [or_iff_left (Ne.symm same), State.setChild, List.getElem?_set_ne same]
      exact inv.exited other
  · exact inv.closed

theorem inv_step {onError : Errno → Reaction} {events : List Event} {next : State}
    (listening : Listening base listenfd) (inv : Inv base listenfd history state)
    (step : Step onError listenfd state events next) :
    Inv base listenfd (history ++ events) next := by
  cases step with
  | accept pc => exact inv_accept listening inv pc
  | acceptAgain pc reaction => exact inv.other _ (fun _ => nofun) fun _ => nofun
  | @acceptLeave errno pc reaction =>
    have holds := inv.parent
    rw [Parent.Holds, pc] at holds
    refine (inv.other (.acceptError errno) (fun _ => nofun) fun _ => nofun).moveParent rfl
      (fun _ => nofun) fun number => ?_
    exact iff_of_false (not_refers_nothingOpen _) (not_refers_base listening holds number)
  | @acceptGoOn errno pc reaction =>
    have holds := inv.parent
    rw [Parent.Holds, pc] at holds
    exact (inv.other (.acceptError errno) (fun _ => nofun) fun _ => nofun).moveParent
      ⟨none, .nothing holds, fun _ => nofun⟩ (fun _ => nofun) fun _ => Iff.rfl
  | fork buf pc => exact inv_fork inv pc _
  | forkError pc =>
    have holds := inv.parent
    rw [Parent.Holds, pc] at holds
    exact (inv.other .forkError (fun _ => nofun) fun _ => nofun).moveParent holds (fun _ => nofun)
      fun _ => Iff.rfl
  | close pc => exact inv_close listening inv pc
  | @closeListenfd place child there pc =>
    rw [List.append_nil]
    refine inv.moveChild there _ (fun held holds => ?_) (by rw [pc]; exact nofun) nofun
    rw [Child.Holds, pc] at holds
    exact ⟨child.table, holds, rfl⟩
  | @call place child call server there pc steps answers =>
    obtain ⟨held, started, holds⟩ := inv.children place child there
    have alive : child.pc ≠ .exited := by rw [pc]; exact nofun
    rw [holds.lookup listening pc]
    have inv' := inv.moveChild there { child with server := server }
      (fun held holds => holds) alive alive
    refine ⟨inv.assigned.call started call, ?_, inv'.parent, ?_, ?_, ?_, ?_⟩ <;>
      simp only [mem_concat, reduceCtorEq, or_false]
    · exact inv'.placed
    · exact inv'.given
    · exact inv'.children
    · exact inv'.exited
    · exact inv'.closed
  | exit there pc returned => exact inv_exit inv there

end Steps

/-! ### Every run -/

section Runs

variable {onError : Errno → Reaction} {base : Table File} {listenfd : Nat}
  {history : List Event} {state : State}

theorem inv_of_run (listening : Listening base listenfd)
    (run : Run (forkServer onError base listenfd) history state) :
    Inv base listenfd history state := by
  refine run.invariant (Inv base listenfd) ?_ fun _ _ _ _ => inv_step listening
  rintro _ _ ⟨rfl, rfl⟩
  refine ⟨assigned_nil, ?_, rfl, ?_, ?_, ?_, ?_⟩
  · exact fun worker file started => absurd started List.not_mem_nil
  · exact fun worker file started => absurd started List.not_mem_nil
  · intro place child there
    cases there
  · intro place
    simp
  · intro number
    simp

/-- What each child's `str_echo` has done. -/
def view (state : State) : Nat → Option Server := placed Child.server state.children

theorem moves_step {events : List Event} {next : State}
    (step : Step onError listenfd state events next) :
    Moves strEcho (view state) events (view next) := by
  cases step with
  | accept pc => exact .other _
  | acceptAgain pc reaction => exact .other _
  | acceptLeave pc reaction => exact .other _
  | acceptGoOn pc reaction => exact .other _
  | fork buf pc =>
    rw [view, view, placed_concat]
    refine .started ?_ ⟨rfl, rfl, rfl⟩
    rw [placed, List.getElem?_eq_none (Nat.le_refl _)]
    rfl
  | forkError pc => exact .other _
  | close pc => exact .other _
  | closeListenfd there pc =>
    rw [view, view, State.setChild, placed_set_same _ there]
    · exact .quiet
    · rfl
  | call there pc steps answers =>
    rw [view, view, State.setChild, placed_set _ there]
    refine .call ?_ ⟨_, steps, rfl⟩
    rw [placed, there]
    rfl
  | exit there pc returned =>
    rw [view, view, State.setChild, placed_set_same _ there]
    · exact .other _
    · rfl

/-- Standard input, output and error, and the listening socket. -/
def table3 : Table File where
  file fd := if fd < 3 then some (.inherited fd) else if fd = 3 then some .listening else none
  size := 4
  free fd outside := by rw [if_neg (by omega), if_neg (by omega)]

theorem listening_table3 : Listening table3 3 where
  listening := rfl
  none number := by
    rintro ⟨fd, refers⟩
    simp only [table3] at refers
    split_ifs at refers with low same <;> cases refers

/-- What the descriptor of a connection refers to once the child has closed the listening socket. -/
theorem lookup_serving (listening : Listening base listenfd) (file : File) :
    lookup ((base.install file).close listenfd) (some base.lowest) = some file := by
  have other : base.lowest ≠ listenfd := by
    intro same
    have free := base.file_lowest
    rw [same, listening.listening] at free
    cases free
  rw [lookup, Table.file_close_of_ne other, Table.file_install_lowest]

/-- A call on a connection. -/
theorem step_call {onError : Errno → Reaction} {place : Nat} {child : Child} {call : Call}
    {server : Server} {file : File} (there : state.children[place]? = some child)
    (pc : child.pc = .serving) (held : lookup child.table child.connfd = some file)
    (steps : StrEcho.Step child.server call server) :
    Step onError listenfd state [.call place (some file) call]
      (state.setChild place { child with server := server }) := by
  have answers : Answers (lookup child.table child.connfd) call := by
    rw [held]
    exact trivial
  have step : Step onError listenfd state _ _ := .call there pc steps answers
  rwa [held] at step

/-- A connection is accepted, and a child is forked for it, which reads two bytes and has written
the first of them. -/
theorem run_forked (onError : Errno → Reaction) : ∃ history state,
    Run (forkServer onError table3 3) history state ∧ 0 < state.connections ∧
      Event.other (.closed (some (.connection 0))) ∉ history ∧
      callsOn (.connection 0) history =
        [.read (.data [97, 98]), .write [97, 98] (.wrote 1)] := by
  have start : Run (forkServer onError table3 3) []
      { parent := { pc := .accept, table := table3 }, children := [], connections := 0 } :=
    .start ⟨rfl, rfl⟩
  have forked := (start.step (.accept rfl)).step (.fork [] rfl)
  have serving := forked.step (@Step.closeListenfd _ _ _ 0 _ rfl rfl)
  have held := lookup_serving listening_table3 (.connection 0)
  have nonempty : ([97, 98] : List Byte) ≠ [] := List.cons_ne_nil 97 [98]
  have fits : (ReadOutcome.data [97, 98]).Fits maxline := show 2 ≤ maxline by decide
  have reads := serving.step (@step_call _ _ _ 0 _ _ _ _ rfl rfl held (.read rfl fits))
  have writes := reads.step (@step_call _ _ _ 0 _ _ _ _ rfl rfl held
    (StrEcho.step_piece _ nonempty (show (WriteOutcome.wrote 1).Fits 2 from Nat.le_succ 1)))
  refine ⟨_, _, writes, Nat.one_pos, ?_, rfl⟩
  simp

/-- The calls on a connection are those of one `str_echo`. -/
theorem run_connection (listening : Listening base listenfd)
    (run : Run (forkServer onError base listenfd) history state) (number : Nat) :
    ∃ server, Run strEcho (callsOn (.connection number) history) server := by
  have follows := follows_of_run strEcho view
    (fun history state starts => by
      obtain ⟨rfl, rfl⟩ := starts
      exact ⟨rfl, fun _ => rfl⟩)
    (fun state events next => moves_step) run
  rcases run_on_resource (inv_of_run listening run).assigned follows (.connection number) with
    none | some'
  · rw [none]
    exact ⟨_, StrEcho.run_started⟩
  · exact some'

/-- Whatever the processes do in between each other, the calls on a connection are those of one
`str_echo`. So what has been written on it is a first part of what has been read from it, if it
takes nothing after a `write` that fails. -/
theorem connection_echoed (listening : Listening base listenfd)
    (run : Run (forkServer onError base listenfd) history state) (number : Nat) :
    (∃ server, Run strEcho (callsOn (.connection number) history) server) ∧
      (StrEcho.FailsForGood (callsOn (.connection number) history) →
        StrEcho.sent (callsOn (.connection number) history) <+:
          StrEcho.received (callsOn (.connection number) history)) := by
  obtain ⟨server, run'⟩ := run_connection listening run number
  exact ⟨⟨server, run'⟩, fun forGood => (StrEcho.inv_of_run run' forGood).front⟩

theorem connection_echoed_forked : ∃ history state,
    Run (forkServer tcpserv04 table3 3) history state ∧
      callsOn (.connection 0) history = [.read (.data [97, 98]), .write [97, 98] (.wrote 1)] ∧
      (∃ server, Run strEcho (callsOn (.connection 0) history) server) ∧
      StrEcho.sent (callsOn (.connection 0) history) <+:
        StrEcho.received (callsOn (.connection 0) history) := by
  obtain ⟨history, state, run, -, -, calls⟩ := run_forked tcpserv04
  obtain ⟨served, front⟩ := connection_echoed listening_table3 run 0
  refine ⟨history, state, run, calls, served, front ?_⟩
  rw [calls]
  decide

/-- Some child has a descriptor of a connection as long as the one it was forked for has not
exited. -/
theorem children_refer_iff (listening : Listening base listenfd)
    (run : Run (forkServer onError base listenfd) history state) (number : Nat) :
    (∃ (place : Nat) (child : Child), state.children[place]? = some child ∧
        child.table.Refers (.connection number)) ↔
      ∃ child, .started child (some (.connection number)) ∈ history ∧
        .other (.exited child) ∉ history := by
  have inv := inv_of_run listening run
  constructor
  · rintro ⟨place, child, there, refers⟩
    obtain ⟨held, started, holds⟩ := inv.children place child there
    obtain ⟨alive, rfl⟩ := (holds.refers_iff listening).mp refers
    refine ⟨place, started, fun gone => ?_⟩
    obtain ⟨child', there', finished⟩ := (inv.exited place).mp gone
    obtain rfl := Option.some.inj (there.symm.trans there')
    exact alive finished
  · rintro ⟨place, started, alive⟩
    have inside := inv.placed _ _ started
    have there := List.getElem?_eq_getElem inside
    obtain ⟨held, started', holds⟩ := inv.children place _ there
    have held' := inv.assigned.once _ _ _ started' started
    refine ⟨place, _, there, (holds.refers_iff listening).mpr ⟨fun finished => ?_, held'⟩⟩
    exact alive ((inv.exited place).mpr ⟨_, there, finished⟩)

/-- The parent has a descriptor of a connection until it has closed it. -/
theorem parent_refers_iff (listening : Listening base listenfd)
    (run : Run (forkServer onError base listenfd) history state) {number : Nat}
    (below : number < state.connections) :
    state.parent.table.Refers (.connection number) ↔
      .other (.closed (some (.connection number))) ∉ history := by
  rw [(inv_of_run listening run).closed number]
  simp [below]

theorem parent_accepting (listening : Listening base listenfd)
    (run : Run (forkServer onError base listenfd) history state)
    (pc : state.parent.pc = .accept) : state.parent.table.file = base.file := by
  have holds := (inv_of_run listening run).parent
  rw [Parent.Holds, pc] at holds
  exact holds

/-- A connection is open until the parent has closed it and the child it was forked for has exited,
however many others there are. At `accept` the parent has the descriptors it began with. -/
theorem connection_open_iff (listening : Listening base listenfd)
    (run : Run (forkServer onError base listenfd) history state) :
    (∀ number < state.connections, state.Open (.connection number) ↔
      .other (.closed (some (.connection number))) ∉ history ∨
        ∃ child, .started child (some (.connection number)) ∈ history ∧
          .other (.exited child) ∉ history) ∧
      (state.parent.pc = .accept → state.parent.table.file = base.file) := by
  refine ⟨fun number below => ?_, parent_accepting listening run⟩
  rw [State.Open, parent_refers_iff listening run below, children_refer_iff listening run number]

theorem connection_open_forked : ∃ history state,
    Run (forkServer unixstrserv01 table3 3) history state ∧ state.Open (.connection 0) := by
  obtain ⟨history, state, run, below, open', -⟩ := run_forked unixstrserv01
  exact ⟨history, state, run,
    ((connection_open_iff listening_table3 run).1 0 below).mpr (.inl open')⟩

end Runs

end SocketProgram.ForkServer
