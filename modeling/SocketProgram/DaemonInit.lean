/-
This file is about `lib/daemon_init.c` among the other processes of a system. The names are read as
they are meant: `_exit`, `daemon_init` and `daemon_proc`.

A terminal that the leader of a session opens becomes the controlling terminal of that session
if it has none. `daemon_init` forks for the first time so that `setsid` cannot fail, and for the
second time so that the process it returns in does not lead its session. The leader opens nothing
and terminates, and its number is not given away as long as the session has members. So a
daemon never gets a controlling terminal, whatever it opens, whatever the other processes do and
in whatever order they and the leader go on.
-/

import SocketProgram.Library.Descriptors
import SocketProgram.Library.Runs

namespace SocketProgram.DaemonInit

open Descriptors Runs

/-! ### The descriptors -/

/-- `O_RDONLY` and `O_RDWR`. -/
inductive Flags
  | rdonly
  | rdwr
  deriving DecidableEq, Repr

/-- What a descriptor refers to: `/dev/null`, or another file. -/
inductive File (Other : Type*)
  | devNull (flags : Flags)
  | other (file : Other)

variable {Other Terminal : Type*}

/-- `MAXFD`. -/
def maxfd : Nat := 64

/-- `open("/dev/null",flags)`. The descriptor it returns is not looked at. -/
def openDevNull (exist : Bool) (table : Table (File Other)) (flags : Flags) : Table (File Other) :=
  if exist then table.install (.devNull flags) else table

/-- The loop that closes the descriptors, and the three calls of `open`. -/
def redirect (exist : Bool) (table : Table (File Other)) : Table (File Other) :=
  [Flags.rdonly, .rdwr, .rdwr].foldl (openDevNull exist)
    ((List.range maxfd).foldl Table.close table)

/-- `open` takes this number when it is free and all numbers below it are taken. -/
theorem file_openDevNull {table : Table (File Other)} {fd : Nat} (free : table.file fd = none)
    (below : ∀ lower < fd, table.file lower ≠ none) (flags : Flags) :
    (openDevNull true table flags).file =
      Function.update table.file fd (some (.devNull flags)) := by
  rw [← Table.lowest_eq free below]
  rfl

/-- Calls of `open` on a table without gaps take the numbers that follow. -/
theorem file_foldl_openDevNull (flags : List Flags) {table : Table (File Other)} {size : Nat}
    (below : ∀ lower < size, table.file lower ≠ none)
    (free : ∀ fd, size ≤ fd → fd < size + flags.length → table.file fd = none) (fd : Nat) :
    (flags.foldl (openDevNull true) table).file fd =
      if fd < size then table.file fd
      else (flags[fd - size]?.map .devNull).or (table.file fd) := by
  induction flags generalizing table size with
  | nil => simp
  | cons first rest inductionHypothesis =>
    rw [List.length_cons] at free
    have opened := file_openDevNull (free size (Nat.le_refl _) (by omega)) below first
    rw [List.foldl_cons, @inductionHypothesis _ (size + 1) ?_ ?_, opened]
    · rcases Nat.lt_trichotomy fd size with before | same | behind
      · rw [if_pos (by omega), if_pos before, Function.update_of_ne (by omega)]
      · subst same
        simp
      · rw [if_neg (by omega), if_neg (by omega), Function.update_of_ne (by omega),
          show fd - size = fd - (size + 1) + 1 by omega, List.getElem?_cons_succ]
    · intro lower before
      rw [opened]
      by_cases last : lower = size
      · rw [last, Function.update_self]
        exact Option.some_ne_none _
      · rw [Function.update_of_ne last]
        exact below lower (by omega)
    · intro other behind inside
      rw [opened, Function.update_of_ne (by omega)]
      exact free other (by omega) (by omega)

/-- The loop that closes the descriptors. -/
theorem file_closed (table : Table (File Other)) (fd : Nat) :
    ((List.range maxfd).foldl Table.close table).file fd =
      if fd < maxfd then none else table.file fd := by
  rw [Table.file_foldl_close]
  exact if_congr List.mem_range rfl rfl

/-- Whatever was open, standard input and output are `/dev/null` if there is one, and nothing else
below `MAXFD` is open; what is above stays. -/
theorem file_redirect (exist : Bool) (table : Table (File Other)) (fd : Nat) :
    (redirect exist table).file fd =
      if maxfd ≤ fd then table.file fd
      else if exist = false then none
      else if fd = 0 then some (.devNull .rdonly)
      else if fd = 1 ∨ fd = 2 then some (.devNull .rdwr) else none := by
  cases exist with
  | false =>
    show ((List.range maxfd).foldl Table.close table).file fd = _
    rw [file_closed, if_pos rfl, ← ite_not]
    exact if_congr Nat.not_lt rfl rfl
  | true =>
    rw [redirect, @file_foldl_openDevNull _ _ _ 0 nofun ?_ fd, file_closed]
    · match fd with
      | 0 | 1 | 2 => simp [maxfd]
      | fd + 3 =>
        rcases Nat.lt_or_ge (fd + 3) maxfd with below | above
        · simp [below, below.not_ge]
        · simp [above, above.not_gt]
    · intro other _ inside
      rw [file_closed, if_pos]
      exact inside.trans (by decide)

/-! ### Processes -/

/-- Where a process is: in a `program` that may call `daemon_init`, at a call in `daemon_init`, or
in the program behind `daemon_init`, which is a `daemon`. -/
inductive Pc
  | program
  | fork
  | exit
  | setsid
  | signal
  | forkAgain
  | redirect
  | daemon
  deriving DecidableEq, Repr

/-- A process: its process group and its session, its descriptors, and what else `daemon_init`
changes: whether `SIGHUP` is ignored, the working directory is `/` and `daemon_proc` is set. -/
structure Process (Other : Type*) where
  pgid : Nat
  sid : Nat
  pc : Pc
  table : Table (File Other)
  ignoresSighup : Bool
  atRoot : Bool
  daemonProc : Bool

/-- The processes by their numbers, and the controlling terminals of the sessions. -/
structure World (Other Terminal : Type*) where
  process : Nat → Option (Process Other)
  terminal : Nat → Option Terminal

/-- `daemon_init` returns 0 in this process. -/
structure Returned (Other : Type*) where
  pid : Nat
  process : Process Other

/-- A process is new or has changed. -/
def World.set (world : World Other Terminal) (pid : Nat) (process : Process Other) :
    World Other Terminal :=
  { world with process := Function.update world.process pid (some process) }

/-- The process that calls `setsid` gets a session of its own, without a terminal. -/
def World.setsid (world : World Other Terminal) (pid : Nat) (process : Process Other) :
    World Other Terminal :=
  { world.set pid { process with pgid := pid, sid := pid } with
    terminal := Function.update world.terminal pid none }

/-- A process terminates. The terminal of a session is free when its leader has gone. -/
def World.exit (world : World Other Terminal) (pid : Nat) : World Other Terminal where
  process := Function.update world.process pid none
  terminal := Function.update world.terminal pid none

/-- A number for a new process: no process, process group or session has it. -/
structure World.Fresh (world : World Other Terminal) (child : Nat) : Prop where
  unused : world.process child = none
  noGroup : ∀ pid process, world.process pid = some process → process.pgid ≠ child
  noSession : ∀ pid process, world.process pid = some process → process.sid ≠ child

/-- Some process group has the number of this process, so that it cannot call `setsid`. -/
def World.LeadsGroup (world : World Other Terminal) (pid : Nat) : Prop :=
  ∃ other process, world.process other = some process ∧ process.pgid = pid

/-- One step of a process. A program may fork, call `setsid`, change its descriptors and what else
is its own, open terminals and terminate; so may a daemon, except that it does not call
`setsid`. -/
inductive Step (exist : Bool) :
    World Other Terminal → List (Returned Other) → World Other Terminal → Prop
  | call {world : World Other Terminal} {pid : Nat} {process : Process Other}
      (runs : world.process pid = some process) (pc : process.pc = .program) :
      Step exist world [] (world.set pid { process with pc := .fork })
  | fork {world : World Other Terminal} {pid child : Nat} {process : Process Other}
      (runs : world.process pid = some process) (pc : process.pc = .fork)
      (fresh : world.Fresh child) :
      Step exist world []
        ((world.set pid { process with pc := .exit }).set child { process with pc := .setsid })
  | setsid {world : World Other Terminal} {pid : Nat} {process : Process Other}
      (runs : world.process pid = some process) (pc : process.pc = .setsid)
      (permitted : ¬ world.LeadsGroup pid) :
      Step exist world [] (world.setsid pid { process with pc := .signal })
  | signal {world : World Other Terminal} {pid : Nat} {process : Process Other}
      (runs : world.process pid = some process) (pc : process.pc = .signal) :
      Step exist world [] (world.set pid { process with pc := .forkAgain, ignoresSighup := true })
  | forkAgain {world : World Other Terminal} {pid child : Nat} {process : Process Other}
      (runs : world.process pid = some process) (pc : process.pc = .forkAgain)
      (fresh : world.Fresh child) :
      Step exist world []
        ((world.set pid { process with pc := .exit }).set child { process with pc := .redirect })
  | redirect {world : World Other Terminal} {pid : Nat} {process : Process Other}
      (runs : world.process pid = some process) (pc : process.pc = .redirect)
      {returned : Process Other}
      (returns : returned = { process with
        pc := .daemon, table := DaemonInit.redirect exist process.table, daemonProc := true
        atRoot := true }) :
      Step exist world [⟨pid, returned⟩] (world.set pid returned)
  | fails {world : World Other Terminal} {pid : Nat} {process : Process Other}
      (runs : world.process pid = some process)
      (failure : process.pc = .fork ∨ process.pc = .forkAgain ∨
        process.pc = .setsid ∧ world.LeadsGroup pid) :
      Step exist world [] (world.set pid { process with pc := .program })
  | exit {world : World Other Terminal} {pid : Nat} {process : Process Other}
      (runs : world.process pid = some process)
      (ends : process.pc ∈ [Pc.exit, .program, .daemon]) : Step exist world [] (world.exit pid)
  | forkProgram {world : World Other Terminal} {pid child : Nat} {process : Process Other}
      (runs : world.process pid = some process) (own : process.pc ∈ [Pc.program, .daemon])
      (fresh : world.Fresh child) : Step exist world [] (world.set child process)
  | setsidProgram {world : World Other Terminal} {pid : Nat} {process : Process Other}
      (runs : world.process pid = some process) (pc : process.pc = .program)
      (permitted : ¬ world.LeadsGroup pid) : Step exist world [] (world.setsid pid process)
  | changes {world : World Other Terminal} {pid : Nat} {process : Process Other}
      (runs : world.process pid = some process) (own : process.pc ∈ [Pc.program, .daemon])
      (table : Table (File Other)) (ignoresSighup atRoot : Bool) :
      Step exist world [] (world.set pid
        { process with table := table, ignoresSighup := ignoresSighup, atRoot := atRoot })
  | opensTerminal {world : World Other Terminal} {pid : Nat} {process : Process Other}
      (runs : world.process pid = some process) (own : process.pc ∈ [Pc.program, .daemon])
      (leads : process.sid = pid) (terminal : Terminal) :
      Step exist world []
        { world with terminal := Function.update world.terminal pid (some terminal) }

/-- Any programs, in any sessions and at any terminals; `/dev/null` may `exist` or not. -/
def processes (exist : Bool) (Other Terminal : Type*) :
    System (World Other Terminal) (Returned Other) where
  start history world :=
    history = [] ∧ ∀ pid process, world.process pid = some process → process.pc = .program
  step := Step exist

/-! ### What every run keeps -/

/-- Nobody is in the way of the first child when it calls `setsid`. From then on it leads a session
without a terminal, and it only forks and terminates. The second child is in this session and
does not lead it; nobody leads it but a process that is about to terminate. -/
structure Inv (world : World Other Terminal) : Prop where
  permitted : ∀ pid process, world.process pid = some process → process.pc = .setsid →
    ¬ world.LeadsGroup pid
  leads : ∀ pid process, world.process pid = some process →
    process.pc = .signal ∨ process.pc = .forkAgain →
      process.sid = pid ∧ world.terminal pid = none
  follows : ∀ pid process, world.process pid = some process →
    process.pc = .redirect ∨ process.pc = .daemon →
      process.sid ≠ pid ∧ world.terminal process.sid = none ∧
        ∀ leader, world.process process.sid = some leader → leader.pc = .exit
  ignores : ∀ pid process, world.process pid = some process →
    process.pc = .forkAgain ∨ process.pc = .redirect → process.ignoresSighup = true

section Steps

variable {exist : Bool} {world next : World Other Terminal} {pid child : Nat}
  {process changed : Process Other} {events : List (Returned Other)}

theorem process_set (other : Nat) : (world.set pid changed).process other =
    if other = pid then some changed else world.process other := Function.update_apply _ _ _ _

theorem process_exit (other : Nat) : (world.exit pid).process other =
    if other = pid then none else world.process other := Function.update_apply _ _ _ _

theorem terminal_exit (session : Nat) : (world.exit pid).terminal session =
    if session = pid then none else world.terminal session := Function.update_apply _ _ _ _

/-- A process after a change is the one that has changed or was there before. -/
theorem of_process_set {other : Nat} {member : Process Other}
    (runs : (world.set pid changed).process other = some member) :
    other = pid ∧ member = changed ∨ other ≠ pid ∧ world.process other = some member := by
  rw [process_set] at runs
  split_ifs at runs with own
  · exact .inl ⟨own, (Option.some.inj runs).symm⟩
  · exact .inr ⟨own, runs⟩

/-- A process after another has terminated. -/
theorem of_process_exit {other : Nat} {member : Process Other}
    (runs : (world.exit pid).process other = some member) :
    other ≠ pid ∧ world.process other = some member := by
  rw [process_exit] at runs
  split_ifs at runs with own
  exact ⟨own, runs⟩

theorem leadsGroup_set {target group : Nat} (runs : world.process pid = some process)
    (pgid : changed.pgid = process.pgid)
    (leads : (world.set target changed).LeadsGroup group) : world.LeadsGroup group := by
  obtain ⟨other, member, runs', same⟩ := leads
  rcases of_process_set runs' with ⟨rfl, rfl⟩ | ⟨-, runs'⟩
  · exact ⟨pid, process, runs, pgid.symm.trans same⟩
  · exact ⟨other, member, runs', same⟩

/-- What changes in a process of the same group and session: it does not come to `setsid`, to the
lead of a session or into a daemon, and it goes on to terminate if it was to. -/
structure GoesOn (process changed : Process Other) : Prop where
  pgid : changed.pgid = process.pgid
  sid : changed.sid = process.sid
  setsid : changed.pc = .setsid → process.pc = .setsid
  leads : changed.pc = .signal ∨ changed.pc = .forkAgain →
    process.pc = .signal ∨ process.pc = .forkAgain
  follows : changed.pc = .redirect ∨ changed.pc = .daemon →
    process.pc = .redirect ∨ process.pc = .daemon
  exit : process.pc = .exit → changed.pc = .exit
  ignores : changed.pc = .forkAgain ∨ changed.pc = .redirect → changed.ignoresSighup = true

theorem Inv.goesOn (inv : Inv world) (runs : world.process pid = some process)
    (goesOn : GoesOn process changed) : Inv (world.set pid changed) := by
  have leader : ∀ sid, (∀ leader, world.process sid = some leader → leader.pc = .exit) →
      ∀ leader, (world.set pid changed).process sid = some leader → leader.pc = .exit := by
    intro sid ends leader runs'
    rcases of_process_set runs' with ⟨rfl, rfl⟩ | ⟨-, runs'⟩
    · exact goesOn.exit (ends process runs)
    · exact ends leader runs'
  refine ⟨?_, ?_, ?_, ?_⟩
  · intro other member runs' pc leads
    refine absurd (leadsGroup_set runs goesOn.pgid leads) ?_
    rcases of_process_set runs' with ⟨rfl, rfl⟩ | ⟨-, runs'⟩
    · exact inv.permitted other process runs (goesOn.setsid pc)
    · exact inv.permitted other member runs' pc
  · intro other member runs' pc
    rcases of_process_set runs' with ⟨rfl, rfl⟩ | ⟨-, runs'⟩
    · rw [goesOn.sid]
      exact inv.leads other process runs (goesOn.leads pc)
    · exact inv.leads other member runs' pc
  · intro other member runs' pc
    rcases of_process_set runs' with ⟨rfl, rfl⟩ | ⟨-, runs'⟩
    · obtain ⟨different, free, ends⟩ := inv.follows other process runs (goesOn.follows pc)
      rw [goesOn.sid]
      exact ⟨different, free, leader _ ends⟩
    · obtain ⟨different, free, ends⟩ := inv.follows other member runs' pc
      exact ⟨different, free, leader _ ends⟩
  · intro other member runs' pc
    rcases of_process_set runs' with ⟨rfl, rfl⟩ | ⟨-, runs'⟩
    · exact goesOn.ignores pc
    · exact inv.ignores other member runs' pc

theorem World.Fresh.ne (fresh : world.Fresh child) (runs : world.process pid = some process) :
    child ≠ pid := by
  rintro rfl
  rw [fresh.unused] at runs
  cases runs

/-- A number stays unused when a process with other numbers is new or changes. -/
theorem World.Fresh.set (fresh : world.Fresh child) (different : child ≠ pid)
    (pgid : changed.pgid ≠ child) (sid : changed.sid ≠ child) :
    (world.set pid changed).Fresh child := by
  refine ⟨?_, ?_, ?_⟩
  · rw [process_set, if_neg different]
    exact fresh.unused
  · intro other member runs'
    rcases of_process_set runs' with ⟨rfl, rfl⟩ | ⟨-, runs'⟩
    · exact pgid
    · exact fresh.noGroup other member runs'
  · intro other member runs'
    rcases of_process_set runs' with ⟨rfl, rfl⟩ | ⟨-, runs'⟩
    · exact sid
    · exact fresh.noSession other member runs'

/-- A number stays unused when a process with this group and session changes. -/
theorem World.Fresh.parent (fresh : world.Fresh child) (runs : world.process pid = some process)
    (pc : Pc) : (world.set pid { process with pc := pc }).Fresh child :=
  fresh.set (fresh.ne runs) (fresh.noGroup pid process runs) (fresh.noSession pid process runs)

theorem World.Fresh.setsid (fresh : world.Fresh child) (different : child ≠ pid) :
    (world.setsid pid changed).Fresh child := by
  have changes : (world.set pid { changed with pgid := pid, sid := pid }).Fresh child :=
    fresh.set different different.symm different.symm
  exact ⟨changes.unused, changes.noGroup, changes.noSession⟩

/-- A child is in the group and the session of its parent. -/
theorem Inv.forks (inv : Inv world) (fresh : world.Fresh child)
    (runs : world.process pid = some process) (pgid : changed.pgid = process.pgid)
    (sid : changed.sid = process.sid) (leads : ¬ (changed.pc = .signal ∨ changed.pc = .forkAgain))
    (follows : changed.pc = .redirect ∨ changed.pc = .daemon →
      world.terminal process.sid = none ∧
        ∀ leader, world.process process.sid = some leader → leader.pc = .exit)
    (ignores : changed.pc = .redirect → changed.ignoresSighup = true) :
    Inv (world.set child changed) := by
  have leader : ∀ sid, sid ≠ child →
      (∀ leader, world.process sid = some leader → leader.pc = .exit) →
      ∀ leader, (world.set child changed).process sid = some leader → leader.pc = .exit := by
    intro sid different ends leader runs'
    rcases of_process_set runs' with ⟨same, -⟩ | ⟨-, runs'⟩
    · exact absurd same different
    · exact ends leader runs'
  refine ⟨?_, ?_, ?_, ?_⟩
  · intro other member runs' pc group
    have group' := leadsGroup_set runs pgid group
    rcases of_process_set runs' with ⟨rfl, rfl⟩ | ⟨-, runs'⟩
    · obtain ⟨other', member', runs', same⟩ := group'
      exact fresh.noGroup other' member' runs' same
    · exact inv.permitted other member runs' pc group'
  · intro other member runs' pc
    rcases of_process_set runs' with ⟨rfl, rfl⟩ | ⟨-, runs'⟩
    · exact absurd pc leads
    · exact inv.leads other member runs' pc
  · intro other member runs' pc
    rcases of_process_set runs' with ⟨rfl, rfl⟩ | ⟨-, runs'⟩
    · have different := fresh.noSession pid process runs
      obtain ⟨free, ends⟩ := follows pc
      rw [sid]
      exact ⟨different, free, leader _ different ends⟩
    · obtain ⟨different, free, ends⟩ := inv.follows other member runs' pc
      exact ⟨different, free, leader _ (fresh.noSession other member runs') ends⟩
  · intro other member runs' pc
    rcases of_process_set runs' with ⟨rfl, rfl⟩ | ⟨-, runs'⟩
    · exact ignores (pc.resolve_left fun again => leads (.inr again))
    · exact inv.ignores other member runs' pc

/-- A session whose leader is about to terminate is not the one of a process that does something
else. -/
theorem Inv.session_ne (inv : Inv world) (runs : world.process pid = some process)
    (stays : process.pc ≠ .exit) {other : Nat} {member : Process Other}
    (runs' : world.process other = some member)
    (follows : member.pc = .redirect ∨ member.pc = .daemon) : member.sid ≠ pid := by
  rintro rfl
  exact stays ((inv.follows other member runs' follows).2.2 process runs)

theorem Inv.setsid (inv : Inv world) (runs : world.process pid = some process)
    (stays : process.pc ≠ .exit) (pc : changed.pc = .signal ∨ changed.pc = .program) :
    Inv (world.setsid pid changed) := by
  have others : ∀ {other : Nat} {member : Process Other},
      (world.setsid pid changed).process other = some member →
      other = pid ∧ member = { changed with pgid := pid, sid := pid } ∨
        other ≠ pid ∧ world.process other = some member := of_process_set
  refine ⟨?_, ?_, ?_, ?_⟩
  · rintro other member runs' pc' ⟨other', member', runs'', same⟩
    rcases others runs' with ⟨rfl, rfl⟩ | ⟨different, runs'⟩
    · rcases pc with pc | pc <;> exact absurd (pc.symm.trans pc') (by decide)
    · rcases others runs'' with ⟨rfl, rfl⟩ | ⟨-, runs''⟩
      · exact different same.symm
      · exact inv.permitted other member runs' pc' ⟨other', member', runs'', same⟩
  · intro other member runs' pc'
    rcases others runs' with ⟨rfl, rfl⟩ | ⟨different, runs'⟩
    · exact ⟨rfl, Function.update_self _ _ _⟩
    · refine ⟨(inv.leads other member runs' pc').1, ?_⟩
      exact (Function.update_of_ne different _ _).trans (inv.leads other member runs' pc').2
  · intro other member runs' pc'
    rcases others runs' with ⟨rfl, rfl⟩ | ⟨-, runs'⟩
    · rcases pc with pc | pc <;> rcases pc' with pc' | pc' <;>
        exact absurd (pc.symm.trans pc') (by decide)
    · have session := inv.session_ne runs stays runs' pc'
      obtain ⟨different, free, ends⟩ := inv.follows other member runs' pc'
      refine ⟨different, (Function.update_of_ne session _ _).trans free, fun leader leads => ?_⟩
      rcases others leads with ⟨same, -⟩ | ⟨-, leads⟩
      · exact absurd same session
      · exact ends leader leads
  · intro other member runs' pc'
    rcases others runs' with ⟨rfl, rfl⟩ | ⟨-, runs'⟩
    · rcases pc with pc | pc <;> rcases pc' with pc' | pc' <;>
        exact absurd (pc.symm.trans pc') (by decide)
    · exact inv.ignores other member runs' pc'

theorem Inv.exit (inv : Inv world) : Inv (world.exit pid) := by
  refine ⟨?_, ?_, ?_, ?_⟩
  · rintro other member runs' pc ⟨other', member', runs'', same⟩
    exact inv.permitted other member (of_process_exit runs').2 pc
      ⟨other', member', (of_process_exit runs'').2, same⟩
  · intro other member runs' pc
    obtain ⟨different, runs'⟩ := of_process_exit runs'
    obtain ⟨leads, free⟩ := inv.leads other member runs' pc
    rw [terminal_exit, if_neg different]
    exact ⟨leads, free⟩
  · intro other member runs' pc
    obtain ⟨different, free, ends⟩ := inv.follows other member (of_process_exit runs').2 pc
    refine ⟨different, ?_, fun leader leads => ends leader (of_process_exit leads).2⟩
    rw [terminal_exit, free, ite_self]
  · exact fun other member runs' => inv.ignores other member (of_process_exit runs').2

theorem Inv.opensTerminal (inv : Inv world) (runs : world.process pid = some process)
    (own : process.pc ∈ [Pc.program, .daemon]) (terminal : Terminal) :
    Inv { world with terminal := Function.update world.terminal pid (some terminal) } := by
  refine ⟨inv.permitted, ?_, ?_, inv.ignores⟩
  · intro other member runs' pc
    obtain ⟨leads, free⟩ := inv.leads other member runs' pc
    refine ⟨leads, (Function.update_of_ne ?_ _ _).trans free⟩
    rintro rfl
    rw [Option.some.inj (runs'.symm.trans runs)] at pc
    rcases pc with pc | pc <;> simp [pc] at own
  · intro other member runs' pc
    have stays : process.pc ≠ .exit := fun exits => by simp [exits] at own
    have session := inv.session_ne runs stays runs' pc
    obtain ⟨different, free, ends⟩ := inv.follows other member runs' pc
    exact ⟨different, (Function.update_of_ne session _ _).trans free, ends⟩

theorem inv_step (inv : Inv world) (steps : Step exist world events next) : Inv next := by
  cases steps with
  | call runs pc => exact inv.goesOn runs ⟨rfl, rfl, nofun, by simp, by simp, by simp [pc], by simp⟩
  | @fork pid child process runs pc fresh =>
    have parent : Inv (world.set pid { process with pc := .exit }) :=
      inv.goesOn runs ⟨rfl, rfl, nofun, by simp, by simp, fun _ => rfl, by simp⟩
    exact parent.forks (fresh.parent runs .exit) (Function.update_self _ _ _) rfl rfl (by simp)
      (by simp) nofun
  | setsid runs pc permitted => exact inv.setsid runs (by simp [pc]) (.inl rfl)
  | signal runs pc =>
    exact inv.goesOn runs
      ⟨rfl, rfl, nofun, fun _ => .inl pc, by simp, by simp [pc], fun _ => rfl⟩
  | @forkAgain pid child process runs pc fresh =>
    have parent : Inv (world.set pid { process with pc := .exit }) :=
      inv.goesOn runs ⟨rfl, rfl, nofun, by simp, by simp, fun _ => rfl, by simp⟩
    obtain ⟨leads, free⟩ := inv.leads pid process runs (.inr pc)
    refine parent.forks (fresh.parent runs .exit) (Function.update_self _ _ _) rfl rfl (by simp)
      (fun _ => ⟨?_, fun leader runs' => ?_⟩) fun _ => inv.ignores pid process runs (.inl pc)
    · rw [leads]
      exact free
    · rw [leads] at runs'
      rcases of_process_set runs' with ⟨-, rfl⟩ | ⟨different, -⟩
      · rfl
      · exact absurd rfl different
  | redirect runs pc returns =>
    subst returns
    exact inv.goesOn runs
      ⟨rfl, rfl, nofun, by simp, fun _ => .inl pc, by simp [pc], by simp⟩
  | fails runs failure =>
    refine inv.goesOn runs ⟨rfl, rfl, nofun, by simp, by simp, fun exits => ?_, by simp⟩
    simp [exits] at failure
  | exit runs ends => exact inv.exit
  | @forkProgram pid child process runs own fresh =>
    refine inv.forks fresh runs rfl rfl ?_ (fun follows => ?_) ?_
    · rintro (pc | pc) <;> simp [pc] at own
    · exact (inv.follows pid process runs follows).2
    · intro pc
      simp [pc] at own
  | setsidProgram runs pc permitted => exact inv.setsid runs (by simp [pc]) (.inr pc)
  | changes runs own table ignoresSighup atRoot =>
    refine inv.goesOn runs ⟨rfl, rfl, id, id, id, id, fun pc => ?_⟩
    dsimp only at pc
    rcases pc with pc | pc <;> simp [pc] at own
  | opensTerminal runs own leads terminal => exact inv.opensTerminal runs own terminal

end Steps

section Runs

variable {exist : Bool} {history : List (Returned Other)} {world : World Other Terminal}

theorem inv_run (run : Run (processes exist Other Terminal) history world) : Inv world := by
  refine run.invariant (fun _ world => Inv world) ?_ fun _ _ _ _ inv steps => inv_step inv steps
  rintro history world ⟨-, programs⟩
  refine ⟨?_, ?_, ?_, ?_⟩
  · intro pid process runs pc
    rw [programs pid process runs] at pc
    cases pc
  all_goals
    intro pid process runs pc
    rw [programs pid process runs] at pc
    rcases pc with pc | pc <;> cases pc

/-- Whatever programs do and in whatever order, a process that `daemon_init` has returned 0 in, and
every child it forks, is in a session that it does not lead and that has no controlling
terminal. In between, `setsid` does not fail. -/
theorem never_acquires_terminal (run : Run (processes exist Other Terminal) history world)
    (pid : Nat) {process : Process Other} (runs : world.process pid = some process) :
    (process.pc = .setsid → ¬ world.LeadsGroup pid) ∧
      (process.pc = .daemon → process.sid ≠ pid ∧ world.terminal process.sid = none) := by
  have inv := inv_run run
  refine ⟨inv.permitted pid process runs, fun daemon => ?_⟩
  obtain ⟨different, free, -⟩ := inv.follows pid process runs (.inr daemon)
  exact ⟨different, free⟩

/-- Wherever `daemon_init` returns 0, `SIGHUP` is ignored, the working directory is `/`,
`daemon_proc` is set, and below `MAXFD` only the three descriptors of `/dev/null` are open. Where
`/dev/null` cannot be opened, it returns 0 as well, and none is. -/
theorem returned_as_daemon (run : Run (processes exist Other Terminal) history world)
    {returned : Returned Other} (member : returned ∈ history) :
    returned.process.sid ≠ returned.pid ∧ returned.process.ignoresSighup = true ∧
      returned.process.atRoot = true ∧ returned.process.daemonProc = true ∧
        ∀ fd < maxfd, returned.process.table.file fd =
          if exist = false then none
          else if fd = 0 then some (.devNull .rdonly)
          else if fd = 1 ∨ fd = 2 then some (.devNull .rdwr) else none := by
  have reaches := run.reachable
  refine reaches.invariant (fun history _ => ∀ returned ∈ history,
    returned.process.sid ≠ returned.pid ∧ returned.process.ignoresSighup = true ∧
      returned.process.atRoot = true ∧ returned.process.daemonProc = true ∧
        ∀ fd < maxfd, returned.process.table.file fd =
          if exist = false then none
          else if fd = 0 then some (.devNull .rdonly)
          else if fd = 1 ∨ fd = 2 then some (.devNull .rdwr) else none) ?_ ?_ returned member
  · rintro history world ⟨rfl, -⟩ returned member
    cases member
  · rintro history world events next before ⟨steps, earlier, run⟩ returned member
    refine (List.mem_append.mp member).elim (before returned) fun new => ?_
    have inv := inv_run run
    cases steps with
    | @redirect pid process runs pc _ returns =>
      subst returns
      cases List.mem_singleton.mp new
      refine ⟨(inv.follows pid process runs (.inl pc)).1, inv.ignores pid process runs (.inr pc),
        rfl, rfl, fun fd inside => ?_⟩
      dsimp only
      rw [file_redirect, if_neg inside.not_ge]
    | _ => cases new

end Runs

/-! ### A shell that starts a daemon -/

/-- A shell at a terminal. -/
def shell : Process Unit where
  pgid := 1
  sid := 1
  pc := .program
  table := ⟨fun _ => none, 0, fun _ _ => rfl⟩
  ignoresSighup := false
  atRoot := false
  daemonProc := false

/-- The shell has the number 1 and leads its session. -/
def atTerminal : World Unit Unit where
  process pid := if pid = 1 then some shell else none
  terminal session := if session = 1 then some () else none

theorem fresh_atTerminal {child : Nat} (other : child ≠ 1) : atTerminal.Fresh child := by
  have shells : ∀ pid process, atTerminal.process pid = some process → process = shell := by
    intro pid process runs
    simp only [atTerminal] at runs
    split_ifs at runs
    exact (Option.some.inj runs).symm
  refine ⟨if_neg other, ?_, ?_⟩
  · intro pid process runs
    rw [shells pid process runs]
    exact other.symm
  · intro pid process runs
    rw [shells pid process runs]
    exact other.symm

/-- The shell calls `daemon_init`, its child is 2, and the daemon is 3. -/
theorem run_daemon : ∃ (world : World Unit Unit) (returned : Process Unit),
    Run (processes true Unit Unit) [⟨3, returned⟩] world ∧ world.process 3 = some returned ∧
      returned.pc = .daemon := by
  have start : Run (processes true Unit Unit) [] atTerminal := by
    refine .start ⟨rfl, fun pid process runs => ?_⟩
    simp only [atTerminal] at runs
    split_ifs at runs
    cases runs
    rfl
  have call := start.step (@Step.call _ _ _ _ 1 shell rfl rfl)
  have called : ∀ child, child ≠ 1 →
      (atTerminal.set 1 { shell with pc := .fork }).Fresh child :=
    fun child other => (fresh_atTerminal other).set other other.symm other.symm
  have fork := call.step (@Step.fork _ _ _ _ 1 2 _ rfl rfl (called 2 (by decide)))
  have setsid := fork.step (@Step.setsid _ _ _ _ 2 _ rfl rfl ((inv_run fork).permitted 2 _ rfl rfl))
  have signal := setsid.step (@Step.signal _ _ _ _ 2 _ rfl rfl)
  have forkAgain := signal.step (@Step.forkAgain _ _ _ _ 2 3 _ rfl rfl
    (((((called 3 (by decide)).parent rfl .exit).set (by decide) (by decide) (by decide)).setsid
      (by decide)).set (by decide) (by decide) (by decide)))
  have redirect := forkAgain.step (@Step.redirect _ _ _ _ 3 _ rfl rfl _ rfl)
  exact ⟨_, _, redirect, rfl, rfl⟩

theorem never_acquires_terminal_daemon : ∃ (world : World Unit Unit) (daemon : Process Unit),
    world.process 3 = some daemon ∧ daemon.sid ≠ 3 ∧ world.terminal daemon.sid = none := by
  obtain ⟨world, daemon, run, runs, pc⟩ := run_daemon
  exact ⟨world, daemon, runs, (never_acquires_terminal run 3 runs).2 pc⟩

theorem returned_as_daemon_shell : ∃ daemon : Process Unit,
    daemon.ignoresSighup = true ∧ daemon.table.file 1 = some (.devNull .rdwr) := by
  obtain ⟨world, daemon, run, -⟩ := run_daemon
  obtain ⟨-, ignores, -, -, descriptors⟩ :=
    returned_as_daemon run (List.mem_singleton_self (⟨3, daemon⟩ : Returned Unit))
  exact ⟨daemon, ignores, descriptors 1 (by decide)⟩

end SocketProgram.DaemonInit
