/-
This file models how the server of `unixdomain/unixstrserv01.c` gets rid of the children it
forks. A child that has terminated stays in the kernel until its parent waits for it; the
kernel posts `SIGCHLD`, and `sig_child` of `tcpcliserv/sigchldwaitpid.c` waits.

One signal can stand for many children, because no more than one is pending at a time. That is
why the handler goes on until `waitpid` finds nobody: whoever has terminated by then is gone,
and whoever terminates later posts the signal again, which is held back until the handler has
returned. It does return: `main` forks nobody in the meantime, and every child is waited for once.
-/

import Mathlib.Data.Finset.Card
import SocketProgram.Kernel
import SocketProgram.Library.Interrupts

namespace SocketProgram.ChildReaping

open Runs

/-! ### The server and its handler -/

/-- Where `main` is in its `for(;;)`. -/
inductive MainPc
  | accept
  | fork (connfd : Int)
  | close (connfd : Int)
  deriving DecidableEq, Repr

/-- Where `sig_child` is. -/
inductive HandlerPc
  | waitpid
  | printf (pid : Int)
  | leave
  deriving DecidableEq, Repr

/-- The server, its children, and whether `SIGCHLD` is pending. `zombies` are the children that
have terminated and have not been waited for. -/
structure State where
  main : MainPc
  handler : Option HandlerPc
  running : Finset Int
  zombies : Finset Int
  pending : Bool

/-- What is seen of a run. -/
inductive Event
  | acceptError
  | forked (childpid : Int)
  | closed (connfd : Int)
  | exited (pid : Int)
  | terminated (pid : Int)
  deriving DecidableEq, Repr

/-- What `accept` returns. -/
inductive Accepted
  | connection (connfd : Int)
  | error (errno : Errno)
  deriving DecidableEq, Repr

/-- One statement of `main`, with what `accept` and `fork` return in it. -/
def State.executeMain (accepted : Accepted) (childpid : Int) (state : State) :
    List Event × State :=
  match state.main with
  | .accept =>
    match accepted with
    | .connection connfd => ([], { state with main := .fork connfd })
    | .error errno =>
      if errno = .eintr then ([], state)
      else ([.acceptError], { state with main := .fork (-1) })
  | .fork connfd =>
    ([.forked childpid], { state with
      main := .close connfd
      running := if childpid < 0 then state.running else insert childpid state.running })
  | .close connfd => ([.closed connfd], { state with main := .accept })

/-- `waitpid(-1,&stat,WNOHANG)` when the kernel picks this child, with what it returns. -/
def State.waitpid (state : State) (pid : Int) : Option (Int × State) :=
  if state.zombies = ∅ then some (if state.running = ∅ then -1 else 0, state)
  else if pid ∈ state.zombies then some (pid, { state with zombies := state.zombies.erase pid })
  else none

/-- One statement of `sig_child`. -/
def State.executeHandler (pid : Int) (state : State) : HandlerPc → Option (List Event × State)
  | .waitpid =>
    (state.waitpid pid).map fun (value, state) =>
      ([], { state with handler := some (if 0 < value then .printf value else .leave) })
  | .printf pid => some ([.terminated pid], { state with handler := some .waitpid })
  | .leave => some ([], { state with handler := none })

/-- What `fork` can return: it fails, or there is a new child with a number of its own. -/
def State.MayFork (state : State) (childpid : Int) : Prop :=
  childpid = -1 ∨ 0 < childpid ∧ childpid ∉ state.running ∧ childpid ∉ state.zombies

/-- One statement of the server: of the handler while it runs. -/
def Executes (state : State) (events : List Event) (next : State) : Prop :=
  match state.handler with
  | none => ∃ accepted childpid, state.MayFork childpid ∧
      state.executeMain accepted childpid = (events, next)
  | some pc => ∃ pid, state.executeHandler pid pc = some (events, next)

/-- `SIGCHLD` is delivered: it is pending and the handler does not run. -/
inductive Delivers : State → List Event → State → Prop
  | sigchld {state : State} (pending : state.pending = true) (outside : state.handler = none) :
      Delivers state [] { state with pending := false, handler := some .waitpid }

/-- A child terminates, in whatever way, and the kernel posts `SIGCHLD`. -/
inductive Exits : State → List Event → State → Prop
  | child {state : State} (pid : Int) (runs : pid ∈ state.running) :
      Exits state [.exited pid] { state with
        running := state.running.erase pid
        zombies := insert pid state.zombies
        pending := true }

/-- The server from its `for(;;)` on, where `signal(SIGCHLD,sig_child)` is behind it. -/
def unixstrserv : Process State Event where
  begins state :=
    state.main = .accept ∧ state.handler = none ∧ state.running = ∅ ∧ state.zombies = ∅ ∧
      state.pending = false
  instruction := Executes
  delivery := Delivers
  outside := Exits

/-! ### No child is forgotten -/

/-- What every run keeps. The numbers of children are positive, so that the handler takes
`waitpid` at its word; and a child to wait for has its signal pending, unless the handler will
call `waitpid` again. Nobody has terminated and runs. -/
structure Inv (state : State) : Prop where
  running : ∀ pid ∈ state.running, 0 < pid
  zombies : ∀ pid ∈ state.zombies, 0 < pid
  apart : ∀ pid ∈ state.running, pid ∉ state.zombies
  posted : state.zombies ≠ ∅ → state.handler = none ∨ state.handler = some .leave →
    state.pending = true

theorem inv_begins (state : State) (begins : unixstrserv.begins state) : Inv state := by
  obtain ⟨-, -, running, zombies, -⟩ := begins
  refine ⟨?_, ?_, ?_, fun waiting => absurd zombies waiting⟩
  · rw [running]
    exact fun pid member => absurd member (Finset.notMem_empty pid)
  · rw [zombies]
    exact fun pid member => absurd member (Finset.notMem_empty pid)
  · rw [running]
    exact fun pid member => absurd member (Finset.notMem_empty pid)

/-- `main` makes running children and nothing else. -/
theorem inv_executeMain {state next : State} {events : List Event} {accepted : Accepted}
    {childpid : Int} (inv : Inv state) (mayFork : state.MayFork childpid)
    (executes : state.executeMain accepted childpid = (events, next)) : Inv next := by
  unfold State.executeMain at executes
  split at executes
  · split at executes
    · cases executes
      exact ⟨inv.running, inv.zombies, inv.apart, inv.posted⟩
    · split_ifs at executes
      · cases executes
        exact inv
      · cases executes
        exact ⟨inv.running, inv.zombies, inv.apart, inv.posted⟩
  · cases executes
    by_cases failed : childpid < 0
    · rw [if_pos failed]
      exact ⟨inv.running, inv.zombies, inv.apart, inv.posted⟩
    · rw [if_neg failed]
      rcases mayFork with rfl | ⟨positive, -, fresh⟩
      · exact absurd (by decide) failed
      · exact ⟨(Finset.forall_mem_insert _ _ _).mpr ⟨positive, inv.running⟩, inv.zombies,
          (Finset.forall_mem_insert _ _ _).mpr ⟨fresh, inv.apart⟩, inv.posted⟩
  · cases executes
    exact ⟨inv.running, inv.zombies, inv.apart, inv.posted⟩

/-- What a call of `waitpid` does in a handler: there is nobody to wait for and the handler is about
to leave, or a child is gone and is about to be printed. -/
theorem waitpid_cases {state next : State} {events : List Event} {pid : Int} (inv : Inv state)
    (executes : state.executeHandler pid .waitpid = some (events, next)) :
    events = [] ∧ (state.zombies = ∅ ∧ next = { state with handler := some .leave } ∨
      pid ∈ state.zombies ∧ next = { state with
        handler := some (.printf pid), zombies := state.zombies.erase pid }) := by
  obtain ⟨⟨value, waited⟩, waits, same⟩ := Option.map_eq_some_iff.mp executes
  obtain ⟨rfl, rfl⟩ := Prod.mk.inj same
  unfold State.waitpid at waits
  split_ifs at waits with nobody nochild member
  · obtain ⟨rfl, rfl⟩ := Prod.mk.inj (Option.some.inj waits)
    exact ⟨rfl, .inl ⟨nobody, rfl⟩⟩
  · obtain ⟨rfl, rfl⟩ := Prod.mk.inj (Option.some.inj waits)
    exact ⟨rfl, .inl ⟨nobody, rfl⟩⟩
  · obtain ⟨rfl, rfl⟩ := Prod.mk.inj (Option.some.inj waits)
    refine ⟨rfl, .inr ⟨member, ?_⟩⟩
    rw [if_pos (inv.zombies pid member)]

/-- The handler leaves its loop only when there is nobody to wait for. -/
theorem inv_executeHandler {state next : State} {events : List Event} {pid : Int}
    {pc : HandlerPc} (inv : Inv state) (inside : state.handler = some pc)
    (executes : state.executeHandler pid pc = some (events, next)) : Inv next := by
  cases pc with
  | waitpid =>
    obtain ⟨-, ⟨nobody, rfl⟩ | ⟨member, rfl⟩⟩ := waitpid_cases inv executes
    · exact ⟨inv.running, inv.zombies, inv.apart, fun waiting => absurd nobody waiting⟩
    · refine ⟨inv.running, fun other left => inv.zombies other (Finset.mem_of_mem_erase left),
        fun other runs left => inv.apart other runs (Finset.mem_of_mem_erase left), ?_⟩
      rintro - (same | same) <;> cases same
  | printf pid =>
    obtain ⟨-, rfl⟩ := Prod.mk.inj (Option.some.inj executes)
    refine ⟨inv.running, inv.zombies, inv.apart, ?_⟩
    rintro - (same | same) <;> cases same
  | leave =>
    obtain ⟨-, rfl⟩ := Prod.mk.inj (Option.some.inj executes)
    exact ⟨inv.running, inv.zombies, inv.apart, fun waiting _ => inv.posted waiting (.inr inside)⟩

theorem inv_delivers {state next : State} {events : List Event} (inv : Inv state)
    (delivers : Delivers state events next) : Inv next := by
  obtain ⟨pending, outside⟩ := delivers
  refine ⟨inv.running, inv.zombies, inv.apart, ?_⟩
  rintro - (same | same) <;> cases same

/-- A child that terminates has its signal posted. -/
theorem inv_exits {state next : State} {events : List Event} (inv : Inv state)
    (exits : Exits state events next) : Inv next := by
  obtain ⟨pid, runs⟩ := exits
  refine ⟨fun other left => inv.running other (Finset.mem_of_mem_erase left), ?_, ?_,
    fun _ _ => rfl⟩
  · exact (Finset.forall_mem_insert _ _ _).mpr ⟨inv.running pid runs, inv.zombies⟩
  · intro other left waiting
    obtain ⟨different, runs'⟩ := Finset.mem_erase.mp left
    exact inv.apart other runs' ((Finset.mem_insert.mp waiting).resolve_left different)

/-! ### Every child is waited for -/

/-- The child that the handler has waited for and not printed. -/
def HandlerPc.inHand : HandlerPc → List Int
  | .printf pid => [pid]
  | .waitpid | .leave => []

/-- The child that has been waited for and not been printed. -/
def State.inHand (state : State) : List Int := state.handler.elim [] HandlerPc.inHand

/-- A child that has terminated is in the kernel, in the hand of the handler, or printed; and as
often as it was the number of a child. -/
def Accounts (history : List Event) (state : State) : Prop :=
  ∀ pid, history.count (.exited pid) =
    history.count (.terminated pid) + state.inHand.count pid + if pid ∈ state.zombies then 1 else 0

theorem Accounts.keeps {history events : List Event} {state next : State}
    (accounts : Accounts history state)
    (silent : ∀ pid, events.count (.exited pid) = 0 ∧ events.count (.terminated pid) = 0)
    (inHand : next.inHand = state.inHand) (zombies : next.zombies = state.zombies) :
    Accounts (history ++ events) next := by
  intro pid
  rw [List.count_append, List.count_append, (silent pid).1, (silent pid).2, inHand, zombies]
  exact accounts pid

/-- `main` neither lets a child terminate nor waits for one. -/
theorem accounts_executeMain {history events : List Event} {state next : State}
    {accepted : Accepted} {childpid : Int} (accounts : Accounts history state)
    (executes : state.executeMain accepted childpid = (events, next)) :
    Accounts (history ++ events) next := by
  unfold State.executeMain at executes
  split at executes
  · split at executes
    · cases executes
      exact accounts.keeps (fun pid => ⟨rfl, rfl⟩) rfl rfl
    · split_ifs at executes <;> cases executes <;>
        exact accounts.keeps (fun pid => ⟨rfl, rfl⟩) rfl rfl
  · cases executes
    exact accounts.keeps (fun pid => ⟨rfl, rfl⟩) rfl rfl
  · cases executes
    exact accounts.keeps (fun pid => ⟨rfl, rfl⟩) rfl rfl

/-- The handler takes a child from the kernel into its hand, and prints it. -/
theorem accounts_executeHandler {history events : List Event} {state next : State} {pid : Int}
    {pc : HandlerPc} (inv : Inv state) (accounts : Accounts history state)
    (inside : state.handler = some pc)
    (executes : state.executeHandler pid pc = some (events, next)) :
    Accounts (history ++ events) next := by
  have hand : state.inHand = pc.inHand := by
    rw [State.inHand, inside]
    rfl
  cases pc with
  | waitpid =>
    obtain ⟨rfl, ⟨nobody, rfl⟩ | ⟨member, rfl⟩⟩ := waitpid_cases inv executes
    · exact accounts.keeps (fun pid => ⟨rfl, rfl⟩) hand.symm rfl
    · intro other
      have before := accounts other
      rw [hand] at before
      rw [List.append_nil, before]
      show _ + 0 + _ = _ + [pid].count other + if other ∈ state.zombies.erase pid then 1 else 0
      by_cases same : other = pid
      · simp [same, member]
      · simp [same, Ne.symm same]
  | printf pid =>
    obtain ⟨rfl, rfl⟩ := Prod.mk.inj (Option.some.inj executes)
    intro other
    have before := accounts other
    rw [hand] at before
    rw [List.count_append, List.count_append, before]
    show _ + [pid].count other + _ + 0 =
      _ + [Event.terminated pid].count (.terminated other) + 0 + _
    simp only [List.count_singleton, beq_iff_eq, Event.terminated.injEq]
    omega
  | leave =>
    obtain ⟨rfl, rfl⟩ := Prod.mk.inj (Option.some.inj executes)
    exact accounts.keeps (fun pid => ⟨rfl, rfl⟩) hand.symm rfl

/-- A child that terminates was not there before. -/
theorem accounts_exits {history events : List Event} {state next : State} (inv : Inv state)
    (accounts : Accounts history state) (exits : Exits state events next) :
    Accounts (history ++ events) next := by
  obtain ⟨pid, runs⟩ := exits
  intro other
  have before := accounts other
  have absent := inv.apart pid runs
  rw [List.count_append, List.count_append, before]
  show _ + [Event.exited pid].count (.exited other) = _ + 0 + state.inHand.count other +
    if other ∈ insert pid state.zombies then 1 else 0
  by_cases same : other = pid
  · simp [same, absent]
  · simp [same, Ne.symm same]

theorem accounts_run {history : List Event} {state : State}
    (run : Run unixstrserv.system history state) : Inv state ∧ Accounts history state := by
  refine Process.invariant (fun history state => Inv state ∧ Accounts history state) ?_ ?_ ?_ ?_ run
  · intro state begins
    refine ⟨inv_begins state begins, fun pid => ?_⟩
    obtain ⟨-, outside, -, nobody, -⟩ := begins
    rw [State.inHand, outside, nobody]
    rfl
  · rintro history state events next ⟨inv, accounts⟩ executes
    cases handler : state.handler with
    | none =>
      simp only [unixstrserv, Executes, handler] at executes
      obtain ⟨accepted, childpid, mayFork, executes⟩ := executes
      exact ⟨inv_executeMain inv mayFork executes, accounts_executeMain accounts executes⟩
    | some pc =>
      simp only [unixstrserv, Executes, handler] at executes
      obtain ⟨pid, executes⟩ := executes
      exact ⟨inv_executeHandler inv handler executes,
        accounts_executeHandler inv accounts handler executes⟩
  · rintro history state events next ⟨inv, accounts⟩ delivers
    refine ⟨inv_delivers inv delivers, ?_⟩
    obtain ⟨pending, outside⟩ := delivers
    refine accounts.keeps (fun pid => ⟨rfl, rfl⟩) ?_ rfl
    rw [State.inHand, State.inHand, outside]
    rfl
  · rintro history state events next ⟨inv, accounts⟩ exits
    exact ⟨inv_exits inv exits, accounts_exits inv accounts exits⟩

/-! ### The handler returns -/

/-- An upper bound of what the handler still has to do. -/
def State.work (state : State) : Nat :=
  2 * (state.running.card + state.zombies.card) +
    match state.handler with
    | none => 0
    | some .leave => 1
    | some .waitpid => 2
    | some (.printf _) => 3

/-- A statement of the handler takes something off what it has to do. -/
theorem work_executeHandler {state next : State} {events : List Event} {pid : Int}
    {pc : HandlerPc} (inv : Inv state) (inside : state.handler = some pc)
    (executes : state.executeHandler pid pc = some (events, next)) : next.work < state.work := by
  cases pc with
  | waitpid =>
    obtain ⟨-, ⟨nobody, rfl⟩ | ⟨member, rfl⟩⟩ := waitpid_cases inv executes
    · simp only [State.work, inside]
      omega
    · have fewer := Finset.card_erase_lt_of_mem member
      simp only [State.work, inside]
      omega
  | printf pid =>
    obtain ⟨-, rfl⟩ := Prod.mk.inj (Option.some.inj executes)
    simp only [State.work, inside]
    omega
  | leave =>
    obtain ⟨-, rfl⟩ := Prod.mk.inj (Option.some.inj executes)
    simp only [State.work, inside]
    omega

/-- A child that terminates gives it no more to do. -/
theorem work_exits {state next : State} {events : List Event} (exits : Exits state events next) :
    next.work ≤ state.work := by
  obtain ⟨pid, runs⟩ := exits
  have fewer := Finset.card_erase_lt_of_mem runs
  have more := Finset.card_insert_le pid state.zombies
  simp only [State.work]
  omega

/-- The handler can always go on. -/
theorem exists_executeHandler (state : State) (pc : HandlerPc) :
    ∃ pid events next, state.executeHandler pid pc = some (events, next) := by
  cases pc with
  | waitpid =>
    rcases state.zombies.eq_empty_or_nonempty with nobody | ⟨pid, member⟩
    · refine ⟨0, ?_⟩
      rw [State.executeHandler, State.waitpid, if_pos nobody]
      exact ⟨_, _, rfl⟩
    · refine ⟨pid, ?_⟩
      rw [State.executeHandler, State.waitpid, if_neg (Finset.ne_empty_of_mem member),
        if_pos member]
      exact ⟨_, _, rfl⟩
  | printf pid => exact ⟨0, _, _, rfl⟩
  | leave => exact ⟨0, _, _, rfl⟩

/-- While the handler runs it can go on, and every statement of it takes something off what it has
to do, to which nothing is added. -/
theorem step_handler {state : State} {pc : HandlerPc} (inv : Inv state)
    (inside : state.handler = some pc) :
    (∃ events next, Executes state events next) ∧
      (∀ events next, Executes state events next → next.work < state.work) ∧
      ∀ events next, unixstrserv.system.step state events next → next.work ≤ state.work := by
  have executed (events : List Event) (next : State) (executes : Executes state events next) :
      next.work < state.work := by
    simp only [Executes, inside] at executes
    obtain ⟨pid, executes⟩ := executes
    exact work_executeHandler inv inside executes
  refine ⟨?_, executed, fun events next steps => ?_⟩
  · obtain ⟨pid, events, next, executes⟩ := exists_executeHandler state pc
    refine ⟨events, next, ?_⟩
    simp only [Executes, inside]
    exact ⟨pid, executes⟩
  · cases steps with
    | instruction executes => exact (executed events next executes).le
    | delivery delivers =>
      obtain ⟨-, outside⟩ := delivers
      rw [inside] at outside
      cases outside
    | outside exits => exact work_exits exits

/-- Whatever the number of children and the order in which they terminate and signals are
delivered, a terminated child is never left with the handler not running and no `SIGCHLD`
pending. Every child that has terminated is waited for and printed once, unless it is still to be
waited for or about to be printed; and the handler, where it runs, can go on and has only so much
to do, so it returns. -/
theorem no_child_left {history : List Event} {state : State}
    (run : Run unixstrserv.system history state) :
    ¬ (state.zombies ≠ ∅ ∧ state.handler = none ∧ state.pending = false) ∧
      Accounts history state ∧
      ∀ pc, state.handler = some pc →
        (∃ events next, Executes state events next) ∧
        (∀ events next, Executes state events next → next.work < state.work) ∧
        ∀ events next, unixstrserv.system.step state events next → next.work ≤ state.work := by
  obtain ⟨inv, accounts⟩ := accounts_run run
  refine ⟨?_, accounts, fun pc inside => step_handler inv inside⟩
  rintro ⟨waiting, outside, quiet⟩
  have pending := inv.posted waiting (.inl outside)
  rw [quiet] at pending
  cases pending

/-- One signal for two children: both have terminated before it is delivered, and the handler prints
both and leaves. -/
theorem no_child_left_twoChildren :
    ∃ (history : List Event) (state : State), Run unixstrserv.system history state ∧
      state.handler = none ∧ state.zombies = ∅ ∧ state.pending = false ∧
      history.count (.terminated 10) = 1 ∧ history.count (.terminated 11) = 1 := by
  have start : Run unixstrserv.system [] ⟨.accept, none, ∅, ∅, false⟩ :=
    .start ⟨rfl, rfl, rfl, rfl, rfl, rfl⟩
  have accept := start.step (.instruction ⟨.connection 4, -1, .inl rfl, rfl⟩)
  have fork := accept.step
    (.instruction ⟨.connection 4, 10, .inr ⟨by decide, by decide, by decide⟩, rfl⟩)
  have close := fork.step (.instruction ⟨.connection 4, -1, .inl rfl, rfl⟩)
  have accept' := close.step (.instruction ⟨.connection 4, -1, .inl rfl, rfl⟩)
  have fork' := accept'.step
    (.instruction ⟨.connection 4, 11, .inr ⟨by decide, by decide, by decide⟩, rfl⟩)
  have first := fork'.step (.outside (.child 10 (by decide)))
  have second := first.step (.outside (.child 11 (by decide)))
  have sigchld := second.step (.delivery (.sigchld rfl rfl))
  have waitpid := sigchld.step (.instruction ⟨11, rfl⟩)
  have printf := waitpid.step (.instruction ⟨0, rfl⟩)
  have waitpid' := printf.step (.instruction ⟨10, rfl⟩)
  have printf' := waitpid'.step (.instruction ⟨0, rfl⟩)
  have nobody := printf'.step (.instruction ⟨0, rfl⟩)
  have leave := nobody.step (.instruction ⟨0, rfl⟩)
  obtain ⟨-, accounts, -⟩ := no_child_left leave
  exact ⟨_, _, leave, rfl, rfl, rfl, (accounts 10).symm, (accounts 11).symm⟩

end SocketProgram.ChildReaping
