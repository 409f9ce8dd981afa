/-
This file models the broadcast client of `bcast/dgclibcast4.c` with the `pselect` of
`bcast/pselect.c`. For every line it sends the client blocks `SIGALRM`, arms an alarm and
reads replies; the signal is to interrupt the wait for the next one, so it is let in only
inside `pselect`.

This `pselect` lets it in before it waits: it sets the mask, calls `select` and restores the
mask. A signal that comes between the first two has run its handler, which does nothing, by
the time `select` begins to wait, and nothing will wake it up again. The same happens when the
signal comes after `select` has found a reply. As long as the alarm goes off while `select`
waits, no timeout is lost.
-/

import SocketProgram.BroadcastPipe

namespace SocketProgram.BroadcastPselect

open Memory Runs

/-! ### The client -/

/-- Where `dg_cli` is: the statement it executes next, of `dg_cli` or of `pselect`. At `waiting`
it is inside `select`. -/
inductive Pc
  | gets
  | sendto
  | block
  | alarm
  | fdSet
  | setmask
  | select
  | waiting
  | restore
  | test
  | recvfrom
  | terminate
  | print
  | returned
  deriving DecidableEq, Repr

/-- `dg_cli` with what it has from the kernel. `mask` and `savemask` are whether `SIGALRM` is in
the signal mask and in the variable, `rset` is whether `sockfd` is in it, `armed` is whether an
alarm is set and `pending` is whether it has gone off and not been delivered. -/
structure State (Address : Type*) where
  pc : Pc
  fp : List Byte
  sendline : List Byte
  recvline : List Byte
  n : Int
  errno : Errno
  replyAddr : Option Address
  rset : Bool
  mask : Bool
  savemask : Bool
  armed : Bool
  pending : Bool
  queue : List (BroadcastPipe.Reply Address)

/-- What is seen of a run: the datagrams sent, the alarms set, the signals delivered and what is
printed. -/
inductive Event (Address : Type*)
  | sendto (data : List Byte)
  | alarm
  | sigalrm
  | pselectError
  | pselectReturn (n : Int)
  | printf (host : Option Address) (text : List Byte)

variable {Address : Type*}

/-- `select` has something to report. -/
def State.readable (state : State Address) : Bool := state.rset && !state.queue.isEmpty

/-- `select` returns with the one descriptor it was given. -/
def State.selected (state : State Address) : State Address := { state with pc := .restore, n := 1 }

/-- `select` fails. -/
def State.failed (state : State Address) (errno : Errno) : State Address :=
  { state with pc := .restore, n := -1, errno := errno }

/-- One statement of `dg_cli` or `pselect`. `none` when it blocks or the function has returned;
`failure` is what `select` fails with when it is called. -/
def State.execute (failure : Option Errno) (state : State Address) :
    Option (List (Event Address) × State Address) :=
  match state.pc with
  | .gets =>
    match fgets maxline state.fp with
    | none => some ([], { state with pc := .returned })
    | some (stored, rest) =>
      some ([], { state with
        pc := .sendto, fp := rest, sendline := overwrite state.sendline 0 stored })
  | .sendto =>
    some ([.sendto (state.sendline.take (strlen state.sendline))], { state with pc := .block })
  | .block => some ([], { state with pc := .alarm, mask := true })
  | .alarm => some ([.alarm], { state with pc := .fdSet, armed := true })
  | .fdSet => some ([], { state with pc := .setmask, rset := true })
  | .setmask => some ([], { state with pc := .select, savemask := state.mask, mask := false })
  | .select =>
    match failure with
    | some errno => some ([], state.failed errno)
    | none =>
      if state.readable then some ([], state.selected)
      else some ([], { state with pc := .waiting })
  | .waiting => if state.readable then some ([], state.selected) else none
  | .restore => some ([], { state with pc := .test, mask := state.savemask })
  | .test =>
    if state.n < 0 then
      if state.errno = .eintr then some ([], { state with pc := .gets })
      else some ([.pselectError], { state with pc := .recvfrom })
    else if state.n ≠ 1 then some ([.pselectReturn state.n], { state with pc := .recvfrom })
    else some ([], { state with pc := .recvfrom })
  | .recvfrom =>
    match state.queue with
    | [] => none
    | reply :: rest =>
      some ([], { state with
        pc := .terminate, n := (reply.data.take maxline).length
        recvline := overwrite state.recvline 0 (reply.data.take maxline)
        replyAddr := some reply.source, queue := rest })
  | .terminate =>
    some ([], { state with pc := .print, recvline := overwrite state.recvline state.n.toNat [0] })
  | .print =>
    some ([.printf state.replyAddr (cstring state.recvline)], { state with pc := .fdSet })
  | .returned => none

/-- `recvfrom_alarm`: a pending signal that is not blocked is delivered. The handler does nothing,
but `select` is interrupted by it while it waits. -/
inductive Delivers : State Address → List (Event Address) → State Address → Prop
  | sigalrm {state : State Address} (pending : state.pending = true)
      (unblocked : state.mask = false) :
      Delivers state [.sigalrm]
        (if state.pc = .waiting then { state with pending := false }.failed .eintr
          else { state with pending := false })

/-- The alarm goes off, or a reply arrives. -/
inductive Happens : State Address → List (Event Address) → State Address → Prop
  | expires {state : State Address} (armed : state.armed = true) :
      Happens state [] { state with armed := false, pending := true }
  | reply (state : State Address) (reply : BroadcastPipe.Reply Address) :
      Happens state [] { state with queue := state.queue ++ [reply] }

/-- `dg_cli(fp,sockfd,pservaddr,servlen)` on a file, from its first `fgets` on and with any signal
mask. -/
def broadcastClient (file : List Byte) : Process (State Address) (Event Address) where
  begins state :=
    state.pc = .gets ∧ state.fp = file ∧ state.armed = false ∧ state.pending = false
  instruction state events next := ∃ failure, state.execute failure = some (events, next)
  delivery := Delivers
  outside := Happens

/-! ### The timeout of a line -/

/-- Whether the alarm that was set last has been delivered. -/
def alarmDelivered (history : List (Event Address)) : Bool :=
  history.foldl (fun delivered event => match event with
    | .alarm => false
    | .sigalrm => true
    | _ => delivered) false

/-- The timeout of the current line is lost: `select` waits, the alarm of the line has been
delivered, and no alarm is armed. -/
def Lost (history : List (Event Address)) (state : State Address) : Prop :=
  state.pc = .waiting ∧ alarmDelivered history = true ∧ state.armed = false

/-- `SIGALRM` is delivered only while `select` waits. -/
def Timely (state next : State Address) : Prop :=
  state.pending = true → next.pending = false → state.pc = .waiting

/-- The client is on its way out of the reply loop, or outside of it. -/
def State.Leaves (state : State Address) : Prop :=
  state.pc ∈ [Pc.gets, .sendto, .block, .alarm, .returned] ∨
    state.pc ∈ [Pc.restore, .test] ∧ state.n < 0 ∧ state.errno = .eintr

theorem alarmDelivered_append (history events : List (Event Address))
    (quiet : ∀ event ∈ events, event ≠ .alarm ∧ event ≠ .sigalrm) :
    alarmDelivered (history ++ events) = alarmDelivered history := by
  induction events using List.reverseRecOn with
  | nil => rw [List.append_nil]
  | append_singleton events event inductionHypothesis =>
    obtain ⟨notAlarm, notSigalrm⟩ := quiet event List.mem_concat_self
    have before := inductionHypothesis fun earlier member =>
      quiet earlier (List.mem_append_left _ member)
    rw [← before, ← List.append_assoc, alarmDelivered, List.foldl_append]
    cases event with
    | alarm => exact absurd rfl notAlarm
    | sigalrm => exact absurd rfl notSigalrm
    | _ => rfl

theorem alarmDelivered_alarm (history : List (Event Address)) :
    alarmDelivered (history ++ [.alarm]) = false := by
  rw [alarmDelivered, List.foldl_append]
  rfl

theorem not_lost_of_leaves {history : List (Event Address)} {state : State Address}
    (leaving : alarmDelivered history = true → state.Leaves) : ¬ Lost history state := by
  rintro ⟨waiting, delivered, -⟩
  rcases leaving delivered with outside | ⟨inside, -⟩
  · rw [waiting] at outside
    simp at outside
  · rw [waiting] at inside
    simp at inside

/-- Only `alarm` is seen as one. -/
theorem silent_execute {events : List (Event Address)} {state next : State Address}
    {failure : Option Errno} (executes : state.execute failure = some (events, next))
    (notAlarm : state.pc ≠ .alarm) : ∀ event ∈ events, event ≠ .alarm ∧ event ≠ .sigalrm := by
  cases atPc : state.pc with
  | alarm => exact absurd atPc notAlarm
  | gets | recvfrom =>
    simp only [State.execute, atPc] at executes
    split at executes <;> cases executes <;> simp
  | select =>
    simp only [State.execute, atPc] at executes
    split at executes
    · cases executes
      simp
    · split_ifs at executes <;> cases executes <;> simp
  | waiting | test =>
    simp only [State.execute, atPc] at executes
    split_ifs at executes <;> cases executes <;> simp
  | sendto | block | fdSet | setmask | restore | terminate | print =>
    simp only [State.execute, atPc] at executes
    cases executes
    simp
  | returned =>
    simp only [State.execute, atPc] at executes
    cases executes

/-- A client that has left the loop, or is about to, comes back into it only with an alarm. -/
theorem leaves_execute {events : List (Event Address)} {state next : State Address}
    {failure : Option Errno} (executes : state.execute failure = some (events, next))
    (notAlarm : state.pc ≠ .alarm) (leaves : state.Leaves) : next.Leaves := by
  rcases leaves with outside | ⟨inside, failed, interrupted⟩
  · cases atPc : state.pc with
    | gets =>
      simp only [State.execute, atPc] at executes
      split at executes <;> cases executes
      · exact .inl (by simp)
      · exact .inl (by simp)
    | sendto | block =>
      simp only [State.execute, atPc] at executes
      cases executes
      exact .inl (by simp)
    | alarm => exact absurd atPc notAlarm
    | returned =>
      simp only [State.execute, atPc] at executes
      cases executes
    | fdSet | setmask | select | waiting | restore | test | recvfrom | terminate | print =>
      rw [atPc] at outside
      simp at outside
  · rcases List.mem_pair.mp inside with atPc | atPc
    · simp only [State.execute, atPc] at executes
      cases executes
      exact .inr ⟨by simp, failed, interrupted⟩
    · simp only [State.execute, atPc, if_pos failed, if_pos interrupted] at executes
      cases executes
      exact .inl (by simp)

/-- In every timely run a delivered alarm has the client leave the loop. -/
theorem leaves_run {file : List Byte} {history : List (Event Address)} {state : State Address}
    (run : Run ((broadcastClient file).system.restrict Timely) history state) :
    alarmDelivered history = true → state.Leaves := by
  refine run.invariant (fun history state => alarmDelivered history = true → state.Leaves) ?_ ?_
  · rintro history state ⟨rfl, -⟩
    exact nofun
  · rintro history state events next leaving ⟨step, timely⟩
    cases step with
    | instruction executes =>
      obtain ⟨failure, executes⟩ := executes
      by_cases atAlarm : state.pc = .alarm
      · simp only [State.execute, atAlarm] at executes
        cases executes
        rw [alarmDelivered_alarm]
        exact nofun
      · rw [alarmDelivered_append history events (silent_execute executes atAlarm)]
        exact fun delivered => leaves_execute executes atAlarm (leaving delivered)
    | delivery delivers =>
      obtain ⟨pending, unblocked⟩ := delivers
      have waiting : state.pc = .waiting := by
        refine timely pending ?_
        split_ifs <;> rfl
      intro _
      rw [if_pos waiting]
      exact .inr ⟨List.mem_cons_self, Int.negSucc_lt_zero 0, rfl⟩
    | outside happens =>
      cases happens with
      | expires armed =>
        rw [List.append_nil]
        exact leaving
      | reply reply =>
        rw [List.append_nil]
        exact leaving

/-- The broadcast client loses no timeout in a run in which the signal is delivered only while
`select` waits. -/
theorem pselect_keeps_timeout {file : List Byte} {history : List (Event Address)}
    {state : State Address}
    (run : Run ((broadcastClient file).system.restrict Timely) history state) :
    ¬ Lost history state :=
  not_lost_of_leaves (leaves_run run)

/-- A signal that is delivered when `pselect` has let it in, and before it calls `select`, loses the
timeout unless a reply is there. -/
theorem lost_of_not_timely {file : List Byte} {history : List (Event Address)}
    {state : State Address} (run : Run (broadcastClient file).system history state)
    (atSelect : state.pc = .select) (unblocked : state.mask = false)
    (pending : state.pending = true) (armed : state.armed = false) (empty : state.queue = []) :
    ∃ lost, Run (broadcastClient file).system (history ++ [.sigalrm]) lost ∧
      Lost (history ++ [.sigalrm]) lost := by
  have sigalrm := run.step (.delivery (.sigalrm pending unblocked))
  have waits : State.execute none { state with pending := false } =
      some ([], { state with pending := false, pc := .waiting }) := by
    simp only [State.execute, atSelect, State.readable, empty, List.isEmpty_nil, Bool.not_true,
      Bool.and_false, Bool.false_eq_true, if_false]
  rw [if_neg (by rw [atSelect]; exact nofun)] at sigalrm
  have select := sigalrm.step (.instruction ⟨none, waits⟩)
  rw [List.append_nil] at select
  refine ⟨_, select, rfl, ?_, armed⟩
  rw [alarmDelivered, List.foldl_append]
  rfl

/-! ### The two runs -/

/-- `dg_cli` before it reads the first line of this file. -/
def State.initial (file : List Byte) : State Unit where
  pc := .gets
  fp := file
  sendline := []
  recvline := []
  n := 0
  errno := .other 0
  replyAddr := none
  rset := false
  mask := false
  savemask := false
  armed := false
  pending := false
  queue := []

/-- The first line is sent, its alarm is set, and `pselect` has let the signal in. -/
def sentLine : State Unit :=
  { State.initial [104, 10] with
    pc := .select, fp := [], sendline := [104, 10, 0], rset := true, savemask := true
    armed := true }

theorem run_sentLine : Run ((broadcastClient [104, 10]).system.restrict Timely)
    [.sendto [104, 10], .alarm] sentLine := by
  have start : Run ((broadcastClient [104, 10]).system.restrict Timely) []
      (State.initial [104, 10]) := .start ⟨rfl, rfl, rfl, rfl, rfl⟩
  have gets := start.step ⟨.instruction ⟨none, rfl⟩, nofun⟩
  have sendto := gets.step ⟨.instruction ⟨none, rfl⟩, nofun⟩
  have block := sendto.step ⟨.instruction ⟨none, rfl⟩, nofun⟩
  have alarm := block.step ⟨.instruction ⟨none, rfl⟩, nofun⟩
  have fdSet := alarm.step ⟨.instruction ⟨none, rfl⟩, nofun⟩
  exact fdSet.step ⟨.instruction ⟨none, rfl⟩, nofun⟩

/-- The alarm goes off while `select` waits: the client leaves the loop. -/
theorem pselect_keeps_timeout_waiting :
    ∃ (history : List (Event Unit)) (state : State Unit),
      alarmDelivered history = true ∧ state.armed = false ∧ ¬ Lost history state := by
  have select := run_sentLine.step ⟨.instruction ⟨none, rfl⟩, nofun⟩
  have expires := select.step ⟨.outside (.expires rfl), nofun⟩
  have sigalrm := expires.step ⟨.delivery (.sigalrm rfl rfl), fun _ _ => rfl⟩
  exact ⟨_, _, rfl, rfl, pselect_keeps_timeout sigalrm⟩

/-- The alarm goes off after `pselect` has let the signal in and before it calls `select`: the
client waits for a timeout that has come. -/
theorem not_pselect_keeps_timeout :
    ¬ ∀ (history : List (Event Unit)) (state : State Unit),
      Run (broadcastClient [104, 10]).system history state → ¬ Lost history state := by
  have expires := run_sentLine.of_restrict.step (.outside (.expires rfl))
  obtain ⟨lost, run, isLost⟩ := lost_of_not_timely expires rfl rfl rfl rfl rfl
  exact fun never => never _ _ run isLost

end SocketProgram.BroadcastPselect
