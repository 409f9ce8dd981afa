/-
This file models the broadcast client of `bcast/dgclibcast5.c`. The handler of `SIGALRM`
jumps to where the last `sigsetjmp` was, at the top of the reply loop, and the loop ends
there. So it does not matter which statement of the loop the signal comes at.

Only the first signal has nowhere to go when it comes before the first `sigsetjmp`. Later ones
find the place that was set for an earlier line, in a function that has not returned.
-/

import SocketProgram.BroadcastPipe

namespace SocketProgram.BroadcastJump

open Memory Runs

/-! ### The client -/

/-- Where `dg_cli` is: the statement it executes next. At `jumped` it comes out of `sigsetjmp` a
second time, and at `undefined` it has jumped nowhere. -/
inductive Pc
  | gets
  | sendto
  | alarm
  | sigsetjmp
  | recvfrom
  | terminate
  | print
  | jumped
  | undefined
  | returned
  deriving DecidableEq, Repr

/-- The statements of `for(;;)`. -/
def Pc.inLoop : Pc → Bool
  | .sigsetjmp | .recvfrom | .terminate | .print => true
  | .gets | .sendto | .alarm | .jumped | .undefined | .returned => false

/-- `dg_cli` with what it has from the kernel. `jmpbuf` is whether it has been set. -/
structure State (Address : Type*) where
  pc : Pc
  fp : List Byte
  sendline : List Byte
  recvline : List Byte
  n : Int
  replyAddr : Option Address
  jmpbuf : Bool
  armed : Bool
  queue : List (BroadcastPipe.Reply Address)

/-- What is seen of a run: the datagrams sent, the alarms set, the signals delivered, the replies
printed and the reply loops ended. With `underrun` the null byte goes in front of `recvline`. -/
inductive Event (Address : Type*)
  | sendto (data : List Byte)
  | alarm
  | sigalrm
  | underrun
  | printf (host : Option Address) (text : List Byte)
  | ended

variable {Address : Type*}

/-- One statement of `dg_cli`. `none` when it blocks or there is no next one; `fails` is whether
`recvfrom` fails, which is not tested. -/
def State.execute (fails : Bool) (state : State Address) :
    Option (List (Event Address) × State Address) :=
  match state.pc with
  | .gets =>
    match fgets maxline state.fp with
    | none => some ([], { state with pc := .returned })
    | some (stored, rest) =>
      some ([], { state with
        pc := .sendto, fp := rest, sendline := overwrite state.sendline 0 stored })
  | .sendto =>
    some ([.sendto (state.sendline.take (strlen state.sendline))], { state with pc := .alarm })
  | .alarm => some ([.alarm], { state with pc := .sigsetjmp, armed := true })
  | .sigsetjmp => some ([], { state with pc := .recvfrom, jmpbuf := true })
  | .recvfrom =>
    match fails, state.queue with
    | true, _ => some ([], { state with pc := .terminate, n := -1 })
    | false, [] => none
    | false, reply :: rest =>
      some ([], { state with
        pc := .terminate, n := (reply.data.take maxline).length
        recvline := overwrite state.recvline 0 (reply.data.take maxline)
        replyAddr := some reply.source, queue := rest })
  | .terminate =>
    if state.n < 0 then some ([.underrun], { state with pc := .print })
    else
      some ([], { state with
        pc := .print, recvline := overwrite state.recvline state.n.toNat [0] })
  | .print =>
    some ([.printf state.replyAddr (cstring state.recvline)], { state with pc := .sigsetjmp })
  | .jumped => some ([.ended], { state with pc := .gets })
  | .undefined | .returned => none

/-- `recvfrom_alarm`: the alarm goes off and the handler jumps. -/
inductive Delivers : State Address → List (Event Address) → State Address → Prop
  | sigalrm {state : State Address} (armed : state.armed = true) :
      Delivers state [.sigalrm]
        { state with armed := false, pc := if state.jmpbuf then .jumped else .undefined }

/-- A reply arrives. -/
inductive Arrives : State Address → List (Event Address) → State Address → Prop
  | reply (state : State Address) (reply : BroadcastPipe.Reply Address) :
      Arrives state [] { state with queue := state.queue ++ [reply] }

/-- `dg_cli(fp,sockfd,pservaddr,servlen)` on a file, from its first `fgets` on. -/
def broadcastClient (file : List Byte) : Process (State Address) (Event Address) where
  begins state :=
    state.pc = .gets ∧ state.fp = file ∧ state.jmpbuf = false ∧ state.armed = false
  instruction state events next := ∃ fails, state.execute fails = some (events, next)
  delivery := Delivers
  outside := Arrives

/-! ### The alarm -/

/-- How many lines a history has sent. -/
def sent (history : List (Event Address)) : Nat :=
  history.countP fun event => event matches .sendto _

/-- How many signals a history has delivered. -/
def delivered (history : List (Event Address)) : Nat :=
  history.countP fun event => event matches .sigalrm

/-- How many reply loops a history has ended. -/
def ended (history : List (Event Address)) : Nat :=
  history.countP fun event => event matches .ended

/-- The signal has been delivered and the loop has not yet ended. -/
def Pc.afterSignal : Pc → Bool
  | .jumped | .undefined => true
  | _ => false

/-- The statements that come behind a `sigsetjmp`. -/
def Pc.behind : Pc → Bool
  | .recvfrom | .terminate | .print | .jumped => true
  | _ => false

/-- What every run keeps. The alarm is set just in the loop, and every line is one that a signal
has been delivered for, or that is being answered or about to be; only before the first loop has
ended can `jmpbuf` not be set. -/
structure Inv (history : List (Event Address)) (state : State Address) : Prop where
  armed : state.armed = state.pc.inLoop
  lines : sent history =
    delivered history + (state.pc.inLoop.toNat + (decide (state.pc = .alarm)).toNat)
  signals : delivered history = ended history + state.pc.afterSignal.toNat
  unset : state.jmpbuf = false → ended history = 0 ∧ state.pc.behind = false
  undefined : state.pc = .undefined → state.jmpbuf = false

section Counts

variable (history events : List (Event Address))

@[simp]
theorem sent_append : sent (history ++ events) = sent history + sent events :=
  List.countP_append

@[simp]
theorem delivered_append :
    delivered (history ++ events) = delivered history + delivered events :=
  List.countP_append

@[simp]
theorem ended_append : ended (history ++ events) = ended history + ended events :=
  List.countP_append

end Counts

section Inv

variable {history events : List (Event Address)} {state next : State Address}

/-- Nothing that is counted happens, and the alarm stays as it is. -/
theorem Inv.quiet (inv : Inv history state)
    (silent : sent events = 0 ∧ delivered events = 0 ∧ ended events = 0)
    (armed : next.armed = state.armed) (side : next.pc.inLoop = state.pc.inLoop)
    (alarm : next.pc = .alarm ↔ state.pc = .alarm)
    (signal : next.pc.afterSignal = state.pc.afterSignal)
    (unset : next.jmpbuf = false → state.jmpbuf = false ∧ next.pc.behind = false)
    (undefined : next.pc = .undefined → next.jmpbuf = false) : Inv (history ++ events) next := by
  obtain ⟨noSent, noDelivered, noEnded⟩ := silent
  have sameAlarm : decide (next.pc = .alarm) = decide (state.pc = .alarm) :=
    decide_eq_decide.mpr alarm
  refine ⟨?_, ?_, ?_, fun notSet => ?_, undefined⟩
  · rw [armed, side]
    exact inv.armed
  · rw [sent_append, delivered_append, noSent, noDelivered, side, sameAlarm]
    exact inv.lines
  · rw [delivered_append, ended_append, noDelivered, noEnded, signal]
    exact inv.signals
  · obtain ⟨notSet, elsewhere⟩ := unset notSet
    rw [ended_append, noEnded]
    exact ⟨(inv.unset notSet).1, elsewhere⟩

theorem inv_execute {fails : Bool} (inv : Inv history state)
    (executes : state.execute fails = some (events, next)) : Inv (history ++ events) next := by
  obtain ⟨pc, fp, sendline, recvline, n, replyAddr, jmpbuf, armed, queue⟩ := state
  have set (behind : pc.behind = true) : jmpbuf = true := by
    by_contra notSet
    exact absurd behind (Bool.not_eq_true _ ▸ (inv.unset (Bool.not_eq_true _ ▸ notSet)).2)
  cases pc with
  | gets =>
    simp only [State.execute] at executes
    split at executes
    · obtain ⟨rfl, rfl⟩ := Prod.mk.inj (Option.some.inj executes)
      exact inv.quiet ⟨rfl, rfl, rfl⟩ rfl rfl (by simp) rfl
        (fun notSet => ⟨notSet, rfl⟩) nofun
    · obtain ⟨rfl, rfl⟩ := Prod.mk.inj (Option.some.inj executes)
      exact inv.quiet ⟨rfl, rfl, rfl⟩ rfl rfl (by simp) rfl
        (fun notSet => ⟨notSet, rfl⟩) nofun
  | sendto =>
    obtain ⟨rfl, rfl⟩ := Prod.mk.inj (Option.some.inj executes)
    refine ⟨inv.armed, ?_, ?_, fun notSet => ⟨?_, rfl⟩, nofun⟩
    · rw [sent_append, delivered_append, inv.lines]
      rfl
    · rw [delivered_append, ended_append]
      exact inv.signals
    · rw [ended_append]
      exact (inv.unset notSet).1
  | alarm =>
    obtain ⟨rfl, rfl⟩ := Prod.mk.inj (Option.some.inj executes)
    refine ⟨rfl, ?_, ?_, fun notSet => ⟨?_, rfl⟩, nofun⟩
    · rw [sent_append, delivered_append, inv.lines]
      rfl
    · rw [delivered_append, ended_append]
      exact inv.signals
    · rw [ended_append]
      exact (inv.unset notSet).1
  | sigsetjmp =>
    obtain ⟨rfl, rfl⟩ := Prod.mk.inj (Option.some.inj executes)
    exact inv.quiet ⟨rfl, rfl, rfl⟩ rfl rfl (by simp) rfl nofun nofun
  | recvfrom =>
    obtain rfl := set rfl
    simp only [State.execute] at executes
    split at executes
    · obtain ⟨rfl, rfl⟩ := Prod.mk.inj (Option.some.inj executes)
      exact inv.quiet ⟨rfl, rfl, rfl⟩ rfl rfl (by simp) rfl nofun nofun
    · cases executes
    · obtain ⟨rfl, rfl⟩ := Prod.mk.inj (Option.some.inj executes)
      exact inv.quiet ⟨rfl, rfl, rfl⟩ rfl rfl (by simp) rfl nofun nofun
  | terminate =>
    obtain rfl := set rfl
    simp only [State.execute] at executes
    split_ifs at executes
    · obtain ⟨rfl, rfl⟩ := Prod.mk.inj (Option.some.inj executes)
      exact inv.quiet ⟨rfl, rfl, rfl⟩ rfl rfl (by simp) rfl nofun nofun
    · obtain ⟨rfl, rfl⟩ := Prod.mk.inj (Option.some.inj executes)
      exact inv.quiet ⟨rfl, rfl, rfl⟩ rfl rfl (by simp) rfl nofun nofun
  | print =>
    obtain rfl := set rfl
    obtain ⟨rfl, rfl⟩ := Prod.mk.inj (Option.some.inj executes)
    exact inv.quiet ⟨rfl, rfl, rfl⟩ rfl rfl (by simp) rfl nofun nofun
  | jumped =>
    obtain rfl := set rfl
    obtain ⟨rfl, rfl⟩ := Prod.mk.inj (Option.some.inj executes)
    refine ⟨inv.armed, ?_, ?_, nofun, nofun⟩
    · rw [sent_append, delivered_append, inv.lines]
      rfl
    · rw [delivered_append, ended_append, inv.signals]
      rfl
  | undefined => cases executes
  | returned => cases executes

/-- Wherever the signal comes, it is one signal for the line that is being answered. -/
theorem inv_delivers (inv : Inv history state) (delivers : Delivers state events next) :
    Inv (history ++ events) next := by
  obtain ⟨armed⟩ := delivers
  have inside : state.pc.inLoop = true := inv.armed.symm.trans armed
  have notAlarm : state.pc ≠ .alarm := by
    intro alarm
    rw [alarm] at inside
    cases inside
  have notAfter : state.pc.afterSignal = false := by
    cases pc : state.pc <;> rw [pc] at inside <;> first | rfl | cases inside
  have lines := inv.lines
  have signals := inv.signals
  rw [inside, decide_eq_false notAlarm] at lines
  rw [notAfter] at signals
  cases set : state.jmpbuf with
  | true =>
    refine ⟨rfl, ?_, ?_, nofun, nofun⟩
    · rw [sent_append, delivered_append, lines]
      rfl
    · rw [delivered_append, ended_append, signals]
      rfl
  | false =>
    refine ⟨rfl, ?_, ?_, fun _ => ⟨?_, rfl⟩, fun _ => rfl⟩
    · rw [sent_append, delivered_append, lines]
      rfl
    · rw [delivered_append, ended_append, signals]
      rfl
    · rw [ended_append]
      exact (inv.unset set).1

theorem inv_run {file : List Byte} (run : Run (broadcastClient file).system history state) :
    Inv history state := by
  refine Process.invariant Inv ?_ ?_ ?_ ?_ run
  · rintro state ⟨pc, -, unset, armed⟩
    refine ⟨?_, ?_, ?_, ?_, ?_⟩
    · rw [armed, pc]
      rfl
    · rw [pc]
      rfl
    · rw [pc]
      rfl
    · intro
      rw [pc]
      exact ⟨rfl, rfl⟩
    · exact fun _ => unset
  · rintro history state events next inv ⟨fails, executes⟩
    exact inv_execute inv executes
  · intro history state events next inv delivers
    exact inv_delivers inv delivers
  · rintro history state events next inv ⟨reply⟩
    refine inv.quiet ⟨rfl, rfl, rfl⟩ rfl rfl Iff.rfl rfl (fun notSet => ⟨notSet, ?_⟩) inv.undefined
    exact (inv.unset notSet).2

end Inv

/-- The broadcast client. Wherever in the loop the signal comes, it ends that loop and no other: an
alarm is set just while a loop runs, every line sent has had its signal but the one that is being
answered or about to be, and every signal has ended its loop but the one that has just come. What is
undefined can only happen at the first signal, and the client waits only where an alarm is set. -/
theorem jump_ends (file : List Byte) {history : List (Event Address)} {state : State Address}
    (run : Run (broadcastClient file).system history state) :
    (state.armed = true ↔ state.pc.inLoop = true) ∧
      sent history =
        delivered history + (if state.pc.inLoop = true ∨ state.pc = .alarm then 1 else 0) ∧
      delivered history =
        ended history + (if state.pc = .jumped ∨ state.pc = .undefined then 1 else 0) ∧
      (state.pc = .undefined → state.jmpbuf = false ∧ sent history = 1 ∧ ended history = 0) ∧
      (state.execute false = none →
        state.pc = .returned ∨ state.pc = .undefined ∨ state.armed = true) := by
  obtain ⟨armed, lines, signals, unset, undefined⟩ := inv_run run
  refine ⟨?_, ?_, ?_, ?_, ?_⟩
  · rw [armed]
  · rw [lines]
    cases state.pc <;> rfl
  · rw [signals]
    cases state.pc <;> rfl
  · intro atUndefined
    have none := (unset (undefined atUndefined)).1
    rw [atUndefined] at lines signals
    refine ⟨undefined atUndefined, ?_, none⟩
    rw [lines, signals, none]
    rfl
  · intro blocks
    obtain ⟨pc, fp, sendline, recvline, n, replyAddr, jmpbuf, set, queue⟩ := state
    cases pc with
    | returned => exact .inl rfl
    | undefined => exact .inr (.inl rfl)
    | recvfrom => exact .inr (.inr armed)
    | gets =>
      simp only [State.execute] at blocks
      split at blocks <;> cases blocks
    | terminate =>
      simp only [State.execute] at blocks
      split_ifs at blocks
    | sendto | alarm | sigsetjmp | print | jumped => cases blocks

/-- A signal that comes before the first `sigsetjmp`. -/
theorem jump_ends_example :
    ∃ (history : List (Event Unit)) (state : State Unit),
      (history = [.sendto [104, 10], .alarm, .sigalrm] ∧ state.pc = .undefined) ∧
      (state.armed = true ↔ state.pc.inLoop = true) ∧
      sent history =
        delivered history + (if state.pc.inLoop = true ∨ state.pc = .alarm then 1 else 0) ∧
      delivered history =
        ended history + (if state.pc = .jumped ∨ state.pc = .undefined then 1 else 0) ∧
      (state.pc = .undefined → state.jmpbuf = false ∧ sent history = 1 ∧ ended history = 0) ∧
      (state.execute false = none →
        state.pc = .returned ∨ state.pc = .undefined ∨ state.armed = true) := by
  let first : State Unit :=
    { pc := .gets, fp := [104, 10], sendline := [], recvline := [], n := 0, replyAddr := none
      jmpbuf := false, armed := false, queue := [] }
  have start : Run (broadcastClient [104, 10]).system [] first :=
    .start ⟨rfl, rfl, rfl, rfl, rfl⟩
  have gets := Run.step start (.instruction ⟨false, rfl⟩)
  have sendto := Run.step gets (.instruction ⟨false, rfl⟩)
  have alarm := Run.step sendto (.instruction ⟨false, rfl⟩)
  have sigalrm := Run.step alarm (.delivery (.sigalrm rfl))
  exact ⟨_, _, ⟨rfl, rfl⟩, jump_ends [104, 10] sigalrm⟩

end SocketProgram.BroadcastJump
