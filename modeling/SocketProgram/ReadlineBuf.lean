/-
This file is about `readlinebuf` of `readline.c`, which shows a caller what `my_read` has read
ahead. Every byte that `read` has returned is either in a caller's buffer or still unread in the
static buffer, whatever `read` does; that is an invariant of every step of every call.

What `readlinebuf` returns as the number of unread bytes is `read_cnt`, and `read_cnt` is also
what the last `read` has returned. At end of file the two are the same. After an error they are
not: nothing is unread, and -1 is returned.
-/

import SocketProgram.Library.Runs
import SocketProgram.Readline

namespace SocketProgram.ReadlineBuf

open Memory Source Runs

/-! ### Calls of `readline` on one descriptor -/

/-- A process that calls `readline`: the static buffer, and the call it is in, with its `maxlen`
and its locals. -/
structure Process where
  buffer : LineBuffer
  call : Option (Nat × Frame)

/-- What is seen of a call: its `read`s, and its return. -/
inductive Event
  | read (outcome : ReadOutcome)
  | returned (ret : Return)
  deriving DecidableEq, Repr

/-- The call of `readline` as far as it has come. -/
def Process.progressed (process : Process) (maxlen : Nat) :
    Return ⊕ Frame → List Event × Process
  | .inl ret => ([.returned ret], { process with call := none })
  | .inr frame => ([], { process with call := some (maxlen, frame) })

/-- A `read` of `my_read` has returned. -/
def Process.filled (process : Process) (maxlen : Nat) (frame : Frame) (outcome : ReadOutcome) :
    List Event × Process :=
  match againBody outcome process.buffer with
  | .inl (reply, buffer) =>
    { process with buffer := buffer }.progressed maxlen ((readlineLoop maxlen).round reply frame)
  | .inr buffer => ([], { process with buffer := buffer })

/-- One step: `readline` is called with some `maxlen`, or `my_read` delivers a byte of its buffer,
or it has none and reads. -/
inductive Step : Process → List Event → Process → Prop
  | call {process : Process} (idle : process.call = none) (maxlen : Nat) :
      Step process (process.progressed maxlen ((readlineLoop maxlen).test Frame.enter)).1
        (process.progressed maxlen ((readlineLoop maxlen).test Frame.enter)).2
  | deliver {process : Process} {maxlen : Nat} {frame : Frame}
      (call : process.call = some (maxlen, frame)) (positive : 0 < process.buffer.cnt) :
      Step process
        ({ process with buffer := process.buffer.deliver.2 }.progressed maxlen
          ((readlineLoop maxlen).round process.buffer.deliver.1 frame)).1
        ({ process with buffer := process.buffer.deliver.2 }.progressed maxlen
          ((readlineLoop maxlen).round process.buffer.deliver.1 frame)).2
  | read {process : Process} {maxlen : Nat} {frame : Frame} {outcome : ReadOutcome}
      (call : process.call = some (maxlen, frame)) (empty : process.buffer.cnt ≤ 0)
      (fits : outcome.Fits maxline) :
      Step process (.read outcome :: (process.filled maxlen frame outcome).1)
        (process.filled maxlen frame outcome).2

/-- Any sequence of calls, from the static buffer as it is at first. -/
def calls : System Process Event where
  start history process := history = [] ∧ process = ⟨LineBuffer.zero, none⟩
  step := Step

/-- `readlinebuf(&vptr)`: what it returns, and what `vptr` is afterwards, as an offset into
`read_buf`. -/
def readlinebuf (buffer : LineBuffer) (vptr : Nat) : Int × Nat :=
  (buffer.cnt, if buffer.cnt ≠ 0 then buffer.ptr else vptr)

/-! ### What has been read and where it is -/

/-- The bytes a call has placed in its caller's buffer. The NUL behind them is not one of them,
and a call that fails stores none. -/
def placedBy (ret : Return) : List Byte :=
  if ret.value = -1 then ret.stored else ret.stored.dropLast

/-- What `read` has given in an event. -/
def Event.obtained : Event → List Byte
  | .read outcome => outcome.bytes
  | .returned _ => []

/-- What a return has placed. -/
def Event.placed : Event → List Byte
  | .read _ => []
  | .returned ret => placedBy ret

/-- The `read` of an event. -/
def Event.outcome? : Event → Option ReadOutcome
  | .read outcome => some outcome
  | .returned _ => none

/-- The bytes that `read` has returned so far. -/
def obtained (history : List Event) : List Byte := history.flatMap Event.obtained

/-- The bytes that have been placed in callers' buffers. -/
def placed (history : List Event) : List Byte := history.flatMap Event.placed

/-- What the last `read` has done. -/
def lastRead (history : List Event) : Option ReadOutcome :=
  (history.filterMap Event.outcome?).getLast?

/-- The bytes `readlinebuf` exposes to a caller whose pointer is `vptr`. -/
def exposed (buffer : LineBuffer) (vptr : Nat) : List Byte :=
  (buffer.buf.drop (readlinebuf buffer vptr).2).take (readlinebuf buffer vptr).1.toNat

/-- `readlinebuf` tells the truth: what it exposes is what has been read and not placed, and the
count it returns is one of a buffer of `MAXLINE` bytes. -/
structure TellsTruth (history : List Event) (buffer : LineBuffer) (vptr : Nat) : Prop where
  conserved : placed history ++ exposed buffer vptr = obtained history
  nonneg : 0 ≤ (readlinebuf buffer vptr).1
  inside : (readlinebuf buffer vptr).1 ≤ maxline

/-- What is exposed is what is unread. -/
theorem exposed_eq_unread (buffer : LineBuffer) (vptr : Nat) :
    exposed buffer vptr = buffer.unread := by
  by_cases empty : buffer.cnt = 0
  · rw [LineBuffer.unread_of_nonpos (Int.le_of_eq empty), exposed, readlinebuf, empty]
    exact List.take_zero
  · rw [exposed, readlinebuf, if_pos empty]
    rfl

/-! ### The steps -/

/-- What of the line the process is at has been placed already. -/
def Process.stored (process : Process) : List Byte :=
  match process.call with
  | some (_, frame) => frame.stored
  | none => []

/-- What a call has placed, as far as it has come. -/
def carried : Return ⊕ Frame → List Byte
  | .inl ret => placedBy ret
  | .inr frame => frame.stored

theorem placedBy_filled (frame : Frame) : placedBy frame.filled = frame.stored := by
  have counted : ¬ (frame.n : Int) = -1 := by omega
  exact (if_neg counted).trans List.dropLast_concat

theorem carried_test (maxlen : Nat) (frame : Frame) :
    carried ((readlineLoop maxlen).test frame) = frame.stored := by
  by_cases more : frame.n < maxlen
  · rw [Text.test_more (decide_eq_true more)]
    rfl
  · rw [Text.test_over (decide_eq_false more)]
    exact placedBy_filled frame

/-- The byte that a reply of `my_read` brings. -/
def bytesOf (reply : Reply) : List Byte := if reply.rc = 1 then [reply.c] else []

/-- One round of the loop places the byte, if there is one. -/
theorem carried_round (maxlen : Nat) (reply : Reply) {frame : Frame} (counted : 0 < frame.n) :
    carried ((readlineLoop maxlen).round reply frame) = frame.stored ++ bytesOf reply := by
  rcases body : readlineBody reply frame with ret | next
  · rw [Text.round_return body]
    unfold readlineBody at body
    split_ifs at body with byte ends eof <;> cases body
    · rw [bytesOf, if_pos byte]
      exact placedBy_filled _
    · have counted' : ¬ (frame.n : Int) - 1 = -1 := by omega
      rw [bytesOf, if_neg byte, List.append_nil]
      exact (if_neg counted').trans List.dropLast_concat
    · rw [bytesOf, if_neg byte, List.append_nil]
      rfl
  · rw [Text.round_next body, carried_test]
    unfold readlineBody at body
    split_ifs at body with byte ends
    cases body
    rw [bytesOf, if_pos byte]

/-- Going round, the loop has counted. -/
theorem counted_of_round {maxlen : Nat} {reply : Reply} {frame next : Frame}
    (waits : (readlineLoop maxlen).round reply frame = .inr next) : 0 < next.n := by
  rcases body : readlineBody reply frame with ret | waiting
  · rw [Text.round_return body] at waits
    cases waits
  · rw [Text.round_next body] at waits
    rw [← (Text.frame_of_test waits).1, n_of_readlineBody body]
    exact Nat.succ_pos _

/-- After a `read` with an empty buffer, all that it gave is unread or on its way to the loop, and
`read_cnt` is negative just if it failed. -/
structure Took (outcome : ReadOutcome) (bytes : List Byte) (buffer : LineBuffer) : Prop where
  sound : buffer.Sound
  kept : bytes ++ buffer.unread = outcome.bytes
  failed : buffer.cnt < 0 ↔ ∃ errno, outcome = .error errno

theorem againBody_took {buffer : LineBuffer} (sound : buffer.Sound) {outcome : ReadOutcome}
    (fits : outcome.Fits maxline) :
    (∃ reply next, againBody outcome buffer = .inl (reply, next) ∧
        Took outcome (bytesOf reply) next) ∨
      (∃ next, againBody outcome buffer = .inr next ∧ Took outcome [] next) := by
  cases outcome with
  | error errno =>
    have negative : (buffer.filled (.error errno)).cnt < 0 := Int.negSucc_lt_zero 0
    have took : Took (.error errno) [] (buffer.filled (.error errno)) :=
      ⟨LineBuffer.sound_filled sound fits (Int.le_of_lt negative),
        LineBuffer.unread_of_nonpos (Int.le_of_lt negative), fun _ => ⟨errno, rfl⟩,
        fun _ => negative⟩
    by_cases interrupted : errno = .eintr
    · subst interrupted
      exact .inr ⟨_, againBody_interrupted buffer, took⟩
    · exact .inl ⟨_, _, againBody_error interrupted buffer, took⟩
  | data bytes =>
    by_cases nonempty : bytes = []
    · subst nonempty
      have zero : (buffer.filled (.data [])).cnt ≤ 0 := Int.le_refl 0
      exact .inl ⟨_, _, againBody_eof buffer, LineBuffer.sound_filled sound fits zero,
        LineBuffer.unread_of_nonpos zero, fun negative => absurd negative (Int.lt_irrefl 0),
        by rintro ⟨_, ⟨⟩⟩⟩
    · have size : bytes.length ≤ maxline := fits
      obtain ⟨sound', unread⟩ := LineBuffer.unread_filled sound size
      have positive : (0 : Int) < (buffer.filled (.data bytes)).rewind.cnt := by
        show (0 : Int) < bytes.length
        exact_mod_cast List.length_pos_iff.mpr nonempty
      obtain ⟨c, reply, taken, sound''⟩ := LineBuffer.deliver_spec sound' positive
      refine .inl ⟨(buffer.filled (.data bytes)).rewind.deliver.1,
        (buffer.filled (.data bytes)).rewind.deliver.2, againBody_data nonempty buffer, sound'', ?_,
        fun negative => ?_, by rintro ⟨_, ⟨⟩⟩⟩
      · rw [reply]
        exact taken.symm.trans unread
      · have counted : (buffer.filled (.data bytes)).rewind.deliver.2.cnt =
            (buffer.filled (.data bytes)).rewind.cnt - 1 := rfl
        omega

/-! ### The invariant -/

theorem placed_append (first second : List Event) :
    placed (first ++ second) = placed first ++ placed second := List.flatMap_append

theorem obtained_append (first second : List Event) :
    obtained (first ++ second) = obtained first ++ obtained second := List.flatMap_append

/-- The last `read` has failed. -/
def FailedLast (history : List Event) : Prop := ∃ errno, lastRead history = some (.error errno)

/-- What holds of every process that any sequence of calls reaches. -/
structure Inv (history : List Event) (process : Process) : Prop where
  sound : process.buffer.Sound
  counted : ∀ maxlen frame, process.call = some (maxlen, frame) → 0 < frame.n
  conserved : placed history ++ process.stored ++ process.buffer.unread = obtained history
  failed : process.buffer.cnt < 0 ↔ FailedLast history

theorem failedLast_append_returned (history : List Event) (ret : Return) :
    FailedLast (history ++ [.returned ret]) ↔ FailedLast history := by
  have last : lastRead (history ++ [.returned ret]) = lastRead history := by
    rw [lastRead, List.filterMap_append]
    exact congrArg List.getLast? (List.append_nil _)
  rw [FailedLast, last, FailedLast]

theorem failedLast_append_read (history : List Event) (outcome : ReadOutcome) :
    FailedLast (history ++ [.read outcome]) ↔ ∃ errno, outcome = .error errno := by
  have last : lastRead (history ++ [.read outcome]) = some outcome := by
    rw [lastRead, List.filterMap_append]
    exact List.getLast?_concat
  simp only [FailedLast, last, Option.some.injEq]

section Steps

variable {history : List Event} {process : Process}

/-- A call has come so far. -/
theorem inv_progressed {buffer : LineBuffer} (sound : buffer.Sound) (maxlen : Nat)
    {progress : Return ⊕ Frame} (counted : ∀ next, progress = .inr next → 0 < next.n)
    (conserved : placed history ++ carried progress ++ buffer.unread = obtained history)
    (failed : buffer.cnt < 0 ↔ FailedLast history) (call : Option (Nat × Frame)) :
    Inv (history ++ (Process.progressed ⟨buffer, call⟩ maxlen progress).1)
      (Process.progressed ⟨buffer, call⟩ maxlen progress).2 := by
  cases progress with
  | inl ret =>
    refine ⟨sound, by rintro _ _ ⟨⟩, ?_, ?_⟩
    · show placed (history ++ [.returned ret]) ++ [] ++ buffer.unread =
        obtained (history ++ [.returned ret])
      have placed' : placed [.returned ret] = placedBy ret := List.flatMap_singleton _ _
      have obtained' : obtained [.returned ret] = [] := List.flatMap_singleton _ _
      rw [placed_append, obtained_append, placed', obtained', List.append_nil, List.append_nil]
      exact conserved
    · exact failed.trans (failedLast_append_returned history ret).symm
  | inr frame =>
    have none : history ++ [] = history := List.append_nil history
    refine ⟨sound, ?_, ?_, ?_⟩
    · rintro _ _ ⟨⟩
      exact counted frame rfl
    · show placed (history ++ []) ++ frame.stored ++ buffer.unread = obtained (history ++ [])
      rw [none]
      exact conserved
    · show buffer.cnt < 0 ↔ FailedLast (history ++ [])
      rw [none]
      exact failed

/-- A `read` of `my_read` has returned. -/
theorem Inv.filled {buffer : LineBuffer} {maxlen : Nat} {frame : Frame} {outcome : ReadOutcome}
    (inv : Inv history ⟨buffer, some (maxlen, frame)⟩) (empty : buffer.cnt ≤ 0)
    (fits : outcome.Fits maxline) :
    Inv (history ++
        .read outcome :: (Process.filled ⟨buffer, some (maxlen, frame)⟩ maxlen frame outcome).1)
      (Process.filled ⟨buffer, some (maxlen, frame)⟩ maxlen frame outcome).2 := by
  have conserved : placed history ++ frame.stored ++ buffer.unread = obtained history :=
    inv.conserved
  rw [LineBuffer.unread_of_nonpos empty, List.append_nil] at conserved
  have placed' : placed (history ++ [.read outcome]) = placed history := by
    rw [placed_append]
    exact List.append_nil _
  have obtained' : obtained (history ++ [.read outcome]) =
      placed history ++ frame.stored ++ outcome.bytes := by
    rw [obtained_append, ← conserved]
    exact congrArg _ (List.flatMap_singleton _ _)
  rw [List.append_cons]
  rcases againBody_took inv.sound fits with ⟨reply, next, body, took⟩ | ⟨next, body, took⟩
  · rw [Process.filled, body]
    refine inv_progressed took.sound maxlen (fun next waits => counted_of_round waits) ?_
      (took.failed.trans (failedLast_append_read history outcome).symm) _
    rw [carried_round maxlen _ (inv.counted maxlen frame rfl), placed', obtained', ← took.kept]
    simp only [List.append_assoc]
  · rw [Process.filled, body]
    show Inv (history ++ [.read outcome] ++ []) ⟨next, some (maxlen, frame)⟩
    rw [List.append_nil]
    refine ⟨took.sound, inv.counted, ?_,
      took.failed.trans (failedLast_append_read history outcome).symm⟩
    rw [placed', obtained', ← took.kept]
    rfl

theorem Inv.step (inv : Inv history process) {events : List Event} {next : Process}
    (step : Step process events next) : Inv (history ++ events) next := by
  obtain ⟨buffer, call⟩ := process
  have conserved := inv.conserved
  cases step with
  | call idle maxlen =>
    rw [Process.stored, idle] at conserved
    refine inv_progressed inv.sound maxlen (fun next waits => ?_) ?_ inv.failed call
    · rw [← (Text.frame_of_test waits).1]
      exact Nat.one_pos
    · rw [carried_test]
      exact conserved
  | @deliver maxlen frame within positive =>
    rw [Process.stored, within] at conserved
    obtain ⟨c, reply, unread, sound⟩ := LineBuffer.deliver_spec inv.sound positive
    have counted := inv.counted maxlen frame within
    refine inv_progressed sound maxlen (fun next waits => counted_of_round waits) ?_ ?_ call
    · rw [carried_round maxlen _ counted, reply, ← conserved, unread]
      show placed history ++ (frame.stored ++ [c]) ++ buffer.deliver.2.unread =
        placed history ++ frame.stored ++ ([c] ++ buffer.deliver.2.unread)
      simp only [List.append_assoc]
    · have before : ¬ FailedLast history := fun failed =>
        Int.lt_asymm positive (inv.failed.mpr failed)
      exact iff_of_false (Int.not_lt.mpr (Int.le_sub_one_of_lt positive)) before
  | @read maxlen frame outcome within empty fits =>
    obtain rfl : call = some (maxlen, frame) := within
    exact inv.filled empty fits

end Steps

theorem inv_of_run {history : List Event} {process : Process}
    (run : Run calls history process) : Inv history process := by
  refine run.invariant Inv ?_ ?_
  · rintro _ _ ⟨rfl, rfl⟩
    refine ⟨LineBuffer.sound_zero, by rintro _ _ ⟨⟩,
      LineBuffer.unread_of_nonpos (Int.le_refl 0), fun negative => ?_, by rintro ⟨_, ⟨⟩⟩⟩
    exact absurd negative (Int.lt_irrefl 0)
  · intro history process events next inv step
    exact inv.step step

/-! ### The law -/

/-- After any sequence of calls `readlinebuf` tells the truth exactly when the last `read` has not
failed. -/
theorem readlinebuf_tellsTruth_iff {history : List Event} {process : Process}
    (run : Run calls history process) (returned : process.call = none) (vptr : Nat) :
    TellsTruth history process.buffer vptr ↔
      ∀ errno, lastRead history ≠ some (.error errno) := by
  have inv := inv_of_run run
  constructor
  · intro truth errno failed
    have negative := inv.failed.mpr ⟨errno, failed⟩
    exact absurd truth.nonneg (Int.not_le.mpr negative)
  · intro succeeded
    have nonneg : 0 ≤ process.buffer.cnt :=
      Int.not_lt.mp fun negative =>
        have ⟨errno, failed⟩ := inv.failed.mp negative
        succeeded errno failed
    refine ⟨?_, nonneg, ?_⟩
    · have conserved := inv.conserved
      rw [Process.stored, returned, List.append_nil] at conserved
      rw [exposed_eq_unread]
      exact conserved
    · show process.buffer.cnt ≤ maxline
      rcases Int.lt_or_le 0 process.buffer.cnt with positive | empty
      · have inside := inv.sound.inside positive
        omega
      · omega

/-- The process in its first call, with room for one byte. -/
def firstCall : Process := ⟨LineBuffer.zero, some (2, Frame.enter)⟩

/-- The `read` of the first call. -/
theorem run_firstCall (outcome : ReadOutcome) (fits : outcome.Fits maxline) :
    Run calls (.read outcome :: (firstCall.filled 2 Frame.enter outcome).1)
      (firstCall.filled 2 Frame.enter outcome).2 := by
  have started : Run calls [] ⟨LineBuffer.zero, none⟩ := .start ⟨rfl, rfl⟩
  have called : Step ⟨LineBuffer.zero, none⟩ [] firstCall := .call rfl 2
  exact (started.step called).step (.read rfl (Int.le_refl 0) fits)

/-- Of two bytes that have come one is exposed. -/
theorem readlinebuf_tellsTruth_iff_ahead :
    TellsTruth [.read (.data [97, 98]), .returned ⟨2, [97, 0]⟩]
      (firstCall.filled 2 Frame.enter (.data [97, 98])).2.buffer 0 :=
  have size : 2 ≤ maxline := by decide
  (readlinebuf_tellsTruth_iff (run_firstCall (.data [97, 98]) size) rfl 0).mpr (by rintro _ ⟨⟩)

/-- The first call fails. -/
theorem not_readlinebuf_tellsTruth :
    ¬ ∀ history process, Run calls history process → process.call = none →
      TellsTruth history process.buffer 0 := by
  intro tells
  have failed := run_firstCall (.error (.other 104)) (Nat.zero_le _)
  have truth := tells _ _ failed rfl
  exact absurd truth.nonneg (by decide)

end SocketProgram.ReadlineBuf
