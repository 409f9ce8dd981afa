/-
This file models the two `readline`s of `lib/`. The one in `readline1.c` reads
the descriptor a byte at a time. The one in `readline.c` takes its bytes from
`my_read`, which fills a buffer of `MAXLINE` bytes that outlives the call.

Both are the same loop over different sources of characters. The source of
`readline1.c` is the descriptor itself; the source of `readline.c` is the buffer
followed by the descriptor. Reading ahead only moves bytes from the one to the
other, so the unread bytes of the buffer followed by what is still to arrive are
exactly what the byte-at-a-time version has in front of it. That is the
simulation under which the two return the same values and store the same bytes.
-/

import Mathlib.Data.List.GetD
import SocketProgram.Kernel
import SocketProgram.Library.Source

namespace SocketProgram

open Memory Source

/-! ### The loop of `readline` -/

/-- What a call of `readline` leaves its caller: the value it returned and the bytes it
stored from `vptr` on. -/
structure Return where
  value : Int
  stored : List Byte
  deriving DecidableEq, Repr

/-- The locals of the loop: `n`, and the bytes `ptr` has passed. -/
structure Frame where
  n : Nat
  stored : List Byte
  deriving DecidableEq, Repr

/-- The locals at the first test of the loop. -/
def Frame.enter : Frame := ⟨1, []⟩

/-- After the loop: `*ptr=0; return n;`. -/
def Frame.filled (frame : Frame) : Return := ⟨frame.n, frame.stored ++ [0]⟩

/-- What `my_read(fd, &c)` gives the loop: its value and the character. -/
structure Reply where
  rc : Int
  c : Byte
  deriving DecidableEq, Repr

/-- The body of the loop in `readline.c`, after `rc=my_read(fd,&c)`. -/
def readlineBody (reply : Reply) (frame : Frame) : Return ⊕ Frame :=
  if reply.rc = 1 then
    let stored := frame.stored ++ [reply.c]
    if reply.c = newline then .inl (Frame.filled ⟨frame.n, stored⟩)
    else .inr ⟨frame.n + 1, stored⟩
  else if reply.rc = 0 then .inl ⟨frame.n - 1, frame.stored ++ [0]⟩
  else .inl ⟨-1, frame.stored⟩

/-- A newline ends the line. -/
theorem readlineBody_newline (frame : Frame) :
    readlineBody ⟨1, newline⟩ frame =
      .inl (Frame.filled ⟨frame.n, frame.stored ++ [newline]⟩) := rfl

/-- Every other byte is stored, and the loop goes round. -/
theorem readlineBody_other {c : Byte} (other : c ≠ newline) (frame : Frame) :
    readlineBody ⟨1, c⟩ frame = .inr ⟨frame.n + 1, frame.stored ++ [c]⟩ := by
  rw [readlineBody, if_pos rfl]
  exact if_neg other

/-- Going round the loop counts `n` up. -/
theorem n_of_readlineBody {reply : Reply} {frame next : Frame}
    (round : readlineBody reply frame = .inr next) : next.n = frame.n + 1 := by
  unfold readlineBody at round
  split_ifs at round
  rw [← Sum.inr.inj round]

/-- The body only adds to what is stored. -/
theorem stored_of_readlineBody (reply : Reply) (frame : Frame) :
    frame.stored <+: (readlineBody reply frame).elim Return.stored Frame.stored := by
  unfold readlineBody
  split_ifs
  · exact ⟨[reply.c] ++ [0], (List.append_assoc _ _ _).symm⟩
  · exact List.prefix_append _ _
  · exact List.prefix_append _ _
  · exact List.prefix_refl _

/-- `for(n=1;n<maxlen;n++)`, with what follows the loop. -/
def readlineLoop (maxlen : Nat) : Loop Reply Frame Return where
  more frame := decide (frame.n < maxlen)
  finish := Frame.filled
  body := readlineBody
  distance frame := maxlen - frame.n
  nearer reply frame next more round := by
    have counted := n_of_readlineBody round
    have below := of_decide_eq_true more
    omega

/-! ### `readline1.c` -/

/-- The body of the loop in `readline1.c`, after `rc=read(fd,&c,1)`. The `goto again` does
not come back through the test of the loop, but `n` has not moved either. -/
def readline1Body (outcome : ReadOutcome) (frame : Frame) : Return ⊕ Frame :=
  if outcome.value = 1 then
    let c := outcome.bytes.headD 0
    let stored := frame.stored ++ [c]
    if c = newline then .inl (Frame.filled ⟨frame.n, stored⟩)
    else .inr ⟨frame.n + 1, stored⟩
  else if outcome.value = 0 then .inl ⟨frame.n - 1, frame.stored ++ [0]⟩
  else if outcome.errno? = some .eintr then .inr frame
  else .inl ⟨-1, frame.stored⟩

/-- `readline` of `readline1.c`, one `read` at a time. -/
def readline1Text (maxlen : Nat) : Text ReadOutcome Frame Return where
  more frame := decide (frame.n < maxlen)
  finish := Frame.filled
  body := readline1Body

/-- The loop of `readline1.c` on a descriptor. `none` when the descriptor blocks. -/
def readline1Loop (split : Split) (maxlen : Nat) (queue : List Arrival) (frame : Frame) :
    Option (Return × List Arrival) :=
  if frame.n < maxlen then
    match _reads : read split queue 1 with
    | none => none
    | some (outcome, rest) =>
      match readline1Body outcome frame with
      | .inl ret => some (ret, rest)
      | .inr next => readline1Loop split maxlen rest next
  else some (frame.filled, queue)
termination_by queue.length
decreasing_by exact length_lt_of_read Nat.one_pos _reads

/-- `readline` of `readline1.c`. -/
def readline1 (split : Split) (maxlen : Nat) (queue : List Arrival) :
    Option (Return × List Arrival) :=
  readline1Loop split maxlen queue Frame.enter

/-! ### `readline.c` -/

/-- The buffer of a `my_read`: `read_cnt`, `read_ptr` as an offset into `read_buf`, and
`read_buf`. -/
structure LineBuffer where
  cnt : Int
  ptr : Nat
  buf : List Byte
  deriving DecidableEq, Repr

/-- Statics, and memory from `calloc`, are zero. -/
def LineBuffer.zero : LineBuffer := ⟨0, 0, List.replicate maxline 0⟩

/-- `read_cnt--; *ptr= *read_ptr++; return 1;`. -/
def LineBuffer.deliver (buffer : LineBuffer) : Reply × LineBuffer :=
  (⟨1, buffer.buf.getD buffer.ptr 0⟩,
    { buffer with cnt := buffer.cnt - 1, ptr := buffer.ptr + 1 })

/-- `read_cnt = read(fd,read_buf,sizeof(read_buf))`. -/
def LineBuffer.filled (buffer : LineBuffer) (outcome : ReadOutcome) : LineBuffer :=
  { buffer with cnt := outcome.value, buf := overwrite buffer.buf 0 outcome.bytes }

/-- `read_ptr=read_buf`. -/
def LineBuffer.rewind (buffer : LineBuffer) : LineBuffer :=
  { buffer with ptr := 0 }

/-- The part of `my_read` from the label `again` on, after the `read`: it delivers, or fails,
or goes back to the label. -/
def againBody (outcome : ReadOutcome) (buffer : LineBuffer) :
    (Reply × LineBuffer) ⊕ LineBuffer :=
  let buffer := buffer.filled outcome
  if buffer.cnt < 0 then
    if outcome.errno? = some .eintr then .inr buffer else .inl (⟨-1, 0⟩, buffer)
  else if buffer.cnt = 0 then .inl (⟨0, 0⟩, buffer)
  else .inl buffer.rewind.deliver

/-- The part of `my_read` from the label `again` on, entered when the buffer is empty. -/
def again (split : Split) (buffer : LineBuffer) (queue : List Arrival) :
    Option (Reply × LineBuffer × List Arrival) :=
  match _reads : read split queue maxline with
  | none => none
  | some (outcome, rest) =>
    match againBody outcome buffer with
    | .inl (reply, buffer) => some (reply, buffer, rest)
    | .inr buffer => again split buffer rest
termination_by queue.length
decreasing_by exact length_lt_of_read (by decide) _reads

/-- `my_read` over its buffer and the descriptor. -/
def myRead (split : Split) (source : LineBuffer × List Arrival) :
    Option (Reply × LineBuffer × List Arrival) :=
  if source.1.cnt ≤ 0 then again split source.1 source.2
  else some (source.1.deliver.1, source.1.deliver.2, source.2)

/-- `readline` of `readline.c`. -/
def readline (split : Split) (maxlen : Nat) (source : LineBuffer × List Arrival) :
    Option (Return × LineBuffer × List Arrival) :=
  (readlineLoop maxlen).run (myRead split) source Frame.enter

/-! ### The stream both read -/

/-- What is in front of a reader that reads a byte at a time and tries again when it is
interrupted. -/
def nextReply : List Arrival → Option (Reply × List Arrival)
  | [] => none
  | .byte c :: rest => some (⟨1, c⟩, rest)
  | .eof :: rest => some (⟨0, 0⟩, rest)
  | .fail errno :: rest => if errno = .eintr then nextReply rest else some (⟨-1, 0⟩, rest)

theorem readline1Body_data (c : Byte) (frame : Frame) :
    readline1Body (.data [c]) frame = readlineBody ⟨1, c⟩ frame := by
  simp [readline1Body, readlineBody]

theorem readline1Body_eof (frame : Frame) :
    readline1Body (.data []) frame = readlineBody ⟨0, 0⟩ frame := by
  simp [readline1Body, readlineBody]

theorem readline1Body_interrupted (frame : Frame) :
    readline1Body (.error .eintr) frame = .inr frame := by
  simp [readline1Body]

theorem readline1Body_error {errno : Errno} (hard : errno ≠ .eintr) (frame : Frame) :
    readline1Body (.error errno) frame = readlineBody ⟨-1, 0⟩ frame := by
  simp [readline1Body, readlineBody, hard]

theorem readline1Loop_finish {split : Split} {maxlen : Nat} {queue : List Arrival}
    {frame : Frame} (stopped : ¬ frame.n < maxlen) :
    readline1Loop split maxlen queue frame = some (frame.filled, queue) := by
  rw [readline1Loop, if_neg stopped]

theorem readline1Loop_round {split : Split} {maxlen : Nat} {queue rest : List Arrival}
    {frame : Frame} {outcome : ReadOutcome} (more : frame.n < maxlen)
    (reads : read split queue 1 = some (outcome, rest)) :
    readline1Loop split maxlen queue frame =
      match readline1Body outcome frame with
      | .inl ret => some (ret, rest)
      | .inr next => readline1Loop split maxlen rest next := by
  rw [readline1Loop, if_pos more, reads]

/-- One round of the byte-at-a-time loop that is not interrupted is one round of the common
loop. -/
theorem readline1Loop_round_eq {split : Split} {maxlen : Nat} {queue rest : List Arrival}
    {frame : Frame} {outcome : ReadOutcome} {reply : Reply} (more : frame.n < maxlen)
    (reads : read split queue 1 = some (outcome, rest))
    (pulled : nextReply queue = some (reply, rest))
    (same : readline1Body outcome frame = readlineBody reply frame)
    (later : ∀ next, readline1Loop split maxlen rest next =
      (readlineLoop maxlen).run nextReply rest next) :
    readline1Loop split maxlen queue frame = (readlineLoop maxlen).run nextReply queue frame := by
  rw [readline1Loop_round more reads, same]
  cases round : readlineBody reply frame with
  | inl ret => exact (Loop.run_return (decide_eq_true more) pulled round).symm
  | inr next =>
    rw [Loop.run_round (decide_eq_true more) pulled round]
    exact later next

/-- The byte-at-a-time loop is the loop over the stream. -/
theorem readline1Loop_eq_run (split : Split) (maxlen : Nat) (queue : List Arrival)
    (frame : Frame) :
    readline1Loop split maxlen queue frame =
      (readlineLoop maxlen).run nextReply queue frame := by
  induction queue generalizing frame with
  | nil =>
    by_cases more : frame.n < maxlen
    · rw [readline1Loop, if_pos more, Loop.run_blocked (decide_eq_true more) rfl]
      rfl
    · rw [readline1Loop_finish more, Loop.run_finish (decide_eq_false more)]
      rfl
  | cons arrival rest inductionHypothesis =>
    by_cases more : frame.n < maxlen
    · cases arrival with
      | byte c =>
        exact readline1Loop_round_eq more (read_one split c rest) rfl
          (readline1Body_data c frame) inductionHypothesis
      | eof =>
        exact readline1Loop_round_eq more rfl rfl (readline1Body_eof frame) inductionHypothesis
      | fail errno =>
        by_cases interrupted : errno = .eintr
        · subst interrupted
          have skipped : nextReply (.fail .eintr :: rest) = nextReply rest := if_pos rfl
          rw [readline1Loop_round more rfl, readline1Body_interrupted,
            Loop.run_congr (decide_eq_true more) skipped]
          exact inductionHypothesis frame
        · exact readline1Loop_round_eq more rfl (if_neg interrupted)
            (readline1Body_error interrupted frame) inductionHypothesis
    · rw [readline1Loop_finish more, Loop.run_finish (decide_eq_false more)]
      rfl

/-! ### Reading ahead -/

/-- The bytes of the buffer that have not been delivered. -/
def LineBuffer.unread (buffer : LineBuffer) : List Byte :=
  (buffer.buf.drop buffer.ptr).take buffer.cnt.toNat

/-- The unread bytes lie inside the buffer. -/
structure LineBuffer.Sound (buffer : LineBuffer) : Prop where
  length_buf : buffer.buf.length = maxline
  inside : 0 < buffer.cnt → buffer.ptr + buffer.cnt.toNat ≤ maxline

/-- The buffered reader is ahead of the stream by its unread bytes. -/
def Ahead (source : LineBuffer × List Arrival) (queue : List Arrival) : Prop :=
  source.1.Sound ∧ source.1.unread.map Arrival.byte ++ source.2 = queue

theorem LineBuffer.sound_zero : LineBuffer.zero.Sound :=
  ⟨List.length_replicate, fun positive => absurd positive (Int.lt_irrefl 0)⟩

theorem LineBuffer.unread_of_nonpos {buffer : LineBuffer} (empty : buffer.cnt ≤ 0) :
    buffer.unread = [] := by
  rw [LineBuffer.unread, Int.toNat_of_nonpos empty, List.take_zero]

theorem ahead_zero (queue : List Arrival) : Ahead (LineBuffer.zero, queue) queue :=
  ⟨LineBuffer.sound_zero, by rw [LineBuffer.unread_of_nonpos (Int.le_refl 0)]; rfl⟩

/-- Delivering takes the first unread byte. -/
theorem LineBuffer.deliver_spec {buffer : LineBuffer} (sound : buffer.Sound)
    (positive : 0 < buffer.cnt) :
    ∃ c, buffer.deliver.1 = ⟨1, c⟩ ∧ buffer.unread = c :: buffer.deliver.2.unread ∧
      buffer.deliver.2.Sound := by
  have inside := sound.inside positive
  have bound : buffer.ptr < buffer.buf.length := by
    rw [sound.length_buf]
    omega
  have count : buffer.cnt.toNat = (buffer.cnt - 1).toNat + 1 := by omega
  refine ⟨buffer.buf.getD buffer.ptr 0, rfl, ?_, sound.length_buf, ?_⟩
  · rw [LineBuffer.unread, count, List.drop_eq_getElem_cons bound, List.take_succ_cons,
      List.getD_eq_getElem _ _ bound]
    rfl
  · intro _
    show buffer.ptr + 1 + (buffer.cnt - 1).toNat ≤ maxline
    omega

theorem ahead_deliver {buffer : LineBuffer} (sound : buffer.Sound) (positive : 0 < buffer.cnt)
    (queue : List Arrival) :
    Agree Ahead (some (buffer.deliver.1, buffer.deliver.2, queue))
      (nextReply (buffer.unread.map Arrival.byte ++ queue)) := by
  obtain ⟨c, reply, unread, sound'⟩ := LineBuffer.deliver_spec sound positive
  rw [reply, unread]
  exact .replied ⟨sound', rfl⟩

theorem againBody_data {bytes : List Byte} (nonempty : bytes ≠ []) (buffer : LineBuffer) :
    againBody (.data bytes) buffer = .inl (buffer.filled (.data bytes)).rewind.deliver := by
  have positive : (0 : Int) < bytes.length := by
    exact_mod_cast List.length_pos_iff.mpr nonempty
  rw [againBody]
  rw [if_neg, if_neg]
  · exact Int.ne_of_gt positive
  · exact Int.not_lt.mpr (Int.le_of_lt positive)

theorem againBody_eof (buffer : LineBuffer) :
    againBody (.data []) buffer = .inl (⟨0, 0⟩, buffer.filled (.data [])) := rfl

theorem againBody_interrupted (buffer : LineBuffer) :
    againBody (.error .eintr) buffer = .inr (buffer.filled (.error .eintr)) := rfl

theorem againBody_error {errno : Errno} (hard : errno ≠ .eintr) (buffer : LineBuffer) :
    againBody (.error errno) buffer = .inl (⟨-1, 0⟩, buffer.filled (.error errno)) := by
  rw [againBody]
  rw [if_pos, if_neg]
  · exact fun same => hard (Option.some.inj same)
  · show (-1 : Int) < 0
    decide

theorem again_round {split : Split} {buffer : LineBuffer} {queue rest : List Arrival}
    {outcome : ReadOutcome} (reads : read split queue maxline = some (outcome, rest)) :
    again split buffer queue =
      match againBody outcome buffer with
      | .inl (reply, buffer) => some (reply, buffer, rest)
      | .inr buffer => again split buffer rest := by
  rw [again, reads]

theorem LineBuffer.length_filled {buffer : LineBuffer} (sound : buffer.Sound)
    {outcome : ReadOutcome} (fits : outcome.Fits maxline) :
    (buffer.filled outcome).buf.length = maxline := by
  have length := length_overwrite buffer.buf 0 outcome.bytes
    (by rw [sound.length_buf, Nat.zero_add]; exact fits)
  rw [sound.length_buf] at length
  exact length

/-- A buffer whose count is not positive is sound whatever it holds. -/
theorem LineBuffer.sound_filled {buffer : LineBuffer} (sound : buffer.Sound)
    {outcome : ReadOutcome} (fits : outcome.Fits maxline) (nothing : outcome.value ≤ 0) :
    (buffer.filled outcome).Sound :=
  ⟨LineBuffer.length_filled sound fits, fun positive => absurd nothing (Int.not_le.mpr positive)⟩

/-- A buffer that has just been filled holds what was read, unread. -/
theorem LineBuffer.unread_filled {buffer : LineBuffer} (sound : buffer.Sound) {bytes : List Byte}
    (fits : bytes.length ≤ maxline) :
    (buffer.filled (.data bytes)).rewind.Sound ∧
      (buffer.filled (.data bytes)).rewind.unread = bytes := by
  refine ⟨⟨LineBuffer.length_filled sound fits, fun _ => ?_⟩, ?_⟩
  · show 0 + (bytes.length : Int).toNat ≤ maxline
    rw [Int.toNat_natCast, Nat.zero_add]
    exact fits
  · show ((overwrite buffer.buf 0 bytes).drop 0).take (bytes.length : Int).toNat = bytes
    have taken := take_overwrite buffer.buf 0 bytes (Nat.zero_le _)
    rw [Nat.zero_add] at taken
    rw [List.drop_zero, Int.toNat_natCast, taken]
    rfl

/-- An empty buffer answers from the descriptor what the stream would have answered. -/
theorem again_agree (split : Split) (queue : List Arrival) (buffer : LineBuffer)
    (sound : buffer.Sound) : Agree Ahead (again split buffer queue) (nextReply queue) := by
  induction queue generalizing buffer with
  | nil =>
    rw [again]
    exact .blocked
  | cons arrival rest inductionHypothesis =>
    cases arrival with
    | byte byte =>
      obtain ⟨bytes, left, reads, nonempty, fits, split'⟩ :=
        read_byte split byte rest maxline (by decide)
      obtain ⟨sound', unread⟩ := LineBuffer.unread_filled sound fits
      rw [again_round reads, againBody_data nonempty, ← split']
      have positive : (0 : Int) < bytes.length := by
        exact_mod_cast List.length_pos_iff.mpr nonempty
      have delivered := ahead_deliver sound' positive left
      rw [unread] at delivered
      exact delivered
    | eof =>
      have sound' : (buffer.filled (.data [])).Sound :=
        LineBuffer.sound_filled sound (Nat.zero_le _) (Int.le_refl 0)
      rw [again_round rfl, againBody_eof]
      exact .replied ⟨sound', by rw [LineBuffer.unread_of_nonpos (Int.le_refl 0)]; rfl⟩
    | fail errno =>
      have sound' : (buffer.filled (.error errno)).Sound :=
        LineBuffer.sound_filled sound (Nat.zero_le _) (Int.neg_nonpos_of_nonneg Int.one_nonneg)
      have failed : (buffer.filled (.error errno)).cnt ≤ 0 := by
        show (-1 : Int) ≤ 0
        decide
      rw [again_round rfl, nextReply]
      by_cases interrupted : errno = .eintr
      · subst interrupted
        rw [againBody_interrupted, if_pos rfl]
        exact inductionHypothesis _ sound'
      · rw [againBody_error interrupted, if_neg interrupted]
        exact .replied ⟨sound', by rw [LineBuffer.unread_of_nonpos failed]; rfl⟩

/-- `my_read` answers what the stream it is ahead of would have answered, and stays ahead of
it. -/
theorem myRead_agree (split : Split) (source : LineBuffer × List Arrival)
    (queue : List Arrival) (ahead : Ahead source queue) :
    Agree Ahead (myRead split source) (nextReply queue) := by
  obtain ⟨sound, rfl⟩ := ahead
  by_cases empty : source.1.cnt ≤ 0
  · rw [myRead, if_pos empty, LineBuffer.unread_of_nonpos empty]
    exact again_agree split source.2 source.1 sound
  · rw [myRead, if_neg empty]
    exact ahead_deliver sound (Int.not_le.mp empty) source.2

/-- One call: the buffered version returns and stores what the byte-at-a-time version does,
and stays ahead of what that has left of the stream. -/
theorem readline_agree (split split' : Split) (maxlen : Nat) (source : LineBuffer × List Arrival)
    (queue : List Arrival) (ahead : Ahead source queue) :
    Agree Ahead (readline split maxlen source) (readline1 split' maxlen queue) := by
  rw [readline1, readline1Loop_eq_run]
  exact Loop.run_agree _ (myRead_agree split) source queue Frame.enter ahead

/-! ### Sequences of calls -/

/-- What a sequence of calls of `readline.c` on one descriptor gives, in order, up to the
first call that never returns. -/
def readlineCalls (split : Split) (source : LineBuffer × List Arrival) :
    List Nat → List Return
  | [] => []
  | maxlen :: maxlens =>
    match readline split maxlen source with
    | none => []
    | some (ret, rest) => ret :: readlineCalls split rest maxlens

/-- What a sequence of calls of `readline1.c` on one descriptor gives. -/
def readline1Calls (split : Split) (queue : List Arrival) : List Nat → List Return
  | [] => []
  | maxlen :: maxlens =>
    match readline1 split maxlen queue with
    | none => []
    | some (ret, rest) => ret :: readline1Calls split rest maxlens

theorem readlineCalls_of_ahead (split split' : Split) (maxlens : List Nat)
    (source : LineBuffer × List Arrival) (queue : List Arrival) (ahead : Ahead source queue) :
    readlineCalls split source maxlens = readline1Calls split' queue maxlens := by
  induction maxlens generalizing source queue with
  | nil => rfl
  | cons maxlen maxlens inductionHypothesis =>
    have agree := readline_agree split split' maxlen source queue ahead
    rw [readlineCalls, readline1Calls]
    cases called : readline split maxlen source with
    | none =>
      rw [called] at agree
      rw [agree.of_none]
    | some answer =>
      obtain ⟨ret, rest⟩ := answer
      rw [called] at agree
      obtain ⟨rest', called', ahead'⟩ := agree.of_some
      rw [called']
      exact congrArg (ret :: ·) (inductionHypothesis rest rest' ahead')

/-- The buffered `readline` refines the byte-at-a-time one: on whatever arrives on the
descriptor, however `read` splits the data for either of them, every sequence of calls
returns the same values and stores the same bytes. -/
theorem readline_refines_readline1 (split split' : Split) (queue : List Arrival)
    (maxlens : List Nat) :
    readlineCalls split (LineBuffer.zero, queue) maxlens = readline1Calls split' queue maxlens :=
  readlineCalls_of_ahead split split' maxlens _ queue (ahead_zero queue)

end SocketProgram
