/-
This file is about the files on which `str_cli` and `str_echo` wait for each other. The
client waits in `readline` until a line has come back, and the server has nothing more to send
back until the client writes again. `readline` returns for a newline or when it has no more
room. So a line comes back to a client that goes on waiting when it has neither.

`fgets` cuts only one such line from a file that has no NUL: the last one, when it ends with
the file instead of a newline and does not fill the array. A NUL makes one of any line,
because `strlen` stops there and the rest of the line is never written. These are the files
on which the two can come to wait for each other, and they always can on these.
-/

import SocketProgram.EchoSystem

namespace SocketProgram.EchoSystem

open Memory Source Runs

/-- `str_cli` waits for a byte inside `readline`, `str_echo` waits for one in `read`, and there
is none in either channel. -/
def Deadlocked (state : State) : Prop :=
  (∃ frame, state.client.pc = .reading frame) ∧ state.client.buffer.cnt ≤ 0 ∧
    state.toServer = [] ∧ state.toClient = [] ∧ state.server.pc = .reading

/-! ### The lines of a file -/

/-- What a file has after its last newline. -/
def lastLine : List Byte → List Byte
  | [] => []
  | c :: file => if newline ∈ c :: file then lastLine file else c :: file

/-- A line that makes `readline` return. -/
def Finished (line : List Byte) : Prop :=
  line.length = maxline - 1 ∨ ∃ first, line = first ++ [newline]

theorem Finished.ne_nil {line : List Byte} (finished : Finished line) : line ≠ [] := by
  rcases finished with full | ⟨first, ends⟩
  · intro nothing
    rw [nothing] at full
    cases full
  · rw [ends]
    exact List.append_ne_nil_of_right_ne_nil _ (List.cons_ne_nil _ _)

theorem lastLine_eq_self {file : List Byte} (none : newline ∉ file) : lastLine file = file := by
  cases file with
  | nil => rfl
  | cons c file => rw [lastLine, if_neg none]

theorem lastLine_append (first : List Byte) {file : List Byte} (some : newline ∈ file) :
    lastLine (first ++ file) = lastLine file := by
  induction first with
  | nil => rfl
  | cons c first inductionHypothesis =>
    rw [List.cons_append, lastLine, if_pos, inductionHypothesis]
    exact List.mem_cons_of_mem c (List.mem_append_right first some)

theorem lastLine_newline (file : List Byte) : lastLine (newline :: file) = lastLine file := by
  rw [lastLine, if_pos List.mem_cons_self]

/-- The ways `fgets` can end a line. -/
theorem fgetsLine_cases (room : Nat) (file : List Byte) :
    (∃ first, fgetsLine room file = first ++ [newline]) ∨
      newline ∉ fgetsLine room file ∧
        ((fgetsLine room file).length = room ∨
          fgetsLine room file = file ∧ file.length < room) := by
  induction room generalizing file with
  | zero => exact .inr ⟨List.not_mem_nil, .inl rfl⟩
  | succ room inductionHypothesis =>
    cases file with
    | nil => exact .inr ⟨List.not_mem_nil, .inr ⟨rfl, Nat.succ_pos room⟩⟩
    | cons c file =>
      rw [fgetsLine]
      by_cases same : c = newline
      · rw [if_pos same, same]
        exact .inl ⟨[], rfl⟩
      · rw [if_neg same]
        rcases inductionHypothesis file with ⟨first, ends⟩ | ⟨none, full | ⟨whole, short⟩⟩
        · exact .inl ⟨c :: first, by rw [ends]; rfl⟩
        · exact .inr ⟨List.not_mem_cons_of_ne_of_not_mem (Ne.symm same) none,
            .inl (congrArg Nat.succ full)⟩
        · exact .inr ⟨List.not_mem_cons_of_ne_of_not_mem (Ne.symm same) none,
            .inr ⟨congrArg (c :: ·) whole, Nat.succ_lt_succ short⟩⟩

/-- A line that makes `readline` return leaves the rest of the file with the same last line, up
to whole arrays. -/
theorem dvd_lastLine_iff {file rest : List Byte}
    (cut : fgetsLine (maxline - 1) file ++ rest = file)
    (finished : Finished (fgetsLine (maxline - 1) file)) :
    maxline - 1 ∣ (lastLine file).length ↔ maxline - 1 ∣ (lastLine rest).length := by
  have ended : ∀ first, fgetsLine (maxline - 1) file = first ++ [newline] →
      lastLine file = lastLine rest := by
    intro first ends
    rw [← cut, ends, List.append_assoc, List.singleton_append,
      lastLine_append first List.mem_cons_self, lastLine_newline]
  rcases fgetsLine_cases (maxline - 1) file with ⟨first, ends⟩ | ⟨none, -⟩
  · rw [ended first ends]
  rcases finished with full | ⟨first, ends⟩
  swap
  · rw [ended first ends]
  by_cases more : newline ∈ rest
  · rw [← cut, lastLine_append _ more]
  · have nowhere : newline ∉ fgetsLine (maxline - 1) file ++ rest := fun member =>
      (List.mem_append.mp member).elim none more
    have whole : (lastLine file).length = maxline - 1 + rest.length := by
      rw [← cut, lastLine_eq_self nowhere, List.length_append, full]
    rw [whole, lastLine_eq_self more]
    exact Nat.dvd_add_right (Nat.dvd_refl _)

theorem not_dvd_lastLine {file : List Byte} (nonempty : file ≠ [])
    (unfinished : ¬ Finished (fgetsLine (maxline - 1) file)) :
    ¬ maxline - 1 ∣ (lastLine file).length := by
  rcases fgetsLine_cases (maxline - 1) file with ⟨first, ends⟩ | ⟨none, full | ⟨whole, short⟩⟩
  · exact absurd (.inr ⟨first, ends⟩) unfinished
  · exact absurd (.inl full) unfinished
  · rw [whole] at none
    rw [lastLine_eq_self none]
    intro divides
    have positive := List.length_pos_iff.mpr nonempty
    exact absurd (Nat.le_of_dvd positive divides) (Nat.not_le.mpr short)

/-! ### Files on which nobody waits forever -/

/-- `readline` goes on only after a byte that is not a newline. -/
theorem round_next {frame next : Frame} {c : Byte}
    (round : (readlineLoop maxline).round ⟨1, c⟩ frame = .inr next) :
    next = ⟨frame.n + 1, frame.stored ++ [c]⟩ ∧ c ≠ newline := by
  by_cases same : c = newline
  · rw [same, Text.round_return (readlineBody_newline frame)] at round
    cases round
  · rw [Text.round_next (readlineBody_other same frame)] at round
    by_cases more : frame.n + 1 < maxline
    · rw [Text.test_more (decide_eq_true more)] at round
      exact ⟨(Sum.inr.inj round).symm, same⟩
    · rw [Text.test_over (decide_eq_false more)] at round
      cases round

/-- The line on its way will make `readline` return, and has not done so yet; so will the lines
that are left in the file. -/
structure Live (state : State) : Prop where
  rest : maxline - 1 ∣ (lastLine state.client.fp).length
  finished : state.client.pc ≠ .gets → state.client.pc ≠ .returned →
    Finished (state.client.stored ++ state.coming)
  quiet : ∀ frame, state.client.pc = .reading frame → newline ∉ frame.stored

theorem live_initial {file : List Byte} (divides : maxline - 1 ∣ (lastLine file).length)
    (sendline recvline buf : List Byte) :
    Live (State.initial file sendline recvline buf) where
  rest := divides
  finished gets := absurd rfl gets
  quiet frame same := by cases same

/-- A call of `written` as far as it has come leaves the client's file and output alone, and
enters `readline` with nothing read. -/
theorem sent_spec (client : Client) (progress : Int ⊕ WrittenFrame) :
    (client.sent progress).stdout = client.stdout ∧ (client.sent progress).fp = client.fp ∧
      ∀ frame, (client.sent progress).pc = .reading frame → frame = Frame.enter := by
  cases progress with
  | inl value =>
    rw [Client.sent, enter_reading]
    exact ⟨rfl, rfl, fun frame same => (ClientPc.reading.inj same).symm⟩
  | inr frame =>
    refine ⟨rfl, rfl, fun frame' same => ?_⟩
    cases same

theorem send_spec (client : Client) (stored : List Byte) :
    (client.send stored).stdout = client.stdout ∧ (client.send stored).fp = client.fp ∧
      ∀ frame, (client.send stored).pc = .reading frame → frame = Frame.enter :=
  sent_spec { client with sendline := overwrite client.sendline 0 stored } _

/-- A client that is in `written` or in `readline` is not between two lines. -/
theorem within_line {state : State} (pc : (∃ frame, state.client.pc = .writing frame) ∨
      ∃ frame, state.client.pc = .reading frame) :
    state.client.pc ≠ .gets ∧ state.client.pc ≠ .returned := by
  rcases pc with ⟨frame, pc⟩ | ⟨frame, pc⟩
  · rw [pc]
    refine ⟨fun same => ?_, fun same => ?_⟩ <;> cases same
  · rw [pc]
    refine ⟨fun same => ?_, fun same => ?_⟩ <;> cases same

section Steps

variable {version : Version} {file : List Byte} {state next : State}

/-- A step that neither gets nor prints a line keeps the line. -/
theorem line_eq (inv : Inv version file state) (inv' : Inv version file next)
    (stdout : next.client.stdout = state.client.stdout) (fp : next.client.fp = state.client.fp) :
    next.client.stored ++ next.coming = state.client.stored ++ state.coming := by
  have streams := inv'.stream.trans inv.stream.symm
  rw [stdout, fp] at streams
  exact List.append_cancel_left (List.append_cancel_right streams)

/-- A step that leaves the client where it is keeps it live. -/
theorem Live.same (live : Live state) (inv : Inv version file state)
    (inv' : Inv version file next) (client : next.client = state.client) : Live next := by
  have line := line_eq inv inv' (by rw [client]) (by rw [client])
  refine ⟨?_, ?_, ?_⟩
  · rw [client]
    exact live.rest
  · rw [line, client]
    exact live.finished
  · rw [client]
    exact live.quiet

/-- The line that `fgets` gives the client will make `readline` return. -/
theorem Live.fgets (live : Live state) (inv : Inv version file state) {stored rest : List Byte}
    (pc : state.client.pc = .gets) (got : fgets maxline state.client.fp = some (stored, rest))
    (inv' : Inv version file
      { state with client := { state.client with fp := rest }.send stored }) :
    Live { state with client := { state.client with fp := rest }.send stored } := by
  obtain ⟨stdout, fp, enters⟩ := send_spec { state.client with fp := rest } stored
  obtain ⟨-, cut⟩ := fgets_eq_some got
  have nonempty : state.client.fp ≠ [] := fun empty => by
    rw [empty] at got
    cases got
  have finished : Finished (fgetsLine (maxline - 1) state.client.fp) := by
    by_contra unfinished
    exact not_dvd_lastLine nonempty unfinished live.rest
  have before : state.client.stored ++ state.coming = [] := by
    rw [inv.between (.inl pc), Client.stored, pc]
    rfl
  have stream := inv.stream
  rw [before, List.append_nil, ← cut, ← List.append_assoc] at stream
  have stream' := inv'.stream
  rw [stdout, fp] at stream'
  have line := List.append_cancel_left (List.append_cancel_right (stream'.trans stream.symm))
  refine ⟨?_, fun _ _ => ?_, fun frame reading => ?_⟩
  · rw [fp]
    exact (dvd_lastLine_iff cut finished).mp live.rest
  · rw [line]
    exact finished
  · rw [enters frame reading]
    exact List.not_mem_nil

/-- What `readline` has stored has no newline as long as it goes on. -/
theorem Live.readline (live : Live state) (inv : Inv version file state) {frame : Frame}
    {buffer : LineBuffer} {toClient : List Byte} {progress : Return ⊕ Frame}
    (pc : state.client.pc = .reading frame)
    (reads : Reads version state.server.closed frame state.client.buffer state.toClient buffer
      toClient progress)
    (inv' : Inv version file
      { state with
        client := { state.client with buffer := buffer }.received progress
        toClient := toClient }) :
    Live
      { state with
        client := { state.client with buffer := buffer }.received progress
        toClient := toClient } := by
  obtain ⟨gets, returned⟩ := within_line (.inr ⟨frame, pc⟩)
  have serving := inv.serving returned
  obtain ⟨-, more⟩ := inv.counted frame pc
  cases progress with
  | inr next =>
    have line := line_eq inv inv' rfl rfl
    refine ⟨live.rest, fun _ _ => ?_, fun frame' reading => ?_⟩
    · rw [line]
      exact live.finished gets returned
    · obtain rfl : next = frame' := ClientPc.reading.inj reading
      rcases reads_cases reads inv.sound inv.unbuffered more with
        closed | ⟨-, -, ⟨same, -⟩ | ⟨c, round, -⟩⟩
      · exact absurd (of_decide_eq_true closed) serving
      · rw [Sum.inr.inj same]
        exact live.quiet frame pc
      · obtain ⟨rfl, other⟩ := round_next round.symm
        rw [List.mem_append, List.mem_singleton]
        exact not_or.mpr ⟨live.quiet frame pc, Ne.symm other⟩
  | inl ret =>
    have alive := inv'.alive
    by_cases ended : ret.value = 0
    · refine absurd ?_ alive
      simp only [Client.received, if_pos ended]
    · simp only [Client.received, if_neg ended]
      exact ⟨live.rest, fun gets => absurd rfl gets, fun frame' same => by cases same⟩

theorem live_step (live : Live state) (inv : Inv version file state)
    (inv' : Inv version file next) {party : Party} (step : Step version state party next) :
    Live next := by
  cases step with
  | fgetsNull pc ended =>
    exact ⟨live.rest, fun _ returned => absurd rfl returned, fun frame same => by cases same⟩
  | fgets pc got => exact live.fgets inv pc got inv'
  | @write frame outcome toServer pc writes =>
    obtain ⟨stdout, fp, enters⟩ := sent_spec state.client
      ((written (strlen state.client.sendline)).round outcome frame)
    have line := line_eq inv inv' stdout fp
    obtain ⟨gets, returned⟩ := within_line (.inl ⟨frame, pc⟩)
    refine ⟨?_, fun _ _ => ?_, fun frame' reading => ?_⟩
    · rw [fp]
      exact live.rest
    · rw [line]
      exact live.finished gets returned
    · rw [enters frame' reading]
      exact List.not_mem_nil
  | readline pc reads => exact live.readline inv pc reads inv'
  | echoRead pc reads => exact live.same inv inv' rfl
  | echoWrite pc writes => exact live.same inv inv' rfl

/-- A live client never waits for a server that waits for it. -/
theorem Live.not_deadlocked (live : Live state) (inv : Inv version file state) :
    ¬ Deadlocked state := by
  rintro ⟨⟨frame, pc⟩, empty, toServer, toClient, reading⟩
  have coming : state.coming = [] := by
    rw [State.coming, LineBuffer.unread_of_nonpos empty, toClient, toServer, Server.pending,
      reading, Client.unwritten, pc]
    rfl
  have stored : state.client.stored = frame.stored := by rw [Client.stored, pc]
  obtain ⟨gets, returned⟩ := within_line (.inr ⟨frame, pc⟩)
  have finished := live.finished gets returned
  rw [coming, stored, List.append_nil] at finished
  rcases finished with full | ⟨first, ends⟩
  · obtain ⟨counted, more⟩ := inv.counted frame pc
    rw [counted, full] at more
    exact absurd more (by decide)
  · refine live.quiet frame pc ?_
    rw [ends]
    exact List.mem_concat_self

end Steps

/-- On these files nobody waits forever. -/
theorem run_not_deadlocked {version : Version} {file : List Byte} (noNul : 0 ∉ file)
    (divides : maxline - 1 ∣ (lastLine file).length) {history : List Party} {state : State}
    (run : Run (echoSystem version file) history state) : ¬ Deadlocked state := by
  have both : Inv version file state ∧ Live state := by
    refine run.invariant (fun _ state => Inv version file state ∧ Live state) ?_ ?_
    · rintro _ _ ⟨rfl, sendline, recvline, buf, rfl⟩
      exact ⟨inv_initial version file sendline recvline buf,
        live_initial divides sendline recvline buf⟩
    · rintro _ state _ next ⟨inv, live⟩ ⟨party, step, rfl⟩
      have inv' := inv_step noNul inv step
      exact ⟨inv', live_step live inv inv' step⟩
  exact both.2.not_deadlocked both.1

/-! ### Files on which both wait -/

/-- A state that some run of the system on this file ends in. -/
def Reaches (version : Version) (file : List Byte) (state : State) : Prop :=
  ∃ history, Run (echoSystem version file) history state

theorem Reaches.step {version : Version} {file : List Byte} {state next : State} {party : Party}
    (reaches : Reaches version file state) (step : Step version state party next) :
    Reaches version file next := by
  obtain ⟨history, run⟩ := reaches
  exact ⟨_, run.step ⟨party, step, rfl⟩⟩

/-- The client is about to get a line, and nothing is on its way. -/
structure Between (version : Version) (fp : List Byte) (state : State) : Prop where
  pc : state.client.pc = .gets
  fp : state.client.fp = fp
  toServer : state.toServer = []
  toClient : state.toClient = []
  server : state.server.pc = .reading
  unread : state.client.buffer.unread = []
  sound : state.client.buffer.Sound
  unbuffered : version = .readline1 → state.client.buffer.cnt ≤ 0

/-- The server is idle, and this is left of what it has sent back to `readline`. -/
structure Returning (version : Version) (fp : List Byte) (frame : Frame) (left : List Byte)
    (state : State) : Prop where
  pc : state.client.pc = .reading frame
  fp : state.client.fp = fp
  toServer : state.toServer = []
  server : state.server.pc = .reading
  left : state.client.buffer.unread ++ state.toClient = left
  fits : state.toClient.length ≤ maxline
  sound : state.client.buffer.Sound
  unbuffered : version = .readline1 → state.client.buffer.cnt ≤ 0
  counted : frame.n = frame.stored.length + 1

/-- A byte that is there can be read. -/
theorem reads_next {version : Version} (frame : Frame) {buffer : LineBuffer}
    {channel left : List Byte} {c : Byte} (coming : buffer.unread ++ channel = c :: left)
    (fits : channel.length ≤ maxline) (sound : buffer.Sound)
    (unbuffered : version = .readline1 → buffer.cnt ≤ 0) :
    ∃ buffer' channel', Reads version false frame buffer channel buffer' channel'
        ((readlineLoop maxline).round ⟨1, c⟩ frame) ∧
      buffer'.unread ++ channel' = left ∧ channel'.length ≤ maxline ∧ buffer'.Sound ∧
        (version = .readline1 → buffer'.cnt ≤ 0) := by
  cases version with
  | readline1 =>
    have empty := unbuffered rfl
    rw [LineBuffer.unread_of_nonpos empty, List.nil_append] at coming
    subst coming
    have round : (readline1Text maxline).round (.data [c]) frame =
        (readlineLoop maxline).round ⟨1, c⟩ frame :=
      Text.round_congr (readline1Body_data c frame) rfl
    refine ⟨buffer, left, ?_, ?_, Nat.le_of_succ_le fits, sound, unbuffered⟩
    · rw [← round]
      exact .byte rfl (.data [c] left (List.cons_ne_nil c []) (Nat.le_refl 1))
    · rw [LineBuffer.unread_of_nonpos empty]
      rfl
  | readline =>
    by_cases positive : 0 < buffer.cnt
    · obtain ⟨c', reply, unread, sound'⟩ := LineBuffer.deliver_spec sound positive
      rw [unread, List.cons_append] at coming
      obtain ⟨rfl, rest⟩ := List.cons.inj coming
      refine ⟨buffer.deliver.2, channel, ?_, rest, fits, sound', fun same => by cases same⟩
      rw [← reply]
      exact .deliver rfl positive
    · have empty := Int.not_lt.mp positive
      rw [LineBuffer.unread_of_nonpos empty, List.nil_append] at coming
      have nonempty : channel ≠ [] := coming ▸ List.cons_ne_nil c left
      obtain ⟨sound', unread'⟩ := LineBuffer.unread_filled sound fits
      have positive' : (0 : Int) < (buffer.filled (.data channel)).rewind.cnt := by
        show (0 : Int) < channel.length
        exact_mod_cast List.length_pos_iff.mpr nonempty
      obtain ⟨c', reply, taken, sound''⟩ := LineBuffer.deliver_spec sound' positive'
      obtain ⟨rfl, rest⟩ := List.cons.inj (coming.symm.trans (unread'.symm.trans taken))
      have round : againRound (.data channel) buffer frame =
          ((buffer.filled (.data channel)).rewind.deliver.2,
            (readlineLoop maxline).round ⟨1, c⟩ frame) := by
        rw [againRound, againBody_data nonempty, ← reply]
      refine ⟨(buffer.filled (.data channel)).rewind.deliver.2, [], ?_, ?_, Nat.zero_le _,
        sound'', fun same => by cases same⟩
      · have fills : Reads .readline false frame buffer (channel ++ [])
            (againRound (.data channel) buffer frame).1 []
            (againRound (.data channel) buffer frame).2 :=
          .fill rfl empty (.data channel [] nonempty fits)
        rw [round, List.append_nil] at fills
        exact fills
      · rw [List.append_nil]
        exact rest.symm

section Returning

variable {version : Version} {file fp : List Byte} {frame : Frame} {state : State}

/-- `readline` takes the next byte. -/
theorem Returning.step {c : Byte} {left : List Byte}
    (returning : Returning version fp frame (c :: left) state) :
    ∃ buffer toClient, Step version state .client
        { state with
          client := { state.client with buffer := buffer }.received
            ((readlineLoop maxline).round ⟨1, c⟩ frame)
          toClient := toClient } ∧
      buffer.unread ++ toClient = left ∧ toClient.length ≤ maxline ∧ buffer.Sound ∧
        (version = .readline1 → buffer.cnt ≤ 0) := by
  have open' : state.server.closed = false := by
    rw [Server.closed, returning.server]
    rfl
  obtain ⟨buffer, toClient, reads, rest⟩ := reads_next frame returning.left returning.fits
    returning.sound returning.unbuffered
  rw [← open'] at reads
  exact ⟨buffer, toClient, .readline returning.pc reads, rest⟩

/-- `readline` reads on through bytes that do not end the line. -/
theorem Returning.reads {bytes left : List Byte} (reaches : Reaches version file state)
    (returning : Returning version fp frame (bytes ++ left) state)
    (none : newline ∉ bytes) (short : frame.stored.length + bytes.length < maxline - 1) :
    ∃ next frame', Reaches version file next ∧ Returning version fp frame' left next ∧
      frame'.stored = frame.stored ++ bytes := by
  induction bytes generalizing state frame with
  | nil => exact ⟨state, frame, reaches, returning, (List.append_nil _).symm⟩
  | cons c bytes inductionHypothesis =>
    obtain ⟨other, none⟩ := not_or.mp (mt List.mem_cons.mpr none)
    rw [List.length_cons] at short
    have counted := returning.counted
    have more : frame.n + 1 < maxline := by
      unfold maxline at short ⊢
      omega
    have round : (readlineLoop maxline).round ⟨1, c⟩ frame =
        .inr ⟨frame.n + 1, frame.stored ++ [c]⟩ :=
      (Text.round_next (readlineBody_other (Ne.symm other) frame)).trans
        (Text.test_more (decide_eq_true more))
    obtain ⟨buffer, toClient, step, rest, fits, sound, unbuffered⟩ := returning.step
    rw [round] at step
    have returning' : Returning version fp ⟨frame.n + 1, frame.stored ++ [c]⟩ (bytes ++ left)
        { state with
          client := { state.client with buffer := buffer }.received
            (.inr ⟨frame.n + 1, frame.stored ++ [c]⟩)
          toClient := toClient } :=
      ⟨rfl, returning.fp, returning.toServer, returning.server, rest, fits, sound, unbuffered,
        by rw [counted, List.length_append, List.length_singleton]⟩
    have short' : (frame.stored ++ [c]).length + bytes.length < maxline - 1 := by
      rw [List.length_append, List.length_singleton]
      omega
    obtain ⟨next, frame', reaches', returning'', stored⟩ :=
      inductionHypothesis (reaches.step step) returning' none short'
    refine ⟨next, frame', reaches', returning'', ?_⟩
    rw [stored, List.append_assoc]
    rfl

/-- `readline` returns for the byte that ends a line. -/
theorem Returning.returns {c : Byte} (reaches : Reaches version file state)
    (returning : Returning version fp frame [c] state)
    (ends : c = newline ∨ frame.stored.length + 1 = maxline - 1)
    (room : frame.stored.length + 1 ≤ maxline - 1) (none : newline ∉ frame.stored) :
    ∃ next, Reaches version file next ∧ Between version fp next := by
  have isLine : IsLine (maxline - 1) (frame.stored ++ [c]) := by
    refine ⟨by rw [List.length_append]; exact room, fun first rest split => ?_⟩
    rcases place_concat split with ⟨-, -, nothing⟩ | ⟨rest', front⟩
    · exact nothing
    · exact absurd (front ▸ List.mem_append_right first List.mem_cons_self) none
  obtain ⟨buffer, toClient, step, rest, fits, sound, unbuffered⟩ := returning.step
  rcases round_isLine isLine returning.counted with
    ⟨next, round, stored, counted, more⟩ | ⟨n, positive, -, round⟩
  · obtain ⟨-, other⟩ := round_next round
    rcases ends with same | full
    · exact absurd same other
    · rw [counted, stored, List.length_append, List.length_singleton, full] at more
      exact absurd more (by decide)
  · have nonzero : (Frame.filled ⟨n, frame.stored ++ [c]⟩).value ≠ 0 := by
      show (n : Int) ≠ 0
      omega
    obtain ⟨unread, toClient'⟩ := List.append_eq_nil_iff.mp rest
    refine ⟨_, reaches.step step, ?_⟩
    rw [round]
    simp only [Client.received, if_neg nonzero]
    exact ⟨rfl, returning.fp, returning.toServer, toClient', returning.server, unread, sound,
      unbuffered⟩

end Returning

/-! ### A line that is sent and comes back -/

/-- A call of `written` on a channel that takes everything at once. -/
theorem written_all {n : Nat} (positive : 0 < n) :
    (written n).test (.enter n) = .inr (.enter n) ∧
      ∃ value, (written n).round (.wrote n) (.enter n) = .inl value := by
  refine ⟨Text.test_more (decide_eq_true positive), ?_⟩
  have upTo : WrittenUpTo n (0 + n) ((written n).round (.wrote n) (.enter n)) :=
    written_round_wrote (Nat.zero_add n) positive (Nat.le_refl n)
  cases progress : (written n).round (.wrote n) (.enter n) with
  | inl value => exact ⟨value, rfl⟩
  | inr frame =>
    rw [progress] at upTo
    obtain ⟨-, inside, left⟩ := upTo
    omega

section Sending

variable {version : Version} {file fp : List Byte} {state : State}

/-- The client's call of `written`, when everything is taken at once, and the call of `readline`
that follows it. -/
theorem send_nonempty (client : Client) {stored text : List Byte}
    (sends : cstring (overwrite client.sendline 0 stored) = text) (nonempty : text ≠ []) :
    client.send stored =
      { client with
        sendline := overwrite client.sendline 0 stored
        pc := .writing (.enter text.length) } := by
  have length : strlen (overwrite client.sendline 0 stored) = text.length :=
    congrArg List.length sends
  obtain ⟨starts, -⟩ := written_all (List.length_pos_iff.mpr nonempty)
  rw [Client.send, length, starts]
  rfl

theorem send_empty (client : Client) {stored : List Byte}
    (sends : cstring (overwrite client.sendline 0 stored) = []) :
    client.send stored =
      { client with
        sendline := overwrite client.sendline 0 stored
        pc := .reading .enter } := by
  have length : strlen (overwrite client.sendline 0 stored) = 0 := congrArg List.length sends
  rw [Client.send, length]
  exact enter_reading _

/-- The server reads what has arrived and is about to write it back. -/
theorem read_nonempty (server : Server) {text : List Byte} (nonempty : text ≠ []) :
    server.read (.data text) =
      { server with
        buf := overwrite server.buf 0 text
        pc := .writing text.length (.enter text.length) } := by
  obtain ⟨starts, -⟩ := written_all (List.length_pos_iff.mpr nonempty)
  have positive : (0 : Int) < (ReadOutcome.data text).value := by
    rw [ReadOutcome.value_data]
    exact_mod_cast List.length_pos_iff.mpr nonempty
  have value : (ReadOutcome.data text).value.toNat = text.length := Int.toNat_natCast _
  rw [Server.read, if_pos positive, value, starts]
  rfl

theorem write_all {offered channel text : List Byte} (nonempty : text ≠ [])
    (offers : offered = text) (empty : channel = []) :
    ChannelWrite offered channel (.wrote text.length) text := by
  subst offers empty
  have positive := List.length_pos_iff.mpr nonempty
  have writes : ChannelWrite offered [] (.wrote offered.length)
      ([] ++ offered.take offered.length) := .wrote _ positive (Nat.le_refl _)
  rw [List.take_length] at writes
  exact writes

theorem read_all {channel text : List Byte} (closed : Bool) (nonempty : text ≠ [])
    (fits : text.length ≤ maxline) (arrived : channel = text) :
    ChannelRead maxline closed channel (.data text) [] := by
  subst arrived
  have reads : ChannelRead maxline closed (channel ++ []) (.data channel) [] :=
    .data channel [] nonempty fits
  rw [List.append_nil] at reads
  exact reads

/-- The client writes a line, as far as `strlen` finds it, and enters `readline`. -/
theorem Between.writes (reaches : Reaches version file state)
    (between : Between version fp state) {stored rest text : List Byte}
    (got : fgets maxline fp = some (stored, rest))
    (sends : cstring (overwrite state.client.sendline 0 stored) = text) :
    Reaches version file
      { state with
        client :=
          { state.client with
            fp := rest
            sendline := overwrite state.client.sendline 0 stored
            pc := .reading .enter }
        toServer := text } := by
  have fetched := reaches.step (.fgets between.pc (by rw [between.fp]; exact got))
  by_cases nothing : text = []
  · subst nothing
    rw [send_empty { state.client with fp := rest } sends, between.toServer] at fetched
    exact fetched
  · have length : strlen (overwrite state.client.sendline 0 stored) = text.length :=
      congrArg List.length sends
    have offers : (WrittenFrame.enter text.length).offered
        (overwrite state.client.sendline 0 stored) = text := by
      rw [← length]
      exact (take_strlen _).trans sends
    obtain ⟨-, value, ends⟩ := written_all (List.length_pos_iff.mpr nothing)
    rw [send_nonempty { state.client with fp := rest } sends nothing] at fetched
    have wrote := fetched.step (.write rfl (write_all nothing offers between.toServer))
    dsimp only at wrote
    rw [length, ends, Client.sent, enter_reading] at wrote
    exact wrote

/-- The server reads what has arrived and writes it back. -/
theorem Reaches.echoes {text : List Byte} (reaches : Reaches version file state)
    (reading : state.server.pc = .reading) (arrived : state.toServer = text)
    (empty : state.toClient = []) (fits : text.length ≤ maxline) :
    ∃ server : Server, server.pc = .reading ∧ Reaches version file
      { state with toServer := [], server := server, toClient := text } := by
  by_cases nothing : text = []
  · subst nothing
    obtain ⟨client, toServer, server, toClient⟩ := state
    obtain rfl : toServer = [] := arrived
    obtain rfl : toClient = [] := empty
    exact ⟨server, reading, reaches⟩
  · obtain ⟨-, value, ends⟩ := written_all (List.length_pos_iff.mpr nothing)
    have offers : (WrittenFrame.enter text.length).offered (overwrite state.server.buf 0 text) =
        text := by
      rw [overwrite_zero]
      exact List.take_left
    have read := reaches.step (.echoRead reading (read_all _ nothing fits arrived))
    rw [read_nonempty state.server nothing] at read
    have wrote := read.step (.echoWrite rfl (write_all nothing offers empty))
    dsimp only at wrote
    rw [ends] at wrote
    exact ⟨_, rfl, wrote⟩

/-- A line goes to the server and comes back, as far as `strlen` finds it. -/
theorem Between.sends (reaches : Reaches version file state) (between : Between version fp state)
    (nonempty : fp ≠ []) :
    ∃ next, Reaches version file next ∧
      Returning version (fp.drop (fgetsLine (maxline - 1) fp).length) Frame.enter
        ((fgetsLine (maxline - 1) fp).takeWhile fun c => c != 0) next := by
  have got : fgets maxline fp = some (fgetsLine (maxline - 1) fp ++ [0],
      fp.drop (fgetsLine (maxline - 1) fp).length) := by
    cases fp with
    | nil => exact absurd rfl nonempty
    | cons c fp => rfl
  have fits : ((fgetsLine (maxline - 1) fp).takeWhile fun c => c != 0).length ≤ maxline :=
    ((List.takeWhile_prefix _).length_le.trans (length_fgetsLine _ _)).trans (Nat.sub_le _ _)
  have wrote := between.writes reaches got (cstring_overwrite_takeWhile _ _)
  obtain ⟨server, reading, echoed⟩ := wrote.echoes between.server rfl between.toClient fits
  refine ⟨_, echoed, rfl, rfl, rfl, reading, ?_, fits, between.sound, between.unbuffered, rfl⟩
  show state.client.buffer.unread ++ _ = _
  rw [between.unread]
  rfl

end Sending

/-- What `strlen` finds of such a line does not make `readline` return. -/
theorem text_unfinished {line : List Byte} (isLine : IsLine (maxline - 1) line)
    (unfinished : 0 ∈ line ∨ ¬ Finished line) :
    newline ∉ (line.takeWhile fun c => c != 0) ∧
      (line.takeWhile fun c => c != 0).length < maxline - 1 := by
  obtain ⟨more, split⟩ := List.takeWhile_prefix (l := line) fun c => c != 0
  have noNul : 0 ∉ (line.takeWhile fun c => c != 0) := fun member =>
    absurd (List.mem_takeWhile_imp member) (by decide)
  generalize (line.takeWhile fun c => c != 0) = text at split noNul ⊢
  have proper : line = text → ¬ Finished line := fun whole finished =>
    unfinished.elim (fun nul => noNul (whole ▸ nul)) fun other => other finished
  refine ⟨fun member => ?_, ?_⟩
  · obtain ⟨first, rest, cut⟩ := List.append_of_mem member
    have ends := isLine.ends first (rest ++ more) (by rw [← split, cut]; simp)
    obtain ⟨nothing, nothing'⟩ := List.append_eq_nil_iff.mp ends
    rw [nothing', List.append_nil] at split
    rw [nothing] at cut
    exact proper split.symm (.inr ⟨first, split.symm.trans cut⟩)
  · have fits := isLine.fits
    have lengths := congrArg List.length split
    rw [List.length_append] at lengths
    by_contra full
    have nothing : more = [] := List.eq_nil_of_length_eq_zero (by omega)
    rw [nothing, List.append_nil] at split
    exact proper split.symm (.inl (by omega))

section Bad

variable {version : Version} {file fp : List Byte} {state : State}

/-- A line that makes `readline` return, and has no NUL, comes back whole. -/
theorem Between.finished (reaches : Reaches version file state)
    (between : Between version fp state) (nonempty : fp ≠ [])
    (noNul : 0 ∉ fgetsLine (maxline - 1) fp)
    (finished : Finished (fgetsLine (maxline - 1) fp)) :
    ∃ next, Reaches version file next ∧
      Between version (fp.drop (fgetsLine (maxline - 1) fp).length) next := by
  obtain ⟨next, reaches', returning⟩ := between.sends reaches nonempty
  have text : ((fgetsLine (maxline - 1) fp).takeWhile fun c => c != 0) =
      fgetsLine (maxline - 1) fp :=
    List.takeWhile_eq_self_iff.mpr fun c member => bne_iff_ne.mpr fun nul => noNul (nul ▸ member)
  have ends := (isLine_fgetsLine (maxline - 1) fp).ends
  have fits := (isLine_fgetsLine (maxline - 1) fp).fits
  rw [text] at returning
  generalize fp.drop (fgetsLine (maxline - 1) fp).length = rest at returning ⊢
  have some := finished.ne_nil
  generalize fgetsLine (maxline - 1) fp = line at *
  obtain ⟨bytes, c, rfl⟩ := (List.eq_nil_or_concat' line).resolve_left some
  have none : newline ∉ bytes := fun member => by
    obtain ⟨first, rest', split⟩ := List.append_of_mem member
    have after := ends first (rest' ++ [c]) (by rw [split]; simp)
    exact List.append_ne_nil_of_right_ne_nil _ (List.cons_ne_nil _ _) after
  rw [List.length_append, List.length_singleton] at fits
  obtain ⟨next', frame, reaches'', returning', stored⟩ :=
    returning.reads reaches' none (by show 0 + bytes.length < _; omega)
  have stored' : frame.stored = bytes := stored
  refine returning'.returns reaches'' ?_ (by rw [stored']; exact fits) (by rw [stored']; exact none)
  rw [stored']
  rcases finished with full | ⟨first, last⟩
  · rw [List.length_append, List.length_singleton] at full
    exact .inr full
  · exact .inl (List.cons.inj (List.append_inj' last rfl).2).1

/-- Any other line leaves both waiting. -/
theorem Between.deadlocks (reaches : Reaches version file state)
    (between : Between version fp state) (nonempty : fp ≠ [])
    (unfinished : 0 ∈ fgetsLine (maxline - 1) fp ∨ ¬ Finished (fgetsLine (maxline - 1) fp)) :
    ∃ next, Reaches version file next ∧ Deadlocked next := by
  obtain ⟨next, reaches', returning⟩ := between.sends reaches nonempty
  obtain ⟨none, short⟩ := text_unfinished (isLine_fgetsLine (maxline - 1) fp) unfinished
  generalize ((fgetsLine (maxline - 1) fp).takeWhile fun c => c != 0) = text at *
  rw [← List.append_nil text] at returning
  obtain ⟨next', frame, reaches'', waits, -⟩ :=
    returning.reads reaches' none (by show 0 + text.length < _; omega)
  obtain ⟨unread, toClient⟩ := List.append_eq_nil_iff.mp waits.left
  refine ⟨next', reaches'', ⟨frame, waits.pc⟩, ?_, waits.toServer, toClient, waits.server⟩
  by_contra positive
  obtain ⟨c, -, some, -⟩ := LineBuffer.deliver_spec waits.sound (Int.not_le.mp positive)
  rw [unread] at some
  cases some

/-- The first line that leaves both waiting is reached. -/
theorem Between.reaches_deadlock (reaches : Reaches version file state)
    (between : Between version fp state)
    (bad : ¬ (0 ∉ fp ∧ maxline - 1 ∣ (lastLine fp).length)) :
    ∃ next, Reaches version file next ∧ Deadlocked next := by
  induction size : fp.length using Nat.strong_induction_on generalizing fp state with
  | _ _ inductionHypothesis =>
  have cut : fgetsLine (maxline - 1) fp ++ fp.drop (fgetsLine (maxline - 1) fp).length = fp :=
    List.prefix_iff_eq_append.mp (prefix_fgetsLine _ _)
  have nonempty : fp ≠ [] := by
    rintro rfl
    exact bad ⟨List.not_mem_nil, Nat.dvd_zero _⟩
  by_cases unfinished : 0 ∈ fgetsLine (maxline - 1) fp ∨ ¬ Finished (fgetsLine (maxline - 1) fp)
  · exact between.deadlocks reaches nonempty unfinished
  obtain ⟨noNul, finished⟩ := not_or.mp unfinished
  have finished := not_not.mp finished
  obtain ⟨next, reaches', between'⟩ := between.finished reaches nonempty noNul finished
  have shorter : (fp.drop (fgetsLine (maxline - 1) fp).length).length < fp.length := by
    have lengths := congrArg List.length cut
    have positive := List.length_pos_iff.mpr finished.ne_nil
    rw [List.length_append] at lengths
    omega
  refine inductionHypothesis _ (size ▸ shorter) reaches' between' (fun good => bad ⟨?_, ?_⟩) rfl
  · rw [← cut]
    exact fun member => (List.mem_append.mp member).elim noNul good.1
  · exact (dvd_lastLine_iff cut finished).mpr good.2

end Bad

theorem between_initial (version : Version) (file sendline recvline buf : List Byte) :
    Between version file (State.initial file sendline recvline buf) where
  pc := rfl
  fp := rfl
  toServer := rfl
  toClient := rfl
  server := rfl
  unread := LineBuffer.unread_of_nonpos (Int.le_refl 0)
  sound := LineBuffer.sound_zero
  unbuffered _ := Int.le_refl 0

/-- The client and the server never come to wait for each other exactly when the file has no NUL
and ends with a newline, or with as many bytes after its last newline as fill the client's array
a number of times. -/
theorem not_deadlocked_iff (version : Version) (file : List Byte) :
    (∀ history state, Run (echoSystem version file) history state → ¬ Deadlocked state) ↔
      0 ∉ file ∧ maxline - 1 ∣ (lastLine file).length := by
  constructor
  · intro free
    by_contra bad
    have start : Reaches version file (State.initial file [] [] []) :=
      ⟨[], .start ⟨rfl, [], [], [], rfl⟩⟩
    obtain ⟨state, ⟨history, run⟩, deadlocked⟩ :=
      (between_initial version file [] [] []).reaches_deadlock start bad
    exact free history state run deadlocked
  · rintro ⟨noNul, divides⟩ history state run
    exact run_not_deadlocked noNul divides run

/-- A file that is one byte. -/
theorem deadlocked_of_run : ¬ ∀ (version : Version) (file : List Byte) (history : List Party)
    (state : State), Run (echoSystem version file) history state → ¬ Deadlocked state := by
  intro free
  have start : Reaches .readline [97] (State.initial [97] [] [] []) :=
    ⟨[], .start ⟨rfl, [], [], [], rfl⟩⟩
  obtain ⟨state, ⟨history, run⟩, deadlocked⟩ :=
    (between_initial .readline [97] [] [] []).reaches_deadlock start (by decide)
  exact free .readline [97] history state run deadlocked

end SocketProgram.EchoSystem
