/-
This file puts `str_cli` and `str_echo` at the two ends of a connection. The client
gets a line of its file, writes it, reads a line back and prints it; the server
writes back whatever it reads. Each direction is a reliable byte channel; reads and
writes are short in any way, and may be interrupted.

The client is never more than a line ahead of the server. The line it is at is
somewhere between its two ends: the part that has not come back is unread in its
buffer, in the channel to it, in the server's buffer, in the channel to the server,
or not yet written. In this order these make up the line, whatever the chunks. So
the newline that ends the line, or the last byte there is room for, is for `readline`
what it was for `fgets`, and what `readline` stores is the line again.
-/

import SocketProgram.Library.Runs
import SocketProgram.Readline
import SocketProgram.Stdio
import SocketProgram.Transfer

namespace SocketProgram.EchoSystem

open Memory Source Runs

/-! ### The client -/

/-- The `readline` the client is linked with: the one that reads a byte at a time or the one
that reads ahead. -/
inductive Version
  | readline1
  | readline
  deriving DecidableEq, Repr

/-- Where `str_cli` is: at `fgets`, in `written`, in `readline`, returned, or gone after the
server had terminated. -/
inductive ClientPc
  | gets
  | writing (frame : WrittenFrame)
  | reading (frame : Frame)
  | returned
  | exited
  deriving DecidableEq, Repr

/-- `str_cli`: what is left of its file, its two arrays, the buffer of `my_read`, and what it
has printed. -/
structure Client where
  pc : ClientPc
  fp : List Byte
  sendline : List Byte
  recvline : List Byte
  buffer : LineBuffer
  stdout : List Byte

/-- `printf("strcli: server terminated prematurely\n")`. -/
def terminated : List Byte :=
  "strcli: server terminated prematurely\n".toList.map fun c => UInt8.ofNat c.toNat

/-- The call of `readline` as far as it has come, and what follows it. -/
def Client.received (client : Client) : Return ⊕ Frame → Client
  | .inr frame => { client with pc := .reading frame }
  | .inl ret =>
    let recvline := overwrite client.recvline 0 ret.stored
    if ret.value = 0 then
      { client with
        pc := .exited, recvline := recvline, stdout := client.stdout ++ terminated }
    else
      { client with
        pc := .gets, recvline := recvline, stdout := client.stdout ++ cstring recvline }

/-- The call of `written` as far as it has come, and the call of `readline` that follows
it. -/
def Client.sent (client : Client) : Int ⊕ WrittenFrame → Client
  | .inr frame => { client with pc := .writing frame }
  | .inl _ => client.received ((readlineLoop maxline).test Frame.enter)

/-- `written(sockfd,sendline,strlen(sendline))`, entered with this line in `sendline`. -/
def Client.send (client : Client) (stored : List Byte) : Client :=
  let sendline := overwrite client.sendline 0 stored
  { client with sendline := sendline }.sent
    ((written (strlen sendline)).test (.enter (strlen sendline)))

/-- A `read` of `my_read`, from the label `again` on, and what the loop of `readline` makes of
it: the buffer and the progress of the call. -/
def againRound (outcome : ReadOutcome) (buffer : LineBuffer) (frame : Frame) :
    LineBuffer × (Return ⊕ Frame) :=
  match againBody outcome buffer with
  | .inl (reply, buffer) => (buffer, (readlineLoop maxline).round reply frame)
  | .inr buffer => (buffer, .inr frame)

/-- A step of `readline(sockfd,recvline,MAXLINE)` in a channel: from the buffer and the
channel to the buffer and the channel it leaves, with the progress of the call. -/
inductive Reads (version : Version) (closed : Bool) (frame : Frame) :
    LineBuffer → List Byte → LineBuffer → List Byte → Return ⊕ Frame → Prop
  | byte {buffer : LineBuffer} {channel channel' : List Byte} {outcome : ReadOutcome}
      (unbuffered : version = .readline1)
      (reads : ChannelRead 1 closed channel outcome channel') :
      Reads version closed frame buffer channel buffer channel'
        ((readline1Text maxline).round outcome frame)
  | deliver {buffer : LineBuffer} {channel : List Byte} (buffered : version = .readline)
      (positive : 0 < buffer.cnt) :
      Reads version closed frame buffer channel buffer.deliver.2 channel
        ((readlineLoop maxline).round buffer.deliver.1 frame)
  | fill {buffer : LineBuffer} {channel channel' : List Byte} {outcome : ReadOutcome}
      (buffered : version = .readline) (empty : buffer.cnt ≤ 0)
      (reads : ChannelRead maxline closed channel outcome channel') :
      Reads version closed frame buffer channel (againRound outcome buffer frame).1 channel'
        (againRound outcome buffer frame).2

/-! ### The server -/

/-- Where `str_echo` is: in `read`, in `written(sockfd,buf,n)`, or returned. -/
inductive ServerPc
  | reading
  | writing (n : Nat) (frame : WrittenFrame)
  | returned
  deriving DecidableEq, Repr

/-- `str_echo` with its array and what it has printed. -/
structure Server where
  pc : ServerPc
  buf : List Byte
  stdout : List Byte

/-- `printf("[wjianjia]===str_echo: read error \n")`. -/
def readError : List Byte :=
  "[wjianjia]===str_echo: read error \n".toList.map fun c => UInt8.ofNat c.toNat

/-- The call of `written` as far as it has come, and the `read` that follows it. -/
def Server.echoed (server : Server) (n : Nat) : Int ⊕ WrittenFrame → Server
  | .inr frame => { server with pc := .writing n frame }
  | .inl _ => { server with pc := .reading }

/-- `str_echo` after `n=read(sockfd,buf,MAXLINE)`. -/
def Server.read (server : Server) (outcome : ReadOutcome) : Server :=
  if 0 < outcome.value then
    { server with buf := overwrite server.buf 0 outcome.bytes }.echoed outcome.value.toNat
      ((written outcome.value.toNat).test (.enter outcome.value.toNat))
  else if outcome.value < 0 ∧ outcome.errno? = some .eintr then { server with pc := .reading }
  else if outcome.value < 0 then
    { server with pc := .returned, stdout := server.stdout ++ readError }
  else { server with pc := .returned }

/-! ### The system -/

/-- The two processes and the two channels between them. -/
structure State where
  client : Client
  toServer : List Byte
  server : Server
  toClient : List Byte

/-- Who takes a step. -/
inductive Party
  | client
  | server
  deriving DecidableEq, Repr

/-- The client's process is over, which closes its end of the connection. -/
def Client.closed (client : Client) : Bool :=
  decide (client.pc = .returned ∨ client.pc = .exited)

/-- The server's process is over, which closes its end of the connection. -/
def Server.closed (server : Server) : Bool := decide (server.pc = .returned)

/-- One step of one of the processes. -/
inductive Step (version : Version) : State → Party → State → Prop
  | fgetsNull {state : State} (pc : state.client.pc = .gets)
      (ended : fgets maxline state.client.fp = none) :
      Step version state .client { state with client := { state.client with pc := .returned } }
  | fgets {state : State} {stored rest : List Byte} (pc : state.client.pc = .gets)
      (got : fgets maxline state.client.fp = some (stored, rest)) :
      Step version state .client
        { state with client := { state.client with fp := rest }.send stored }
  | write {state : State} {frame : WrittenFrame} {outcome : WriteOutcome}
      {toServer : List Byte} (pc : state.client.pc = .writing frame)
      (writes : ChannelWrite (frame.offered state.client.sendline) state.toServer outcome
        toServer) :
      Step version state .client
        { state with
          client := state.client.sent
            ((written (strlen state.client.sendline)).round outcome frame)
          toServer := toServer }
  | readline {state : State} {frame : Frame} {buffer : LineBuffer} {toClient : List Byte}
      {progress : Return ⊕ Frame} (pc : state.client.pc = .reading frame)
      (reads : Reads version state.server.closed frame state.client.buffer state.toClient buffer
        toClient progress) :
      Step version state .client
        { state with
          client := { state.client with buffer := buffer }.received progress
          toClient := toClient }
  | echoRead {state : State} {outcome : ReadOutcome} {toServer : List Byte}
      (pc : state.server.pc = .reading)
      (reads : ChannelRead maxline state.client.closed state.toServer outcome toServer) :
      Step version state .server
        { state with server := state.server.read outcome, toServer := toServer }
  | echoWrite {state : State} {n : Nat} {frame : WrittenFrame} {outcome : WriteOutcome}
      {toClient : List Byte} (pc : state.server.pc = .writing n frame)
      (writes : ChannelWrite (frame.offered state.server.buf) state.toClient outcome toClient) :
      Step version state .server
        { state with
          server := state.server.echoed n ((written n).round outcome frame)
          toClient := toClient }

/-- The processes at their first steps, with this file and whatever their arrays hold. -/
def State.initial (file sendline recvline buf : List Byte) : State where
  client :=
    { pc := .gets
      fp := file
      sendline := sendline
      recvline := recvline
      buffer := LineBuffer.zero
      stdout := [] }
  toServer := []
  server := { pc := .reading, buf := buf, stdout := [] }
  toClient := []

/-- `str_cli` on a file against `str_echo`. -/
def echoSystem (version : Version) (file : List Byte) : System State Party where
  start history state := history = [] ∧
    ∃ sendline recvline buf, state = State.initial file sendline recvline buf
  step state events next := ∃ party, Step version state party next ∧ events = [party]

/-! ### The line between its two ends -/

/-- What of the line the client has still to write. -/
def Client.unwritten (client : Client) : List Byte :=
  match client.pc with
  | .writing frame => frame.offered client.sendline
  | _ => []

/-- What of the line has come back into `recvline`. -/
def Client.stored (client : Client) : List Byte :=
  match client.pc with
  | .reading frame => frame.stored
  | _ => []

/-- What of the line is in the server. -/
def Server.pending (server : Server) : List Byte :=
  match server.pc with
  | .writing _ frame => frame.offered server.buf
  | _ => []

/-- What of the line has still to come back into `recvline`, in its order. -/
def State.coming (state : State) : List Byte :=
  state.client.buffer.unread ++ state.toClient ++ state.server.pending ++ state.toServer ++
    state.client.unwritten

/-- What holds of every state a run on this file reaches. -/
structure Inv (version : Version) (file : List Byte) (state : State) : Prop where
  stream : state.client.stdout ++ (state.client.stored ++ state.coming) ++ state.client.fp = file
  isLine : IsLine (maxline - 1) (state.client.stored ++ state.coming)
  sound : state.client.buffer.Sound
  unbuffered : version = .readline1 → state.client.buffer.cnt ≤ 0
  between : state.client.pc = .gets ∨ state.client.pc = .returned → state.coming = []
  ended : state.client.pc = .returned → state.client.fp = []
  alive : state.client.pc ≠ .exited
  counted : ∀ frame, state.client.pc = .reading frame →
    frame.n = frame.stored.length + 1 ∧ frame.n < maxline
  open' : state.server.pc = .returned → state.client.pc = .returned

section Places

variable {version : Version} {file : List Byte} {state : State}

/-- While the client has not returned, the server serves it. -/
theorem Inv.serving (inv : Inv version file state) (pc : state.client.pc ≠ .returned) :
    state.server.pc ≠ .returned :=
  fun closed => pc (inv.open' closed)

/-- The invariant between two lines: nothing of a line is anywhere. -/
theorem inv_between (pc : state.client.pc = .gets ∨ state.client.pc = .returned)
    (coming : state.coming = []) (stream : state.client.stdout ++ state.client.fp = file)
    (sound : state.client.buffer.Sound)
    (unbuffered : version = .readline1 → state.client.buffer.cnt ≤ 0)
    (ended : state.client.pc = .returned → state.client.fp = [])
    (open' : state.server.pc = .returned → state.client.pc = .returned) :
    Inv version file state := by
  have stored : state.client.stored = [] := by
    rcases pc with pc | pc <;> rw [Client.stored, pc]
  refine ⟨?_, ?_, sound, unbuffered, fun _ => coming, ended, ?_, ?_, open'⟩
  · rw [stored, coming]
    simpa using stream
  · rw [stored, coming]
    exact isLine_nil _
  · intro same
    rcases pc with pc | pc <;> cases pc.symm.trans same
  · intro frame same
    rcases pc with pc | pc <;> cases pc.symm.trans same

/-- The invariant while a line is on its way. -/
theorem inv_within (pc : (∃ frame, state.client.pc = .writing frame) ∨
      ∃ frame, state.client.pc = .reading frame ∧
        frame.n = frame.stored.length + 1 ∧ frame.n < maxline)
    (stream : state.client.stdout ++ (state.client.stored ++ state.coming) ++ state.client.fp =
      file)
    (isLine : IsLine (maxline - 1) (state.client.stored ++ state.coming))
    (sound : state.client.buffer.Sound)
    (unbuffered : version = .readline1 → state.client.buffer.cnt ≤ 0)
    (serving : state.server.pc ≠ .returned) : Inv version file state := by
  refine ⟨stream, isLine, sound, unbuffered, ?_, ?_, ?_, ?_,
    fun closed => absurd closed serving⟩
  · intro between
    rcases pc with ⟨frame, pc⟩ | ⟨frame, pc, _⟩ <;> rw [pc] at between <;>
      rcases between with same | same <;> cases same
  · intro same
    rcases pc with ⟨frame, pc⟩ | ⟨frame, pc, _⟩ <;> cases pc.symm.trans same
  · intro same
    rcases pc with ⟨frame, pc⟩ | ⟨frame, pc, _⟩ <;> cases pc.symm.trans same
  · intro frame same
    rcases pc with ⟨_, pc⟩ | ⟨_, pc, counted⟩ <;> cases pc.symm.trans same
    exact counted

end Places

/-! ### The server's steps -/

/-- A step of the server moves bytes on. -/
theorem Inv.server {version : Version} {file : List Byte} {state next : State}
    (inv : Inv version file state) (client : next.client = state.client)
    (moved : next.toClient ++ next.server.pending ++ next.toServer =
      state.toClient ++ state.server.pending ++ state.toServer)
    (open' : next.server.pc = .returned → state.client.pc = .returned) :
    Inv version file next := by
  have coming : next.coming = state.coming := by
    have moved' := congrArg
      (fun middle => state.client.buffer.unread ++ middle ++ state.client.unwritten) moved
    simp only [State.coming, client, List.append_assoc] at moved' ⊢
    exact moved'
  refine ⟨?_, ?_, ?_, ?_, ?_, ?_, ?_, ?_, ?_⟩ <;> rw [client]
  · rw [coming]
    exact inv.stream
  · rw [coming]
    exact inv.isLine
  · exact inv.sound
  · exact inv.unbuffered
  · rw [coming]
    exact inv.between
  · exact inv.ended
  · exact inv.alive
  · exact inv.counted
  · exact open'

theorem pending_echoed (server : Server) (n : Nat) (progress : Int ⊕ WrittenFrame) :
    (server.echoed n progress).pending = owed server.buf progress := by
  cases progress <;> rfl

theorem echoed_open (server : Server) (n : Nat) (progress : Int ⊕ WrittenFrame) :
    (server.echoed n progress).pc ≠ .returned := by
  cases progress <;> exact nofun

/-- What the server has read is what it will write. -/
theorem read_data (server : Server) {bytes : List Byte} (nonempty : bytes ≠ []) :
    (server.read (.data bytes)).pending = bytes ∧
      (server.read (.data bytes)).pc ≠ .returned := by
  have positive : (0 : Int) < (ReadOutcome.data bytes).value := by
    rw [ReadOutcome.value_data]
    exact_mod_cast List.length_pos_iff.mpr nonempty
  rw [Server.read, if_pos positive]
  refine ⟨?_, echoed_open _ _ _⟩
  rw [pending_echoed, owed_test]
  show (overwrite server.buf 0 bytes).take (bytes.length : Int).toNat = bytes
  have taken := take_overwrite server.buf 0 bytes (Nat.zero_le _)
  rw [Nat.zero_add] at taken
  rw [Int.toNat_natCast, taken]
  rfl

/-! ### The client's steps -/

/-- A step of `readline`: it takes the first byte that is coming as the byte-at-a-time loop
would, or nothing at all, or finds the channel at its end. -/
theorem reads_cases {version : Version} {closed : Bool} {frame : Frame}
    {buffer buffer' : LineBuffer} {channel channel' : List Byte} {progress : Return ⊕ Frame}
    (reads : Reads version closed frame buffer channel buffer' channel' progress)
    (sound : buffer.Sound) (unbuffered : version = .readline1 → buffer.cnt ≤ 0)
    (more : frame.n < maxline) :
    closed = true ∨ buffer'.Sound ∧ (version = .readline1 → buffer'.cnt ≤ 0) ∧
      (progress = .inr frame ∧ buffer'.unread ++ channel' = buffer.unread ++ channel ∨
        ∃ c, progress = (readlineLoop maxline).round ⟨1, c⟩ frame ∧
          buffer.unread ++ channel = c :: (buffer'.unread ++ channel')) := by
  cases reads with
  | byte version1 reads =>
    have unread := LineBuffer.unread_of_nonpos (unbuffered version1)
    cases reads with
    | data bytes rest nonempty fits =>
      obtain ⟨c, rfl⟩ := List.length_eq_one_iff.mp
        (Nat.le_antisymm fits (List.length_pos_iff.mpr nonempty))
      refine Or.inr ⟨sound, unbuffered, Or.inr ⟨c, ?_, ?_⟩⟩
      · exact Text.round_congr (readline1Body_data c frame) rfl
      · rw [unread]
        rfl
    | eof ended => exact Or.inl ended
    | interrupted =>
      refine Or.inr ⟨sound, unbuffered, Or.inl ⟨?_, rfl⟩⟩
      rw [Text.round_next (readline1Body_interrupted frame)]
      exact Text.test_more (decide_eq_true more)
  | deliver version' positive =>
    obtain ⟨c, reply, unread, sound'⟩ := LineBuffer.deliver_spec sound positive
    refine Or.inr ⟨sound', fun same => ?_, Or.inr ⟨c, ?_, ?_⟩⟩
    · rw [version'] at same
      cases same
    · rw [reply]
    · rw [unread]
      rfl
  | fill version' empty reads =>
    have unread := LineBuffer.unread_of_nonpos empty
    have buffered : ∀ {P : Prop}, version = .readline1 → P := fun same => by
      rw [version'] at same
      cases same
    cases reads with
    | data bytes rest nonempty fits =>
      obtain ⟨sound', unread'⟩ := LineBuffer.unread_filled sound fits
      have positive : (0 : Int) < (buffer.filled (.data bytes)).rewind.cnt := by
        show (0 : Int) < bytes.length
        exact_mod_cast List.length_pos_iff.mpr nonempty
      obtain ⟨c, reply, taken, sound''⟩ := LineBuffer.deliver_spec sound' positive
      have round : againRound (.data bytes) buffer frame =
          ((buffer.filled (.data bytes)).rewind.deliver.2,
            (readlineLoop maxline).round ⟨1, c⟩ frame) := by
        rw [againRound, againBody_data nonempty, ← reply]
      rw [round]
      refine Or.inr ⟨sound'', buffered, Or.inr ⟨c, rfl, ?_⟩⟩
      rw [unread]
      exact congrArg (· ++ channel') (unread'.symm.trans taken)
    | eof ended => exact Or.inl ended
    | interrupted =>
      rw [againRound, againBody_interrupted]
      refine Or.inr ⟨LineBuffer.sound_filled sound (Nat.zero_le _) (by decide), buffered,
        Or.inl ⟨rfl, ?_⟩⟩
      rw [unread, LineBuffer.unread_of_nonpos]
      show (-1 : Int) ≤ 0
      decide

/-- A byte of a line: the loop waits for the next one, or the line is complete and the loop
returns it. -/
theorem round_isLine {frame : Frame} {c : Byte} {coming : List Byte}
    (isLine : IsLine (maxline - 1) (frame.stored ++ c :: coming))
    (counted : frame.n = frame.stored.length + 1) :
    (∃ next, (readlineLoop maxline).round ⟨1, c⟩ frame = .inr next ∧
      next.stored = frame.stored ++ [c] ∧ next.n = next.stored.length + 1 ∧
        next.n < maxline) ∨
    ∃ n : Nat, 0 < n ∧ coming = [] ∧
      (readlineLoop maxline).round ⟨1, c⟩ frame =
        .inl (Frame.filled ⟨n, frame.stored ++ [c]⟩) := by
  by_cases same : c = newline
  · subst same
    exact Or.inr ⟨frame.n, by omega, isLine.ends _ _ rfl,
      Text.round_return (readlineBody_newline frame)⟩
  · have round : (readlineLoop maxline).round ⟨1, c⟩ frame =
        (readlineLoop maxline).test ⟨frame.n + 1, frame.stored ++ [c]⟩ :=
      Text.round_next (readlineBody_other same frame)
    by_cases more : frame.n + 1 < maxline
    · refine Or.inl ⟨_, round.trans (Text.test_more (decide_eq_true more)), rfl, ?_, more⟩
      simp [counted]
    · have fits := isLine.fits
      rw [List.length_append, List.length_cons] at fits
      refine Or.inr ⟨frame.n + 1, Nat.succ_pos _, List.eq_nil_of_length_eq_zero (by omega), ?_⟩
      exact round.trans (Text.test_over (decide_eq_false more))

/-- When `readline` returns a line, the client prints it and goes back to `fgets`. -/
theorem received_filled (client : Client) {n : Nat} (positive : 0 < n) {line : List Byte}
    (noNul : 0 ∉ line) :
    (client.received (.inl (Frame.filled ⟨n, line⟩))).pc = .gets ∧
      (client.received (.inl (Frame.filled ⟨n, line⟩))).stdout = client.stdout ++ line ∧
      (client.received (.inl (Frame.filled ⟨n, line⟩))).fp = client.fp ∧
      (client.received (.inl (Frame.filled ⟨n, line⟩))).buffer = client.buffer := by
  have nonzero : (Frame.filled ⟨n, line⟩).value ≠ 0 := by
    show (n : Int) ≠ 0
    omega
  rw [Client.received, if_neg nonzero]
  refine ⟨rfl, ?_, rfl, rfl⟩
  show client.stdout ++ cstring (overwrite client.recvline 0 (line ++ [0])) = _
  rw [cstring_overwrite client.recvline line noNul]

theorem enter_reading (client : Client) :
    client.received ((readlineLoop maxline).test Frame.enter) =
      { client with pc := .reading Frame.enter } := by
  rw [Text.test_more (by decide), Client.received]

/-- The client with a call of `written` as far as it has come: what the call owes is the end
of what is coming. -/
theorem inv_sent {version : Version} {file : List Byte} {state : State} (client : Client)
    (toServer line : List Byte) (progress : Int ⊕ WrittenFrame)
    (coming : client.buffer.unread ++ state.toClient ++ state.server.pending ++ toServer ++
      owed client.sendline progress = line)
    (stream : client.stdout ++ line ++ client.fp = file) (isLine : IsLine (maxline - 1) line)
    (sound : client.buffer.Sound) (unbuffered : version = .readline1 → client.buffer.cnt ≤ 0)
    (serving : state.server.pc ≠ .returned) :
    Inv version file { state with client := client.sent progress, toServer := toServer } := by
  subst coming
  cases progress with
  | inl value =>
    rw [Client.sent, enter_reading]
    exact inv_within (Or.inr ⟨Frame.enter, rfl, rfl, by decide⟩) stream isLine sound unbuffered
      serving
  | inr frame =>
    exact inv_within (Or.inl ⟨frame, rfl⟩) stream isLine sound unbuffered serving

/-- `fgets` gives the client a line of the file to write. -/
theorem inv_fgets {version : Version} {file : List Byte} (noNul : 0 ∉ file) {state : State}
    (inv : Inv version file state) {stored rest : List Byte} (pc : state.client.pc = .gets)
    (got : fgets maxline state.client.fp = some (stored, rest)) :
    Inv version file { state with client := { state.client with fp := rest }.send stored } := by
  obtain ⟨rfl, cut⟩ := fgets_eq_some got
  have nothing := inv.between (Or.inl pc)
  have before : state.client.stored = [] := by rw [Client.stored, pc]
  have stream := inv.stream
  rw [before, nothing, ← cut] at stream
  have noNul' : 0 ∉ fgetsLine (maxline - 1) state.client.fp := fun member =>
    noNul (stream ▸ by simp [member])
  have sendline := cstring_overwrite state.client.sendline _ noNul'
  refine inv_sent _ _ (fgetsLine (maxline - 1) state.client.fp) _ ?_ ?_
    (isLine_fgetsLine _ _) inv.sound inv.unbuffered (inv.serving (by rw [pc]; exact nofun))
  · rw [owed_test]
    show _ ++ (overwrite state.client.sendline 0 _).take (strlen (overwrite _ 0 _)) = _
    have quiet : state.client.buffer.unread ++ state.toClient ++ state.server.pending ++
        state.toServer = [] := (List.append_eq_nil_iff.mp nothing).1
    rw [take_strlen, sendline]
    exact congrArg (· ++ fgetsLine (maxline - 1) state.client.fp) quiet
  · simpa using stream

/-- `readline` moves bytes of the line into `recvline`, and the whole line when it returns. -/
theorem inv_readline {version : Version} {file : List Byte} (noNul : 0 ∉ file) {state : State}
    (inv : Inv version file state) {frame : Frame} {buffer : LineBuffer} {toClient : List Byte}
    {progress : Return ⊕ Frame} (pc : state.client.pc = .reading frame)
    (reads : Reads version state.server.closed frame state.client.buffer state.toClient buffer
      toClient progress) :
    Inv version file
      { state with
        client := { state.client with buffer := buffer }.received progress
        toClient := toClient } := by
  obtain ⟨counted, more⟩ := inv.counted frame pc
  have serving := inv.serving (by rw [pc]; exact nofun)
  have before : state.client.stored = frame.stored := by rw [Client.stored, pc]
  have coming : state.coming = state.client.buffer.unread ++ state.toClient ++
      (state.server.pending ++ state.toServer) := by
    rw [State.coming, Client.unwritten, pc]
    simp only [List.append_nil, List.append_assoc]
  have stream := inv.stream
  have isLine := inv.isLine
  rw [before, coming] at stream isLine
  rcases reads_cases reads inv.sound inv.unbuffered more with
    closed | ⟨sound, unbuffered, ⟨rfl, same⟩ | ⟨c, rfl, taken⟩⟩
  · exact absurd (of_decide_eq_true closed) serving
  · -- An interrupted `read` leaves the line as it was.
    rw [← same] at stream isLine
    refine inv_within (Or.inr ⟨frame, rfl, counted, more⟩) ?_ ?_ sound unbuffered serving
    · simpa [State.coming, Client.unwritten, Client.stored, Client.received] using stream
    · simpa [State.coming, Client.unwritten, Client.stored, Client.received] using isLine
  · rw [taken, List.cons_append] at stream isLine
    rcases round_isLine isLine counted with
      ⟨next, round, stored, counted', more'⟩ | ⟨n, positive, nothing, round⟩
    · rw [round]
      refine inv_within (Or.inr ⟨next, rfl, counted', more'⟩) ?_ ?_ sound unbuffered serving
      · simpa [State.coming, Client.unwritten, Client.stored, Client.received, stored] using stream
      · simpa [State.coming, Client.unwritten, Client.stored, Client.received, stored] using isLine
    · rw [nothing] at stream
      have noNul' : 0 ∉ frame.stored ++ [c] := fun member =>
        noNul (stream ▸ List.mem_append_left _ (List.mem_append_right _ member))
      obtain ⟨pc', stdout, fp, buffer'⟩ :=
        received_filled { state.client with buffer := buffer } positive noNul'
      rw [round]
      refine inv_between (Or.inl pc') ?_ ?_ (buffer' ▸ sound) (buffer' ▸ unbuffered)
        (fun same => ?_) fun closed => absurd closed serving
      · rw [State.coming, Client.unwritten, pc', buffer']
        simpa using nothing
      · rw [stdout, fp]
        simpa using stream
      · cases pc'.symm.trans same

/-! ### Every run -/

theorem inv_initial (version : Version) (file sendline recvline buf : List Byte) :
    Inv version file (State.initial file sendline recvline buf) where
  stream := rfl
  isLine := isLine_nil _
  sound := LineBuffer.sound_zero
  unbuffered _ := Int.le_refl 0
  between _ := rfl
  ended := nofun
  alive := nofun
  counted := nofun
  open' := nofun

theorem inv_step {version : Version} {file : List Byte} (noNul : 0 ∉ file) {state next : State}
    {party : Party} (inv : Inv version file state) (step : Step version state party next) :
    Inv version file next := by
  cases step with
  | fgetsNull pc ended =>
    have nothing := inv.between (Or.inl pc)
    have stream := inv.stream
    have before : state.client.stored = [] := by rw [Client.stored, pc]
    rw [before, nothing] at stream
    refine inv_between (Or.inr rfl) ?_ (by simpa using stream) inv.sound inv.unbuffered
      (fun _ => fgets_eq_none ended) fun _ => rfl
    rw [State.coming, Client.unwritten, pc] at nothing
    exact nothing
  | fgets pc got => exact inv_fgets noNul inv pc got
  | @write frame outcome toServer pc writes =>
    have moved := owed_round (strlen state.client.sendline) writes
    have before : state.client.stored = [] := by rw [Client.stored, pc]
    have stream := inv.stream
    have isLine := inv.isLine
    rw [before] at stream isLine
    refine inv_sent state.client toServer state.coming _ ?_ stream isLine inv.sound
      inv.unbuffered (inv.serving (by rw [pc]; exact nofun))
    rw [List.append_assoc, moved, State.coming, Client.unwritten, pc, ← List.append_assoc]
  | readline pc reads => exact inv_readline noNul inv pc reads
  | @echoRead outcome toServer pc reads =>
    have idle : state.server.pending = [] := by rw [Server.pending, pc]
    generalize before : state.toServer = queue at reads
    cases reads with
    | data bytes rest nonempty fits =>
      obtain ⟨pending, waiting⟩ := read_data state.server nonempty
      refine inv.server rfl ?_ fun stopped => absurd stopped waiting
      show state.toClient ++ (state.server.read (.data bytes)).pending ++ toServer = _
      rw [pending, idle, before, List.append_nil, List.append_assoc]
    | eof ended =>
      refine inv.server rfl ?_ fun _ => ?_
      · show state.toClient ++ (state.server.read (.data [])).pending ++ [] = _
        rw [idle, before]
        rfl
      · exact (of_decide_eq_true ended).resolve_right inv.alive
    | interrupted =>
      refine inv.server rfl ?_ fun stopped => ?_
      · show state.toClient ++ (state.server.read (.error .eintr)).pending ++ toServer = _
        rw [idle, before]
        rfl
      · cases stopped
  | @echoWrite n frame outcome toClient pc writes =>
    have moved := owed_round n writes
    refine inv.server rfl ?_ fun stopped => absurd stopped (echoed_open _ _ _)
    show toClient ++ (state.server.echoed n _).pending ++ state.toServer = _
    rw [pending_echoed, moved, Server.pending, pc]

/-- Whatever the chunks and the interruptions, and whichever `readline` the client has: what
`str_cli` has printed is a first part of its file, and all of it once `str_cli` has returned
on the end of the file. -/
theorem str_cli_prints_file (version : Version) (file : List Byte) (noNul : 0 ∉ file)
    {history : List Party} {state : State} (run : Run (echoSystem version file) history state) :
    state.client.stdout <+: file ∧
      (state.client.pc = .returned → state.client.stdout = file) := by
  have inv : Inv version file state := by
    refine run.invariant (fun _ state => Inv version file state) ?_ ?_
    · rintro _ _ ⟨rfl, sendline, recvline, buf, rfl⟩
      exact inv_initial version file sendline recvline buf
    · rintro _ state _ next inv ⟨party, step, rfl⟩
      exact inv_step noNul inv step
  have stream := inv.stream
  refine ⟨⟨_, (List.append_assoc _ _ _).symm.trans stream⟩, fun stopped => ?_⟩
  have stored : state.client.stored = [] := by rw [Client.stored, stopped]
  rw [stored, inv.between (Or.inr stopped), inv.ended stopped] at stream
  simpa using stream

/-- One line that comes back in two pieces. -/
theorem str_cli_prints_file_line : ∃ history state,
    Run (echoSystem .readline [97, newline]) history state ∧
      state.client.pc = .returned ∧ state.client.stdout = [97, newline] := by
  have start : Run (echoSystem .readline [97, newline]) []
      (State.initial [97, newline] [] [] []) := .start ⟨rfl, [], [], [], rfl⟩
  have got := start.step ⟨_, .fgets rfl rfl, rfl⟩
  have written := ((got.step
    ⟨_, .write rfl (.wrote 1 (by decide) (by decide)), rfl⟩).step
    ⟨_, .write rfl .interrupted, rfl⟩).step
    ⟨_, .write rfl (.wrote 1 (by decide) (by decide)), rfl⟩
  have echoed := (written.step
    ⟨_, .echoRead rfl (.data [97] [newline] (by decide) (by decide)), rfl⟩).step
    ⟨_, .echoWrite rfl (.wrote 1 (by decide) (by decide)), rfl⟩
  have half := echoed.step
    ⟨_, .readline rfl (.fill rfl (by decide) (.data [97] [] (by decide) (by decide))), rfl⟩
  have whole := (half.step
    ⟨_, .echoRead rfl (.data [newline] [] (by decide) (by decide)), rfl⟩).step
    ⟨_, .echoWrite rfl (.wrote 1 (by decide) (by decide)), rfl⟩
  have printed := whole.step
    ⟨_, .readline rfl (.fill rfl (by decide) (.data [newline] [] (by decide) (by decide))), rfl⟩
  have ended := printed.step ⟨_, .fgetsNull rfl rfl, rfl⟩
  exact ⟨_, _, ended, rfl, (str_cli_prints_file .readline _ (by decide) ended).2 rfl⟩

end SocketProgram.EchoSystem
