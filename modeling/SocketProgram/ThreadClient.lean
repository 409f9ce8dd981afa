/-
This file models `strclithread.c` against `str_echo`. One thread of the client copies
its file to the connection and then shuts the sending half of it; the other prints
what comes back, line by line, until the server closes. Each direction of the
connection holds a bounded number of bytes, so a `write` can find no room.

No thread waits for the other, and that is what the single loop of `str_cli` lacks.
Whoever cannot go on waits for somebody further down: the copying thread for the
server, the server for the printing thread, and the printing thread for nobody. So
there is always a step to take, with room for a single byte in each direction and on
every file, and since every byte moves on in one direction there are only so many.
-/

import SocketProgram.EchoSystem
import SocketProgram.Library.Progress

namespace SocketProgram.ThreadClient

open Memory Source Runs
open EchoSystem (Server Reads againRound)

/-! ### The two threads -/

/-- Where `str_cli` is: in `readline`, or returned. -/
inductive MainPc
  | reading (frame : Frame)
  | returned
  deriving DecidableEq, Repr

/-- Where `copyto` is: at `fgets`, in `writen`, at `shutdown`, or returned. -/
inductive CopytoPc
  | gets
  | writing (frame : WrittenFrame)
  | shutdown
  | returned
  deriving DecidableEq, Repr

/-- The two threads: the array of each, what is left of the file, the buffer of `my_read`, which
belongs to the thread that calls `readline`, and what has been printed. -/
structure Client where
  main : MainPc
  copyto : CopytoPc
  fp : List Byte
  sendline : List Byte
  recvline : List Byte
  buffer : LineBuffer
  stdout : List Byte

/-- `while(readline(sockfd,recvline,MAXLINE)>0) fputs(recvline,stdout);`, from a call of
`readline` as far as it has come. -/
def Client.received (client : Client) : Return ⊕ Frame → Client
  | .inr frame => { client with main := .reading frame }
  | .inl ret =>
    let recvline := overwrite client.recvline 0 ret.stored
    if 0 < ret.value then
      { client with
        main := .reading Frame.enter, recvline := recvline
        stdout := client.stdout ++ cstring recvline }
    else { client with main := .returned, recvline := recvline }

/-- A call of `writen` as far as it has come, and the call of `fgets` that follows it. -/
def Client.sent (client : Client) : Int ⊕ WrittenFrame → Client
  | .inr frame => { client with copyto := .writing frame }
  | .inl _ => { client with copyto := .gets }

/-- `writen(sockfd,sendline,strlen(sendline))`, entered with this line in `sendline`. -/
def Client.send (client : Client) (stored : List Byte) : Client :=
  let sendline := overwrite client.sendline 0 stored
  { client with sendline := sendline }.sent
    ((written (strlen sendline)).test (.enter (strlen sendline)))

/-- The sending half of the connection is closed: `shutdown` has been called, or the process is
over. -/
def Client.finSent (client : Client) : Bool :=
  decide (client.copyto = .returned ∨ client.main = .returned)

/-! ### The system -/

/-- The two threads, the server, and the two channels between the processes. -/
structure State where
  client : Client
  toServer : List Byte
  server : Server
  toClient : List Byte

/-- Who takes a step. -/
inductive Party
  | main
  | copyto
  | server
  deriving DecidableEq, Repr

/-- A step, and whether it was an interrupted call, which is made again. -/
structure Event where
  party : Party
  interrupted : Bool
  deriving DecidableEq, Repr

/-- The step got something done. -/
def Event.works (event : Event) : Bool := !event.interrupted

/-- One step of one of the threads or of the server, with room for so many bytes in each
channel. -/
inductive Step (room : Nat) : State → Event → State → Prop
  | fgetsNull {state : State} (pc : state.client.copyto = .gets)
      (ended : fgets maxline state.client.fp = none) :
      Step room state ⟨.copyto, false⟩
        { state with client := { state.client with copyto := .shutdown } }
  | fgets {state : State} {stored rest : List Byte} (pc : state.client.copyto = .gets)
      (got : fgets maxline state.client.fp = some (stored, rest)) :
      Step room state ⟨.copyto, false⟩
        { state with client := { state.client with fp := rest }.send stored }
  | write {state : State} {frame : WrittenFrame} {outcome : WriteOutcome}
      {toServer : List Byte} (pc : state.client.copyto = .writing frame)
      (writes : ChannelWrite (frame.offered state.client.sendline) state.toServer outcome
        toServer) (fits : toServer.length ≤ room) :
      Step room state ⟨.copyto, decide (outcome = .error .eintr)⟩
        { state with
          client := state.client.sent
            ((written (strlen state.client.sendline)).round outcome frame)
          toServer := toServer }
  | shutdown {state : State} (pc : state.client.copyto = .shutdown) :
      Step room state ⟨.copyto, false⟩
        { state with client := { state.client with copyto := .returned } }
  | deliver {state : State} {frame : Frame} (pc : state.client.main = .reading frame)
      (positive : 0 < state.client.buffer.cnt) :
      Step room state ⟨.main, false⟩
        { state with
          client := { state.client with buffer := state.client.buffer.deliver.2 }.received
            ((readlineLoop maxline).round state.client.buffer.deliver.1 frame) }
  | fill {state : State} {frame : Frame} {outcome : ReadOutcome} {toClient : List Byte}
      (pc : state.client.main = .reading frame) (empty : state.client.buffer.cnt ≤ 0)
      (reads : ChannelRead maxline state.server.closed state.toClient outcome toClient) :
      Step room state ⟨.main, decide (outcome = .error .eintr)⟩
        { state with
          client :=
            { state.client with
              buffer := (againRound outcome state.client.buffer frame).1 }.received
              (againRound outcome state.client.buffer frame).2
          toClient := toClient }
  | echoRead {state : State} {outcome : ReadOutcome} {toServer : List Byte}
      (pc : state.server.pc = .reading)
      (reads : ChannelRead maxline state.client.finSent state.toServer outcome toServer) :
      Step room state ⟨.server, decide (outcome = .error .eintr)⟩
        { state with server := state.server.read outcome, toServer := toServer }
  | echoWrite {state : State} {n : Nat} {frame : WrittenFrame} {outcome : WriteOutcome}
      {toClient : List Byte} (pc : state.server.pc = .writing n frame)
      (writes : ChannelWrite (frame.offered state.server.buf) state.toClient outcome toClient)
      (fits : toClient.length ≤ room) :
      Step room state ⟨.server, decide (outcome = .error .eintr)⟩
        { state with
          server := state.server.echoed n ((written n).round outcome frame)
          toClient := toClient }

/-- The threads and the server at their first steps, with this file and whatever their arrays
hold. -/
def State.initial (file sendline recvline buf : List Byte) : State where
  client :=
    { main := .reading Frame.enter
      copyto := .gets
      fp := file
      sendline := sendline
      recvline := recvline
      buffer := LineBuffer.zero
      stdout := [] }
  toServer := []
  server := { pc := .reading, buf := buf, stdout := [] }
  toClient := []

/-- `str_cli` of `strclithread.c` on a file against `str_echo`. -/
def threadSystem (room : Nat) (file : List Byte) : System State Event where
  start history state := history = [] ∧
    ∃ sendline recvline buf, state = State.initial file sendline recvline buf
  step state events next := ∃ event, Step room state event next ∧ events = [event]

/-! ### What a file sends -/

theorem length_rest_lt {size : Nat} {file stored rest : List Byte} (room : 1 < size)
    (got : fgets size file = some (stored, rest)) : rest.length < file.length := by
  cases file with
  | nil => cases got
  | cons c file =>
    obtain ⟨-, cut⟩ := fgets_eq_some got
    have lengths := congrArg List.length cut
    have nonempty : 0 < (fgetsLine (size - 1) (c :: file)).length := by
      obtain ⟨size', rfl⟩ : ∃ size', size = size' + 2 := ⟨size - 2, by omega⟩
      show 0 < (fgetsLine (size' + 1) (c :: file)).length
      rw [fgetsLine]
      split_ifs <;> exact Nat.succ_pos _
    rw [List.length_append] at lengths
    omega

/-- The strings of the lines of a file, which is what `copyto` writes: the whole file when it has
no NUL, and of every line what stands before its first NUL when it has. -/
def texts (file : List Byte) : List Byte :=
  match _got : fgets maxline file with
  | none => []
  | some (stored, rest) => cstring stored ++ texts rest
termination_by file.length
decreasing_by exact length_rest_lt (by decide) _got

theorem texts_nil : texts [] = [] := by
  rw [texts]
  rfl

theorem texts_of_fgets {file stored rest : List Byte}
    (got : fgets maxline file = some (stored, rest)) :
    texts file = cstring stored ++ texts rest := by
  rw [texts]
  split
  · rename_i none
    rw [got] at none
    cases none
  · rename_i stored' rest' some'
    rw [got] at some'
    obtain ⟨rfl, rfl⟩ := Prod.mk.inj (Option.some.inj some')
    rfl

/-- Of a file without a NUL everything is written. -/
theorem texts_of_noNul (file : List Byte) (noNul : 0 ∉ file) : texts file = file := by
  induction size : file.length using Nat.strong_induction_on generalizing file with
  | _ _ inductionHypothesis =>
  cases got : fgets maxline file with
  | none =>
    rw [fgets_eq_none got]
    exact texts_nil
  | some cut =>
    obtain ⟨stored, rest⟩ := cut
    obtain ⟨same, split⟩ := fgets_eq_some got
    have shorter := length_rest_lt (by decide) got
    have parts : 0 ∉ fgetsLine (maxline - 1) file ∧ 0 ∉ rest := by
      rw [← split, List.mem_append, not_or] at noNul
      exact noNul
    have line := cstring_overwrite [] _ parts.1
    rw [overwrite_zero, ← same, List.drop_nil, List.append_nil] at line
    rw [texts_of_fgets got, line, inductionHypothesis _ (size ▸ shorter) rest parts.2 rfl]
    exact split

theorem noNul_texts (file : List Byte) : 0 ∉ texts file := by
  induction size : file.length using Nat.strong_induction_on generalizing file with
  | _ _ inductionHypothesis =>
  cases got : fgets maxline file with
  | none =>
    rw [fgets_eq_none got, texts_nil]
    exact List.not_mem_nil
  | some cut =>
    obtain ⟨stored, rest⟩ := cut
    have shorter := length_rest_lt (by decide) got
    rw [texts_of_fgets got, List.mem_append, not_or]
    refine ⟨fun member => ?_, inductionHypothesis _ (size ▸ shorter) rest rfl⟩
    exact absurd (List.mem_takeWhile_imp member) (by decide)

/-! ### The bytes between the two threads -/

/-- What of the line in `sendline` has still to be written. -/
def Client.unwritten (client : Client) : List Byte :=
  match client.copyto with
  | .writing frame => frame.offered client.sendline
  | _ => []

/-- What `readline` has stored of the line it is in. -/
def Client.stored (client : Client) : List Byte :=
  match client.main with
  | .reading frame => frame.stored
  | .returned => []

/-- What has been written, or is being written, and has not come back into `recvline`. -/
def State.coming (state : State) : List Byte :=
  state.client.buffer.unread ++ state.toClient ++ state.server.pending ++ state.toServer ++
    state.client.unwritten

/-- A call of `written` that waits for its next `write`: there is something left to write, and it
is inside the buffer. -/
structure Waits (vptr : List Byte) (n : Nat) (frame : WrittenFrame) : Prop where
  inside : frame.ptr + frame.nleft = n
  left : 0 < frame.nleft
  fits : n ≤ vptr.length

/-- What holds of every state a run on this file reaches. -/
structure Inv (file : List Byte) (state : State) : Prop where
  stream : state.client.stdout ++ (state.client.stored ++ state.coming) ++ texts state.client.fp =
    texts file
  sound : state.client.buffer.Sound
  counted : ∀ frame, state.client.main = .reading frame →
    frame.n = frame.stored.length + 1 ∧ frame.n < maxline
  copying : ∀ frame, state.client.copyto = .writing frame →
    Waits state.client.sendline (strlen state.client.sendline) frame
  sending : ∀ n frame, state.server.pc = .writing n frame → Waits state.server.buf n frame
  copied : state.client.copyto = .shutdown ∨ state.client.copyto = .returned →
    state.client.fp = []
  served : state.server.pc = .returned → state.client.copyto = .returned ∧ state.toServer = []
  finished : state.client.main = .returned → state.server.pc = .returned ∧
    state.client.buffer.unread = [] ∧ state.toClient = []

section Written

variable {vptr channel channel' : List Byte} {n : Nat} {frame next : WrittenFrame}
  {outcome : WriteOutcome}

theorem Waits.length_offered (waits : Waits vptr n frame) :
    (frame.offered vptr).length = frame.nleft := by
  have inside := waits.inside
  have fits := waits.fits
  rw [WrittenFrame.offered, List.length_take, List.length_drop]
  omega

/-- A call that waits has something to offer. -/
theorem Waits.offered_ne_nil (waits : Waits vptr n frame) : frame.offered vptr ≠ [] := by
  rw [← List.length_pos_iff, waits.length_offered]
  exact waits.left

theorem waits_of_upTo (fits : n ≤ vptr.length) {passed : Nat}
    (upTo : WrittenUpTo n passed (.inr next)) : Waits vptr n next := by
  obtain ⟨rfl, inside, left⟩ := upTo
  exact ⟨inside, left, fits⟩

theorem waits_enter (fits : n ≤ vptr.length)
    (entered : (written n).test (.enter n) = .inr next) : Waits vptr n next := by
  have upTo := written_enter n
  rw [entered] at upTo
  exact waits_of_upTo fits upTo

theorem Waits.round (waits : Waits vptr n frame)
    (writes : ChannelWrite (frame.offered vptr) channel outcome channel')
    (goes : (written n).round outcome frame = .inr next) : Waits vptr n next := by
  cases writes with
  | wrote count positive fits =>
    rw [waits.length_offered] at fits
    have upTo := written_round_wrote waits.inside positive fits
    rw [goes] at upTo
    exact waits_of_upTo waits.fits upTo
  | interrupted =>
    rw [written_round_interrupted waits.left] at goes
    exact Sum.inr.inj goes ▸ waits

end Written

/-! ### The number that goes down -/

/-- The returns of `copyto` that are still to come. -/
def CopytoPc.left : CopytoPc → Nat
  | .shutdown => 1
  | .returned => 0
  | _ => 2

/-- How far the bytes have still to go, each place counted by its distance from the end, with one
for each return that is still to come. -/
def rank (state : State) : Nat :=
  6 * state.client.fp.length + 5 * state.client.unwritten.length + 4 * state.toServer.length +
    3 * state.server.pending.length + 2 * state.toClient.length +
    2 * state.client.buffer.unread.length + state.client.stored.length +
    state.client.copyto.left + (if state.server.pc = .returned then 0 else 1) +
    (if state.client.main = .returned then 0 else 1)

/-! ### The steps of `copyto` -/

theorem unwritten_sent (client : Client) (progress : Int ⊕ WrittenFrame) :
    (client.sent progress).unwritten = owed client.sendline progress := by
  cases progress <;> rfl

/-- A step of `copyto` moves bytes on towards the server. -/
theorem Inv.copyto {file : List Byte} {state : State} (inv : Inv file state)
    (running : state.client.copyto ≠ .returned) {client : Client} {toServer : List Byte}
    (main : client.main = state.client.main) (buffer : client.buffer = state.client.buffer)
    (stdout : client.stdout = state.client.stdout)
    (moved : toServer ++ client.unwritten ++ texts client.fp =
      state.toServer ++ state.client.unwritten ++ texts state.client.fp)
    (copying : ∀ frame, client.copyto = .writing frame →
      Waits client.sendline (strlen client.sendline) frame)
    (copied : client.copyto = .shutdown ∨ client.copyto = .returned → client.fp = []) :
    Inv file { state with client := client, toServer := toServer } := by
  have serving : state.server.pc ≠ .returned := fun closed => running (inv.served closed).1
  have stored : client.stored = state.client.stored := by rw [Client.stored, Client.stored, main]
  refine ⟨?_, buffer ▸ inv.sound, main ▸ inv.counted, copying, inv.sending, copied,
    fun closed => absurd closed serving,
    fun finished => absurd (inv.finished (main ▸ finished)).1 serving⟩
  have stream := inv.stream
  simp only [State.coming, List.append_assoc] at stream moved ⊢
  rw [stdout, stored, buffer, moved]
  exact stream

/-- The call of `written` that `copyto` is in, as far as it has come, writes on. -/
theorem copying_sent (client : Client) (progress : Int ⊕ WrittenFrame)
    (waits : ∀ next, progress = .inr next →
      Waits client.sendline (strlen client.sendline) next) :
    (∀ frame, (client.sent progress).copyto = .writing frame →
      Waits (client.sent progress).sendline (strlen (client.sent progress).sendline) frame) ∧
      ¬ ((client.sent progress).copyto = .shutdown ∨
        (client.sent progress).copyto = .returned) := by
  cases progress with
  | inl value =>
    refine ⟨fun frame same => ?_, fun same => ?_⟩
    · cases same
    · rcases same with same | same <;> cases same
  | inr next =>
    refine ⟨fun frame same => ?_, fun same => ?_⟩
    · cases same
      exact waits next rfl
    · rcases same with same | same <;> cases same

section Sent

variable (client : Client) (progress : Int ⊕ WrittenFrame)

@[simp] theorem sent_main : (client.sent progress).main = client.main := by cases progress <;> rfl

@[simp] theorem sent_buffer : (client.sent progress).buffer = client.buffer := by
  cases progress <;> rfl

@[simp] theorem sent_stdout : (client.sent progress).stdout = client.stdout := by
  cases progress <;> rfl

@[simp] theorem sent_fp : (client.sent progress).fp = client.fp := by cases progress <;> rfl

@[simp] theorem sent_stored : (client.sent progress).stored = client.stored := by
  cases progress <;> rfl

@[simp] theorem sent_left : (client.sent progress).copyto.left = 2 := by cases progress <;> rfl

end Sent

/-- What a step has done: the invariant is kept, and the number has gone down unless the step was an
interrupted call. -/
def Forward (file : List Byte) (state : State) (event : Event) (next : State) : Prop :=
  Inv file next ∧ rank next + (if event.works = true then 1 else 0) ≤ rank state

section Steps

variable {file : List Byte} {state : State}

/-- Past the end of the file `copyto` goes on to `shutdown`, and from there it returns. -/
theorem forward_over (inv : Inv file state) {pc : CopytoPc}
    (unwritten : state.client.unwritten = []) (ended : state.client.fp = [])
    (finished : pc = .shutdown ∨ pc = .returned) (less : pc.left < state.client.copyto.left) :
    Forward file state ⟨.copyto, false⟩
      { state with client := { state.client with copyto := pc } } := by
  have running : state.client.copyto ≠ .returned := fun returned => by
    rw [returned] at less
    exact Nat.not_lt_zero _ less
  have unwritten' : ({ state.client with copyto := pc } : Client).unwritten = [] := by
    rcases finished with rfl | rfl <;> rfl
  refine ⟨inv.copyto running rfl rfl rfl ?_ (fun _ same => ?_) fun _ => ended, ?_⟩
  · rw [unwritten, unwritten']
  · rcases finished with rfl | rfl <;> cases same
  · have stored : ({ state.client with copyto := pc } : Client).stored = state.client.stored := rfl
    simp only [rank, unwritten, unwritten', stored, Event.works, Bool.not_false, if_true]
    omega

/-- `fgets` gives `copyto` a line, and what stands in it before a NUL is to be written. -/
theorem forward_fgets (inv : Inv file state) {stored rest : List Byte}
    (pc : state.client.copyto = .gets)
    (got : fgets maxline state.client.fp = some (stored, rest)) :
    Forward file state ⟨.copyto, false⟩
      { state with client := { state.client with fp := rest }.send stored } := by
  have unwritten : state.client.unwritten = [] := by rw [Client.unwritten, pc]
  obtain ⟨same, cut⟩ := fgets_eq_some got
  have text : (({ state.client with fp := rest } : Client).send stored).unwritten =
      cstring stored := by
    rw [Client.send, unwritten_sent, owed_test]
    show (overwrite state.client.sendline 0 stored).take
      (strlen (overwrite state.client.sendline 0 stored)) = _
    rw [take_strlen, same, cstring_overwrite_takeWhile, cstring_append_nul]
    rfl
  have waits := copying_sent
    { state.client with fp := rest, sendline := overwrite state.client.sendline 0 stored }
    ((written _).test (.enter _))
    fun next entered => waits_enter (List.takeWhile_prefix _).length_le entered
  refine ⟨inv.copyto (by rw [pc]; exact nofun) (sent_main _ _) (sent_buffer _ _)
    (sent_stdout _ _) ?_ waits.1 fun finished => absurd finished waits.2, ?_⟩
  · rw [text, unwritten, Client.send, sent_fp, texts_of_fgets got, List.append_nil,
      List.append_assoc]
  · have shorter := length_rest_lt (by decide) got
    have lengths := congrArg List.length cut
    have less : (cstring stored).length ≤ (fgetsLine (maxline - 1) state.client.fp).length := by
      rw [same, cstring_append_nul]
      exact (List.takeWhile_prefix _).length_le
    have left : state.client.copyto.left = 2 := by rw [pc]; rfl
    rw [List.length_append] at lengths
    simp only [rank, text, unwritten, Event.works, left]
    simp only [Client.send, sent_fp, sent_buffer, sent_stored, sent_left, sent_main]
    simp only [Client.stored, List.length_nil, Bool.not_false, if_true]
    omega

/-- A `write` of `copyto` moves bytes into the channel to the server. -/
theorem forward_write (inv : Inv file state) {frame : WrittenFrame} {outcome : WriteOutcome}
    {toServer : List Byte} (pc : state.client.copyto = .writing frame)
    (writes : ChannelWrite (frame.offered state.client.sendline) state.toServer outcome
      toServer) :
    Forward file state ⟨.copyto, decide (outcome = .error .eintr)⟩
      { state with
        client := state.client.sent
          ((written (strlen state.client.sendline)).round outcome frame)
        toServer := toServer } := by
  have unwritten : state.client.unwritten = frame.offered state.client.sendline := by
    rw [Client.unwritten, pc]
  have moved := owed_round (strlen state.client.sendline) writes
  have waits := copying_sent state.client _
    fun next goes => (inv.copying frame pc).round writes goes
  refine ⟨inv.copyto (by rw [pc]; exact nofun) (sent_main _ _) (sent_buffer _ _)
    (sent_stdout _ _) ?_ waits.1 fun finished => absurd finished waits.2, ?_⟩
  · rw [unwritten_sent, moved, sent_fp, unwritten]
  · have lengths := congrArg List.length moved
    have left : state.client.copyto.left = 2 := by rw [pc]; rfl
    rw [List.length_append, List.length_append, ← unwritten_sent] at lengths
    simp only [rank, unwritten, sent_fp, sent_buffer, sent_stored, sent_left, sent_main, left,
      Event.works]
    cases writes with
    | wrote count positive fits =>
      rw [List.length_append, List.length_take_of_le fits] at lengths ⊢
      simp only [reduceCtorEq, decide_false, Bool.not_false, if_true]
      omega
    | interrupted =>
      simp only [decide_true, Bool.not_true, Bool.false_eq_true, if_false]
      omega

/-! ### The steps of the server -/

/-- A step of the server moves bytes on towards the thread that prints. -/
theorem Inv.server (inv : Inv file state) (running : state.server.pc ≠ .returned)
    {server : Server} {toServer toClient : List Byte}
    (moved : toClient ++ server.pending ++ toServer =
      state.toClient ++ state.server.pending ++ state.toServer)
    (sending : ∀ n frame, server.pc = .writing n frame → Waits server.buf n frame)
    (served : server.pc = .returned → state.client.copyto = .returned ∧ toServer = []) :
    Inv file { state with server := server, toServer := toServer, toClient := toClient } := by
  refine ⟨?_, inv.sound, inv.counted, inv.copying, sending, inv.copied, served,
    fun finished => absurd (inv.finished finished).1 running⟩
  have stream := inv.stream
  have moved' := congrArg
    (fun middle => middle ++ (state.client.unwritten ++ texts state.client.fp)) moved
  simp only [State.coming, List.append_assoc] at stream moved' ⊢
  rw [moved']
  exact stream

theorem sending_echoed {server : Server} {n : Nat} {progress : Int ⊕ WrittenFrame}
    (waits : ∀ next, progress = .inr next → Waits server.buf n next) (n' : Nat)
    (frame : WrittenFrame) (writing : (server.echoed n progress).pc = .writing n' frame) :
    Waits (server.echoed n progress).buf n' frame := by
  cases progress with
  | inl value => cases writing
  | inr next =>
    cases writing
    exact waits frame rfl

/-- The server reads what it is going to send back. -/
theorem forward_read (inv : Inv file state) (pc : state.server.pc = .reading)
    {outcome : ReadOutcome} {toServer : List Byte}
    (reads : ChannelRead maxline state.client.finSent state.toServer outcome toServer) :
    Forward file state ⟨.server, decide (outcome = .error .eintr)⟩
      { state with server := state.server.read outcome, toServer := toServer } := by
  have idle : state.server.pending = [] := by rw [Server.pending, pc]
  have running : state.server.pc ≠ .returned := fun same => by cases pc.symm.trans same
  generalize before : state.toServer = queue at reads
  cases reads with
  | data bytes rest nonempty fits =>
    obtain ⟨pending, serving⟩ := EchoSystem.read_data state.server nonempty
    have positive := List.length_pos_iff.mpr nonempty
    refine ⟨inv.server running ?_ ?_ fun finished => absurd finished serving, ?_⟩
    · rw [pending, idle, before, List.append_nil, List.append_assoc]
    · have positive' : 0 < (ReadOutcome.data bytes).value := Int.natCast_pos.mpr positive
      rw [Server.read, if_pos positive']
      refine sending_echoed fun next entered => waits_enter ?_ entered
      show (bytes.length : Int).toNat ≤ (overwrite state.server.buf 0 bytes).length
      rw [overwrite_zero, List.length_append, Int.toNat_natCast]
      exact Nat.le_add_right _ _
    · have lengths := congrArg List.length before
      rw [List.length_append] at lengths
      simp only [rank, pending, idle, if_neg serving, if_neg running, Event.works, reduceCtorEq,
        decide_false, Bool.not_false, if_true, List.length_nil, lengths]
      omega
  | eof ended =>
    have fin : state.client.copyto = .returned :=
      (of_decide_eq_true ended).resolve_right fun finished => running (inv.finished finished).1
    refine ⟨inv.server running ?_ (fun n frame writing => by cases writing) fun _ => ⟨fin, rfl⟩, ?_⟩
    · rw [idle, before]
      rfl
    · have finished : (state.server.read (.data [])).pc = .returned := rfl
      have pending : (state.server.read (.data [])).pending = [] := rfl
      simp only [rank, pending, idle, if_pos finished, if_neg running, Event.works, reduceCtorEq,
        decide_false, Bool.not_false, if_true, before, List.length_nil]
      omega
  | interrupted =>
    have same : state.server.read (.error .eintr) = state.server := by
      rw [Server.read, if_neg (by decide), if_pos (by decide), ← pc]
    rw [same, ← before]
    refine ⟨inv, ?_⟩
    simp [Event.works]

/-- The server sends back what it has read. -/
theorem forward_echo (inv : Inv file state) {n : Nat} {frame : WrittenFrame}
    {outcome : WriteOutcome} {toClient : List Byte} (pc : state.server.pc = .writing n frame)
    (writes : ChannelWrite (frame.offered state.server.buf) state.toClient outcome toClient) :
    Forward file state ⟨.server, decide (outcome = .error .eintr)⟩
      { state with
        server := state.server.echoed n ((written n).round outcome frame)
        toClient := toClient } := by
  have pending : state.server.pending = frame.offered state.server.buf := by
    rw [Server.pending, pc]
  have running : state.server.pc ≠ .returned := fun same => by cases pc.symm.trans same
  have serving := EchoSystem.echoed_open state.server n ((written n).round outcome frame)
  have moved := owed_round n writes
  rw [← EchoSystem.pending_echoed] at moved
  refine ⟨inv.server running ?_ (sending_echoed fun next goes =>
    (inv.sending n frame pc).round writes goes) fun finished => absurd finished serving, ?_⟩
  · rw [moved, pending]
  · have lengths := congrArg List.length moved
    rw [List.length_append, List.length_append] at lengths
    simp only [rank, pending, if_neg serving, if_neg running, Event.works]
    cases writes with
    | wrote count positive fits =>
      rw [List.length_append, List.length_take_of_le fits] at lengths ⊢
      simp only [reduceCtorEq, decide_false, Bool.not_false, if_true]
      omega
    | interrupted =>
      simp only [decide_true, Bool.not_true, Bool.false_eq_true, if_false]
      omega

/-! ### The steps of the thread that prints -/

theorem received_else (client : Client) (progress : Return ⊕ Frame) :
    (client.received progress).copyto = client.copyto ∧
      (client.received progress).fp = client.fp ∧
      (client.received progress).sendline = client.sendline ∧
      (client.received progress).buffer = client.buffer := by
  rcases progress with ret | frame
  · rw [Client.received]
    split <;> exact ⟨rfl, rfl, rfl, rfl⟩
  · exact ⟨rfl, rfl, rfl, rfl⟩

/-- A call of `readline` that returns something prints it, and `readline` is called again. -/
theorem received_line (client : Client) {n : Int} (positive : 0 < n) {line : List Byte}
    (noNul : 0 ∉ line) :
    (client.received (.inl ⟨n, line ++ [0]⟩)).main = .reading Frame.enter ∧
      (client.received (.inl ⟨n, line ++ [0]⟩)).stdout = client.stdout ++ line := by
  rw [Client.received, if_pos positive]
  refine ⟨rfl, ?_⟩
  show client.stdout ++ cstring (overwrite client.recvline 0 (line ++ [0])) = _
  rw [cstring_overwrite client.recvline line noNul]

/-- A byte that is read is stored, or printed with the line it ends. -/
theorem received_byte (client : Client) {frame : Frame} {c : Byte}
    (counted : frame.n = frame.stored.length + 1) (noNul : 0 ∉ frame.stored ++ [c]) :
    ∃ next, (client.received ((readlineLoop maxline).round ⟨1, c⟩ frame)).main = .reading next ∧
      next.n = next.stored.length + 1 ∧ next.n < maxline ∧
      next.stored.length ≤ frame.stored.length + 1 ∧
      (client.received ((readlineLoop maxline).round ⟨1, c⟩ frame)).stdout ++ next.stored =
        client.stdout ++ (frame.stored ++ [c]) := by
  have printed : ∀ n : Nat, 0 < n →
      (readlineLoop maxline).round ⟨1, c⟩ frame = .inl ⟨n, frame.stored ++ [c] ++ [0]⟩ →
      ∃ next, (client.received ((readlineLoop maxline).round ⟨1, c⟩ frame)).main =
          .reading next ∧ next.n = next.stored.length + 1 ∧ next.n < maxline ∧
        next.stored.length ≤ frame.stored.length + 1 ∧
        (client.received ((readlineLoop maxline).round ⟨1, c⟩ frame)).stdout ++ next.stored =
          client.stdout ++ (frame.stored ++ [c]) := by
    intro n positive round
    obtain ⟨main, stdout⟩ := received_line client (Int.natCast_pos.mpr positive) noNul
    rw [round]
    refine ⟨Frame.enter, main, rfl, by decide, Nat.zero_le _, ?_⟩
    rw [stdout]
    exact List.append_nil _
  by_cases same : c = newline
  · rw [same] at printed ⊢
    exact printed frame.n (by omega) (Text.round_return (readlineBody_newline frame))
  · have round : (readlineLoop maxline).round ⟨1, c⟩ frame =
        (readlineLoop maxline).test ⟨frame.n + 1, frame.stored ++ [c]⟩ :=
      Text.round_next (readlineBody_other same frame)
    by_cases more : frame.n + 1 < maxline
    · rw [round, Text.test_more (decide_eq_true more)]
      refine ⟨_, rfl, ?_, more, ?_, rfl⟩
      · rw [List.length_append, List.length_singleton, counted]
      · rw [List.length_append, List.length_singleton]
    · exact printed (frame.n + 1) (Nat.succ_pos _)
        (round.trans (Text.test_over (decide_eq_false more)))

/-- A step of the thread that prints takes bytes from the end of the connection, and `readline`
goes on or is called again. -/
theorem forward_main (inv : Inv file state) {frame next : Frame}
    (pc : state.client.main = .reading frame) {client : Client} {toClient : List Byte}
    {event : Event} (main : client.main = .reading next)
    (else' : client.copyto = state.client.copyto ∧ client.fp = state.client.fp ∧
      client.sendline = state.client.sendline) (sound : client.buffer.Sound)
    (counted : next.n = next.stored.length + 1 ∧ next.n < maxline)
    (moved : client.stdout ++ next.stored ++ (client.buffer.unread ++ toClient) =
      state.client.stdout ++ frame.stored ++ (state.client.buffer.unread ++ state.toClient))
    (spent : 2 * (client.buffer.unread ++ toClient).length + next.stored.length +
      (if event.works = true then 1 else 0) ≤
        2 * (state.client.buffer.unread ++ state.toClient).length + frame.stored.length) :
    Forward file state event { state with client := client, toClient := toClient } := by
  obtain ⟨copyto, fp, sendline⟩ := else'
  have stored : state.client.stored = frame.stored := by rw [Client.stored, pc]
  have stored' : client.stored = next.stored := by rw [Client.stored, main]
  have unwritten : client.unwritten = state.client.unwritten := by
    rw [Client.unwritten, Client.unwritten, copyto, sendline]
  have running : state.client.main ≠ .returned := by rw [pc]; exact nofun
  have running' : client.main ≠ .returned := by rw [main]; exact nofun
  refine ⟨⟨?_, sound, ?_, ?_, inv.sending, ?_, ?_, fun finished => absurd finished running'⟩, ?_⟩
  · have stream := inv.stream
    have moved' := congrArg (fun front => front ++ (state.server.pending ++ (state.toServer ++
      (state.client.unwritten ++ texts state.client.fp)))) moved
    simp only [State.coming, stored, stored', unwritten, fp, List.append_assoc] at stream moved' ⊢
    rw [moved']
    exact stream
  · intro frame' same
    obtain rfl := MainPc.reading.inj (main.symm.trans same)
    exact counted
  · show ∀ frame, client.copyto = _ → Waits client.sendline (strlen client.sendline) frame
    rw [copyto, sendline]
    exact inv.copying
  · show client.copyto = _ ∨ client.copyto = _ → client.fp = []
    rw [copyto, fp]
    exact inv.copied
  · show _ → client.copyto = _ ∧ _
    rw [copyto]
    exact inv.served
  · rw [List.length_append, List.length_append] at spent
    simp only [rank, stored, stored', fp, copyto, unwritten, if_neg running, if_neg running']
    omega

/-- No NUL comes back. -/
theorem Inv.noNul (inv : Inv file state) :
    0 ∉ state.client.stored ++ (state.client.buffer.unread ++ state.toClient) := by
  intro member
  refine noNul_texts file ?_
  rw [← inv.stream]
  simp only [State.coming, List.mem_append] at member ⊢
  tauto

/-- The thread that prints takes the first of the bytes that come back. -/
theorem forward_byte (inv : Inv file state) {frame : Frame}
    (pc : state.client.main = .reading frame) {buffer : LineBuffer} {toClient : List Byte}
    {c : Byte} (sound : buffer.Sound)
    (taken : state.client.buffer.unread ++ state.toClient = c :: (buffer.unread ++ toClient)) :
    Forward file state ⟨.main, false⟩
      { state with
        client := { state.client with buffer := buffer }.received
          ((readlineLoop maxline).round ⟨1, c⟩ frame)
        toClient := toClient } := by
  have stored : state.client.stored = frame.stored := by rw [Client.stored, pc]
  have noNul : 0 ∉ frame.stored ++ [c] := by
    have none := inv.noNul
    rw [stored, taken, List.append_cons] at none
    exact fun member => none (List.mem_append_left _ member)
  obtain ⟨next, main, counted, more, short, printed⟩ :=
    received_byte { state.client with buffer := buffer } (inv.counted frame pc).1 noNul
  obtain ⟨copyto, fp, sendline, (buffer' : _ = buffer)⟩ := received_else
    { state.client with buffer := buffer } ((readlineLoop maxline).round ⟨1, c⟩ frame)
  refine forward_main inv pc main ⟨copyto, fp, sendline⟩ (buffer'.symm ▸ sound) ⟨counted, more⟩
    ?_ ?_
  · rw [printed, buffer', taken]
    simp only [List.append_assoc, List.singleton_append]
  · rw [buffer', taken, List.length_cons, Event.works, Bool.not_false, if_pos rfl]
    omega

/-- The loop of `str_cli` ends when `readline` has nothing to return. -/
theorem forward_ended (inv : Inv file state) {frame : Frame}
    (pc : state.client.main = .reading frame) (finished : state.server.pc = .returned)
    {client : Client} (else' : client.copyto = state.client.copyto ∧
      client.fp = state.client.fp ∧ client.sendline = state.client.sendline)
    (main : client.main = .returned) (stdout : client.stdout = state.client.stdout)
    (short : frame.stored = [])
    (unread : state.client.buffer.unread = [] ∧ client.buffer.unread = [])
    (sound : client.buffer.Sound) (nothing : state.toClient = []) :
    Forward file state ⟨.main, false⟩ { state with client := client, toClient := [] } := by
  obtain ⟨copyto, fp, sendline⟩ := else'
  have stored : state.client.stored = [] := by rw [Client.stored, pc, ← short]
  have stored' : client.stored = [] := by rw [Client.stored, main]
  have unwritten : client.unwritten = state.client.unwritten := by
    rw [Client.unwritten, Client.unwritten, copyto, sendline]
  have running : state.client.main ≠ .returned := by rw [pc]; exact nofun
  refine ⟨⟨?_, sound, ?_, ?_, inv.sending, ?_, ?_, fun _ => ⟨finished, unread.2, rfl⟩⟩, ?_⟩
  · have stream := inv.stream
    simp only [State.coming, stored, stored', unread.1, unread.2, nothing, unwritten, fp,
      stdout] at stream ⊢
    exact stream
  · intro frame' same
    cases main.symm.trans same
  · show ∀ frame, client.copyto = _ → Waits client.sendline (strlen client.sendline) frame
    rw [copyto, sendline]
    exact inv.copying
  · show client.copyto = _ ∨ client.copyto = _ → client.fp = []
    rw [copyto, fp]
    exact inv.copied
  · show _ → client.copyto = _ ∧ _
    rw [copyto]
    exact inv.served
  · simp only [rank, stored, stored', unread.1, unread.2, nothing, unwritten, fp, copyto, main,
      if_neg running, if_pos, Event.works, Bool.not_false]
    omega

/-- At the end of the connection `readline` returns what it has stored, and nothing when it is
called again. -/
theorem forward_eof (inv : Inv file state) {frame : Frame}
    (pc : state.client.main = .reading frame) (empty : state.client.buffer.cnt ≤ 0)
    (finished : state.server.pc = .returned) (nothing : state.toClient = []) :
    Forward file state ⟨.main, false⟩
      { state with
        client := { state.client with buffer := state.client.buffer.filled (.data []) }.received
          (.inl ⟨frame.n - 1, frame.stored ++ [0]⟩)
        toClient := [] } := by
  have counted := (inv.counted frame pc).1
  have stored : state.client.stored = frame.stored := by rw [Client.stored, pc]
  have unread := LineBuffer.unread_of_nonpos empty
  have sound' : (state.client.buffer.filled (.data [])).Sound :=
    LineBuffer.sound_filled inv.sound (Nat.zero_le _) (Int.le_refl 0)
  have unread' : (state.client.buffer.filled (.data [])).unread = [] :=
    LineBuffer.unread_of_nonpos (Int.le_refl 0)
  obtain ⟨copyto, fp, sendline, (buffer' : _ = state.client.buffer.filled (.data []))⟩ :=
    received_else { state.client with buffer := state.client.buffer.filled (.data []) }
      (.inl ⟨frame.n - 1, frame.stored ++ [0]⟩)
  by_cases short : frame.stored = []
  · -- Nothing is stored: `readline` returns 0, which ends the loop of `str_cli`.
    have returns : ¬ (0 : Int) < frame.n - 1 := by
      rw [short] at counted
      rw [counted]
      decide
    have main : (({ state.client with
        buffer := state.client.buffer.filled (.data []) } : Client).received
        (.inl ⟨frame.n - 1, frame.stored ++ [0]⟩)).main = .returned := by
      rw [Client.received, if_neg returns]
    have stdout : (({ state.client with
        buffer := state.client.buffer.filled (.data []) } : Client).received
        (.inl ⟨frame.n - 1, frame.stored ++ [0]⟩)).stdout = state.client.stdout := by
      rw [Client.received, if_neg returns]
    exact forward_ended inv pc finished ⟨copyto, fp, sendline⟩ main stdout short
      ⟨unread, buffer'.symm ▸ unread'⟩ (buffer'.symm ▸ sound') nothing
  · have positive : (0 : Int) < frame.n - 1 := by
      have some' := List.length_pos_iff.mpr short
      omega
    have noNul : 0 ∉ frame.stored := fun member =>
      inv.noNul (stored ▸ List.mem_append_left _ member)
    obtain ⟨main, printed⟩ := received_line
      { state.client with buffer := state.client.buffer.filled (.data []) } positive noNul
    refine forward_main inv pc main ⟨copyto, fp, sendline⟩ (buffer'.symm ▸ sound')
      ⟨rfl, by decide⟩ ?_ ?_
    · rw [printed, buffer', unread, unread', nothing]
      exact List.append_assoc _ _ _
    · have some' := List.length_pos_iff.mpr short
      rw [buffer', unread, unread', nothing, Event.works, Bool.not_false, if_pos rfl]
      show 0 + 0 + 1 ≤ 0 + _
      omega

/-- A `read` that gets bytes fills the buffer and delivers the first of them. -/
theorem againRound_data {buffer : LineBuffer} (sound : buffer.Sound) {bytes : List Byte}
    (nonempty : bytes ≠ []) (fits : bytes.length ≤ maxline) (frame : Frame) :
    ∃ c buffer', againRound (.data bytes) buffer frame =
        (buffer', (readlineLoop maxline).round ⟨1, c⟩ frame) ∧
      bytes = c :: buffer'.unread ∧ buffer'.Sound := by
  obtain ⟨sound', unread⟩ := LineBuffer.unread_filled sound fits
  have positive : 0 < (buffer.filled (.data bytes)).rewind.cnt :=
    Int.natCast_pos.mpr (List.length_pos_iff.mpr nonempty)
  obtain ⟨c, reply, taken, sound''⟩ := LineBuffer.deliver_spec sound' positive
  refine ⟨c, (buffer.filled (.data bytes)).rewind.deliver.2, ?_, unread.symm.trans taken, sound''⟩
  rw [againRound, againBody_data nonempty, ← reply]

/-- The thread that prints fills its buffer, or finds the end of the connection. -/
theorem forward_fill (inv : Inv file state) {frame : Frame} {outcome : ReadOutcome}
    {toClient : List Byte} (pc : state.client.main = .reading frame)
    (empty : state.client.buffer.cnt ≤ 0)
    (reads : ChannelRead maxline state.server.closed state.toClient outcome toClient) :
    Forward file state ⟨.main, decide (outcome = .error .eintr)⟩
      { state with
        client :=
          { state.client with
            buffer := (againRound outcome state.client.buffer frame).1 }.received
            (againRound outcome state.client.buffer frame).2
        toClient := toClient } := by
  generalize before : state.toClient = channel at reads
  cases reads with
  | data bytes rest nonempty fits =>
    obtain ⟨c, buffer, round, taken, sound⟩ := againRound_data inv.sound nonempty fits frame
    rw [round]
    refine forward_byte inv pc sound ?_
    rw [LineBuffer.unread_of_nonpos empty, before, taken]
    rfl
  | eof ended =>
    have round : againRound (.data []) state.client.buffer frame =
        (state.client.buffer.filled (.data []),
          .inl ⟨frame.n - 1, frame.stored ++ [0]⟩) := by
      rw [againRound, againBody_eof]
      rfl
    rw [round]
    exact forward_eof inv pc empty (of_decide_eq_true ended) before
  | interrupted =>
    have unread : (state.client.buffer.filled (.error .eintr)).unread = [] :=
      LineBuffer.unread_of_nonpos (show (-1 : Int) ≤ 0 by decide)
    rw [againRound, againBody_interrupted]
    refine forward_main inv pc rfl ⟨rfl, rfl, rfl⟩
      (LineBuffer.sound_filled inv.sound (Nat.zero_le _) (by decide)) (inv.counted frame pc) ?_ ?_
    · show _ ++ _ ++ ((state.client.buffer.filled (.error .eintr)).unread ++ _) = _
      rw [unread, LineBuffer.unread_of_nonpos empty, before]
      rfl
    · show 2 * ((state.client.buffer.filled (.error .eintr)).unread ++ _).length + _ + 0 ≤ _
      rw [unread, LineBuffer.unread_of_nonpos empty, before]
      exact Nat.le_refl _

/-- One step of one of them. -/
theorem forward_step {room : Nat} {event : Event} {next : State} (inv : Inv file state)
    (step : Step room state event next) : Forward file state event next := by
  cases step with
  | fgetsNull pc ended =>
    have unwritten : state.client.unwritten = [] := by rw [Client.unwritten, pc]
    exact forward_over inv unwritten (fgets_eq_none ended) (.inl rfl) (by rw [pc]; decide)
  | fgets pc got => exact forward_fgets inv pc got
  | write pc writes fits => exact forward_write inv pc writes
  | shutdown pc =>
    have unwritten : state.client.unwritten = [] := by rw [Client.unwritten, pc]
    exact forward_over inv unwritten (inv.copied (.inl pc)) (.inr rfl) (by rw [pc]; decide)
  | deliver pc positive =>
    obtain ⟨c, reply, unread, sound⟩ := LineBuffer.deliver_spec inv.sound positive
    rw [reply]
    refine forward_byte inv pc sound ?_
    rw [unread]
    rfl
  | fill pc empty reads => exact forward_fill inv pc empty reads
  | echoRead pc reads => exact forward_read inv pc reads
  | echoWrite pc writes fits => exact forward_echo inv pc writes

end Steps

/-! ### Every run -/

theorem inv_initial (file sendline recvline buf : List Byte) :
    Inv file (State.initial file sendline recvline buf) where
  stream := rfl
  sound := LineBuffer.sound_zero
  counted frame same := by
    obtain rfl := MainPc.reading.inj same
    exact ⟨rfl, by decide⟩
  copying := nofun
  sending := nofun
  copied same := by rcases same with same | same <;> cases same
  served := nofun
  finished := nofun

section Runs

variable {room : Nat} {file : List Byte} {history : List Event} {state : State}

theorem inv_of_run (run : Run (threadSystem room file) history state) : Inv file state := by
  refine run.invariant (fun _ state => Inv file state) ?_ ?_
  · rintro _ _ ⟨rfl, sendline, recvline, buf, rfl⟩
    exact inv_initial file sendline recvline buf
  · rintro _ state _ next inv ⟨event, step, rfl⟩
    exact (forward_step inv step).1

theorem spends (room : Nat) (file : List Byte) :
    Spends (threadSystem room file) Event.works rank := by
  rintro history state _ next run ⟨event, step, rfl⟩
  rw [List.countP_singleton]
  exact (forward_step (inv_of_run run) step).2

/-- Some step gets something done. -/
def Works (room : Nat) (state : State) : Prop :=
  ∃ event next, Step room state event next ∧ event.works = true

/-- The thread that prints goes on when there is something to read, or nothing any more. -/
theorem main_works (running : state.client.main ≠ .returned)
    (something : state.toClient ≠ [] ∨ state.server.closed = true) : Works room state := by
  cases pc : state.client.main with
  | returned => exact absurd pc running
  | reading frame =>
    by_cases positive : 0 < state.client.buffer.cnt
    · exact ⟨_, _, .deliver pc positive, rfl⟩
    have empty := Int.not_lt.mp positive
    cases nothing : state.toClient with
    | cons c rest =>
      have reads : ChannelRead maxline state.server.closed state.toClient (.data [c]) rest := by
        rw [nothing]
        exact .data [c] rest (List.cons_ne_nil _ _) (show 1 ≤ maxline by decide)
      exact ⟨_, _, .fill pc empty reads, rfl⟩
    | nil =>
      have closed := something.resolve_left fun some' => some' nothing
      have reads : ChannelRead maxline state.server.closed state.toClient (.data []) [] := by
        rw [nothing]
        exact .eof closed
      exact ⟨_, _, .fill pc empty reads, rfl⟩

/-- While the server has something to read or to send back, or nothing any more, it goes on, or the
thread that prints does. -/
theorem server_works (inv : Inv file state) (positive : 0 < room)
    (serving : state.server.pc ≠ .returned)
    (something : state.server.pc = .reading →
      state.toServer ≠ [] ∨ state.client.finSent = true) : Works room state := by
  cases pc : state.server.pc with
  | returned => exact absurd pc serving
  | reading =>
    cases nothing : state.toServer with
    | cons c rest =>
      have reads : ChannelRead maxline state.client.finSent state.toServer (.data [c]) rest := by
        rw [nothing]
        exact .data [c] rest (List.cons_ne_nil _ _) (show 1 ≤ maxline by decide)
      exact ⟨_, _, .echoRead pc reads, rfl⟩
    | nil =>
      have fin := (something pc).resolve_left fun some' => some' nothing
      have reads : ChannelRead maxline state.client.finSent state.toServer (.data []) [] := by
        rw [nothing]
        exact .eof fin
      exact ⟨_, _, .echoRead pc reads, rfl⟩
  | writing n frame =>
    by_cases free : state.toClient.length < room
    · have offered := List.length_pos_iff.mpr (inv.sending n frame pc).offered_ne_nil
      refine ⟨_, _, .echoWrite pc (.wrote 1 Nat.one_pos offered) ?_, rfl⟩
      rw [List.length_append, List.length_take_of_le offered]
      exact free
    · -- The channel is full, so the thread that prints has something to read.
      refine main_works (fun finished => serving (inv.finished finished).1) (.inl ?_)
      rw [← List.length_pos_iff]
      omega

/-- Until `str_cli` has returned, somebody has a step to take that gets something done. -/
theorem works_of_running (inv : Inv file state) (positive : 0 < room)
    (running : state.client.main ≠ .returned) : Works room state := by
  cases pc : state.client.copyto with
  | gets =>
    cases got : fgets maxline state.client.fp with
    | none => exact ⟨_, _, .fgetsNull pc got, rfl⟩
    | some cut => exact ⟨_, _, .fgets pc got, rfl⟩
  | shutdown => exact ⟨_, _, .shutdown pc, rfl⟩
  | returned =>
    by_cases finished : state.server.pc = .returned
    · exact main_works running (.inr (decide_eq_true finished))
    · exact server_works inv positive finished fun _ => .inr (decide_eq_true (.inl pc))
  | writing frame =>
    have serving : state.server.pc ≠ .returned := fun closed => by
      cases pc.symm.trans (inv.served closed).1
    by_cases free : state.toServer.length < room
    · have offered := List.length_pos_iff.mpr (inv.copying frame pc).offered_ne_nil
      refine ⟨_, _, .write pc (.wrote 1 Nat.one_pos offered) ?_, rfl⟩
      rw [List.length_append, List.length_take_of_le offered]
      exact free
    · -- The channel is full, so the server has something to read.
      refine server_works inv positive serving fun _ => .inl ?_
      rw [← List.length_pos_iff]
      omega

/-- What has been printed is a first part of what the file has to send, which is the file when it
has no NUL. When `str_cli` returns, all of it has been printed, `copyto` has sent the end of the
file, and the server is done. -/
theorem str_cli_copies (run : Run (threadSystem room file) history state) :
    state.client.stdout <+: texts file ∧ (0 ∉ file → texts file = file) ∧
      (state.client.main = .returned → state.client.stdout = texts file ∧
        state.client.copyto = .returned ∧ state.server.pc = .returned) := by
  have inv := inv_of_run run
  have stream := inv.stream
  refine ⟨⟨_, (List.append_assoc _ _ _).symm.trans stream⟩, texts_of_noNul file, fun finished => ?_⟩
  obtain ⟨served, unread, toClient⟩ := inv.finished finished
  obtain ⟨copied, toServer⟩ := inv.served served
  have stored : state.client.stored = [] := by rw [Client.stored, finished]
  have pending : state.server.pending = [] := by rw [Server.pending, served]
  have unwritten : state.client.unwritten = [] := by rw [Client.unwritten, copied]
  rw [State.coming, stored, unread, toClient, pending, toServer, unwritten,
    inv.copied (.inr copied), texts_nil] at stream
  exact ⟨by simpa using stream, copied, served⟩

/-- One line, with room for a byte in each direction. -/
theorem line_run : ∃ history state, Run (threadSystem 1 [97, newline]) history state ∧
    state.client.main = .returned := by
  have start : Run (threadSystem 1 [97, newline]) [] (State.initial [97, newline] [] [] []) :=
    .start ⟨rfl, [], [], [], rfl⟩
  have first := ((start.step ⟨_, .fgets rfl rfl, rfl⟩).step
    ⟨_, .write rfl (.wrote 1 (by decide) (by decide)) (by decide), rfl⟩).step
    ⟨_, .echoRead rfl (.data [97] [] (by decide) (by decide)), rfl⟩
  have second := ((first.step
    ⟨_, .write rfl (.wrote 1 (by decide) (by decide)) (by decide), rfl⟩).step
    ⟨_, .echoWrite rfl (.wrote 1 (by decide) (by decide)) (by decide), rfl⟩).step
    ⟨_, .fill rfl (by decide) (.data [97] [] (by decide) (by decide)), rfl⟩
  have echoed := ((second.step
    ⟨_, .echoRead rfl (.data [newline] [] (by decide) (by decide)), rfl⟩).step
    ⟨_, .echoWrite rfl (.wrote 1 (by decide) (by decide)) (by decide), rfl⟩).step
    ⟨_, .fill rfl (by decide) (.data [newline] [] (by decide) (by decide)), rfl⟩
  have closed := ((echoed.step ⟨_, .fgetsNull rfl rfl, rfl⟩).step
    ⟨_, .shutdown rfl, rfl⟩).step ⟨_, .echoRead rfl (.eof rfl), rfl⟩
  exact ⟨_, _, closed.step ⟨_, .fill rfl (by decide) (.eof rfl), rfl⟩, rfl⟩

theorem str_cli_copies_line : ∃ history state,
    Run (threadSystem 1 [97, newline]) history state ∧ state.client.main = .returned ∧
      state.client.stdout = texts [97, newline] := by
  obtain ⟨history, state, run, finished⟩ := line_run
  exact ⟨history, state, run, finished, ((str_cli_copies run).2.2 finished).1⟩

/-- With room for a byte in each direction, and whatever the file: no run has more than a bounded
number of steps that are not interrupted calls, there is such a step to take until `str_cli`
has returned, and so every run can be continued until it returns. -/
theorem str_cli_returns (positive : 0 < room)
    (run : Run (threadSystem room file) history state) :
    history.countP Event.works ≤ 6 * file.length + 4 ∧
      (state.client.main ≠ .returned → Works room state) ∧
      ∃ more final, Run (threadSystem room file) (history ++ more) final ∧
        final.client.main = .returned := by
  refine ⟨?_, works_of_running (inv_of_run run) positive, ?_⟩
  · have bound := run.countP_works_le (spends room file) (6 * file.length + 4) ?_
    · omega
    · rintro _ _ ⟨rfl, sendline, recvline, buf, rfl⟩
      exact Nat.le_refl _
  · refine run.reaches (spends room file) fun history state run running => ?_
    obtain ⟨event, next, step, works⟩ := works_of_running (inv_of_run run) positive running
    refine ⟨[event], next, ⟨event, step, rfl⟩, ?_⟩
    rw [List.countP_singleton, if_pos works]
    exact Nat.one_pos

theorem str_cli_returns_line : ∃ history state,
    Run (threadSystem 1 [97, newline]) history state ∧ history.countP Event.works ≤ 16 := by
  obtain ⟨history, state, run, -⟩ := line_run
  exact ⟨history, state, run, (str_cli_returns (by decide) run).1⟩

end Runs

end SocketProgram.ThreadClient
