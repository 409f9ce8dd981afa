/-
This file models the `str_cli` of `strcliselect01.c`. It waits in `select` for its input and
for the socket, and then takes one line of each that is ready: with `fgets` from the input,
with the buffered `readline` from the socket. Both fill a buffer of their own, which may be
given more than the line that is taken from it.

What is left in a buffer is nothing `select` knows of. So when one `read` brings two lines, the
second one waits until something else happens to that descriptor. As long as no `read` brings
more than the rest of one line, nothing is left when `select` is called.
-/

import SocketProgram.EchoSystem

namespace SocketProgram.SelectClientStdio

open Memory Source Runs
open EchoSystem (againRound)

/-! ### The client -/

/-- Where `str_cli` is: in `select`, in `readline` with `fp` to be looked at afterwards or not, in
`fgets` with what it has stored, returned, or gone after the server had terminated. -/
inductive Pc
  | select
  | readline (input : Bool) (frame : Frame)
  | fgets (stored : List Byte)
  | returned
  | exited (status : Int)
  deriving DecidableEq, Repr

/-- `str_cli` with its two arrays, the buffer of `my_read`, and what is unread in the buffer of
`fp`. -/
structure Client where
  pc : Pc
  sendline : List Byte
  recvline : List Byte
  buffer : LineBuffer
  fp : List Byte

/-- The calls of a run, with what the environment answered. A `read` comes with the room that is
left in the line it is made for. -/
inductive Call
  | select (socket input : Bool)
  | readSocket (room : Nat) (outcome : ReadOutcome)
  | readInput (room : Nat) (outcome : ReadOutcome)
  | fputs (text : List Byte)
  | writen (data : List Byte)
  | printf (text : String)
  deriving DecidableEq, Repr

/-- `if(FD_ISSET(fileno(fp),&rset))`: `fgets` is called, or the iteration is over. -/
def Client.testInput (client : Client) (input : Bool) : Client :=
  { client with pc := if input then .fgets [] else .select }

/-- The call of `readline` as far as it has come, and what follows it. -/
def Client.received (client : Client) (input : Bool) : Return ⊕ Frame → List Call × Client
  | .inr frame => ([], { client with pc := .readline input frame })
  | .inl ret =>
    let client := { client with recvline := overwrite client.recvline 0 ret.stored }
    if ret.value = 0 then
      ([.printf "[str_cli]:server terminated prematurely\n"], { client with pc := .exited (-1) })
    else ([.fputs (cstring client.recvline)], client.testInput input)

/-- `if(FD_ISSET(sockfd,&rset))`: `readline` is called, or not. -/
def Client.testSocket (client : Client) (socket input : Bool) : List Call × Client :=
  if socket then client.received input ((readlineLoop maxline).test Frame.enter)
  else ([], client.testInput input)

/-- `fgets` returns `sendline` with this line. -/
def Client.send (client : Client) (line : List Byte) : List Call × Client :=
  let client := { client with sendline := overwrite client.sendline 0 (line ++ [0]) }
  ([.writen (client.sendline.take (strlen client.sendline))], { client with pc := .select })

/-- The room `fgets(sendline,MAXLINE,fp)` has for the rest of the line. -/
def roomAfter (stored : List Byte) : Nat := maxline - 1 - stored.length

/-- `fgets` takes what it can from the buffer of `fp`. -/
def Client.copy (client : Client) (stored : List Byte) : List Call × Client :=
  let taken := fgetsLine (roomAfter stored) client.fp
  let line := stored ++ taken
  let client := { client with fp := client.fp.drop taken.length }
  if line.getLast? = some newline ∨ roomAfter line = 0 then client.send line
  else ([], { client with pc := .fgets line })

/-- The buffer of `fp` is empty and `fgets` has to read. It returns what it has at end of file, and
`NULL` when it has nothing or when `read` fails. -/
def Client.fill (client : Client) (stored : List Byte) (outcome : ReadOutcome) :
    List Call × Client :=
  if 0 < outcome.value then ([], { client with fp := outcome.bytes })
  else if outcome.value = 0 ∧ stored ≠ [] then client.send stored
  else ([], { client with pc := .returned })

/-- One step. -/
inductive Step : Client → List Call → Client → Prop
  | select {client : Client} (pc : client.pc = .select) (socket input : Bool) :
      Step client ([.select socket input] ++ (client.testSocket socket input).1)
        (client.testSocket socket input).2
  | deliver {client : Client} {input : Bool} {frame : Frame}
      (pc : client.pc = .readline input frame) (positive : 0 < client.buffer.cnt) :
      Step client
        ({ client with buffer := client.buffer.deliver.2 }.received input
          ((readlineLoop maxline).round client.buffer.deliver.1 frame)).1
        ({ client with buffer := client.buffer.deliver.2 }.received input
          ((readlineLoop maxline).round client.buffer.deliver.1 frame)).2
  | read {client : Client} {input : Bool} {frame : Frame} {outcome : ReadOutcome}
      (pc : client.pc = .readline input frame) (empty : client.buffer.cnt ≤ 0)
      (fits : outcome.Fits maxline) :
      Step client
        ([.readSocket (maxline - frame.n) outcome] ++
          ({ client with buffer := (againRound outcome client.buffer frame).1 }.received input
            (againRound outcome client.buffer frame).2).1)
        ({ client with buffer := (againRound outcome client.buffer frame).1 }.received input
          (againRound outcome client.buffer frame).2).2
  | copy {client : Client} {stored : List Byte} (pc : client.pc = .fgets stored)
      (buffered : client.fp ≠ []) :
      Step client (client.copy stored).1 (client.copy stored).2
  | fill {client : Client} {stored : List Byte} {outcome : ReadOutcome}
      (pc : client.pc = .fgets stored) (empty : client.fp = []) :
      Step client ([.readInput (roomAfter stored) outcome] ++ (client.fill stored outcome).1)
        (client.fill stored outcome).2

/-- `str_cli`, whose buffers are empty when it starts. -/
def strCli : System Client Call where
  start history client := history = [] ∧ client.pc = .select ∧ client.buffer = .zero ∧
    client.fp = []
  step := Step

/-! ### Lines that are left -/

/-- What is left of some bytes when a line has been taken from them. -/
def leftAfter (room : Nat) (bytes : List Byte) : List Byte :=
  bytes.drop (fgetsLine room bytes).length

/-- A complete line that is taken from the kernel but in neither buffer delivered. -/
def Client.Stranded (client : Client) : Prop :=
  newline ∈ client.buffer.unread ∨ newline ∈ client.fp

/-- A `read` brings no complete line besides the one that it is made for. -/
def Call.Single : Call → Prop
  | .readSocket room outcome => newline ∉ leftAfter room outcome.bytes
  | .readInput room outcome => newline ∉ leftAfter room outcome.bytes
  | .select _ _ => True
  | .fputs _ => True
  | .writen _ => True
  | .printf _ => True

instance : DecidablePred Call.Single := fun call =>
  match call with
  | .readSocket room outcome | .readInput room outcome =>
    inferInstanceAs (Decidable (newline ∉ leftAfter room outcome.bytes))
  | .select _ _ | .fputs _ | .writen _ | .printf _ => inferInstanceAs (Decidable True)

theorem notMem_leftAfter {bytes : List Byte} (none : newline ∉ bytes) (room : Nat) :
    newline ∉ leftAfter room bytes :=
  fun member => none (List.mem_of_mem_drop member)

/-- A byte that does not end the line takes up one place of its room. -/
theorem leftAfter_other {c : Byte} (other : c ≠ newline) (room : Nat) (bytes : List Byte) :
    leftAfter (room + 1) (c :: bytes) = leftAfter room bytes := by
  rw [leftAfter, fgetsLine, if_neg other]
  rfl

/-- A call of `readline` as far as it has come leaves no complete line in its buffer. -/
def LeavesNone (buffer : LineBuffer) : Return ⊕ Frame → Prop
  | .inl _ => newline ∉ buffer.unread
  | .inr frame => frame.n < maxline ∧ newline ∉ leftAfter (maxline - frame.n) buffer.unread

/-- One byte goes from the buffer into the line. -/
theorem leavesNone_deliver {buffer : LineBuffer} (sound : buffer.Sound) (positive : 0 < buffer.cnt)
    {frame : Frame} (inside : frame.n < maxline)
    (none : newline ∉ leftAfter (maxline - frame.n) buffer.unread) :
    LeavesNone buffer.deliver.2 ((readlineLoop maxline).round buffer.deliver.1 frame) := by
  obtain ⟨c, reply, unread, -⟩ := LineBuffer.deliver_spec sound positive
  have room : maxline - frame.n = maxline - (frame.n + 1) + 1 := by omega
  rw [unread, room] at none
  rw [reply]
  by_cases same : c = newline
  · subst same
    rw [Text.round_return (readlineBody_newline frame)]
    exact none
  · rw [leftAfter_other same] at none
    rw [Text.round_next (readlineBody_other same frame)]
    by_cases more : frame.n + 1 < maxline
    · rw [Text.test_more (decide_eq_true more)]
      exact ⟨more, none⟩
    · rw [Text.test_over (decide_eq_false more)]
      rw [Nat.sub_eq_zero_of_le (Nat.not_lt.mp more)] at none
      exact none

/-- A `read` is made when the buffer is empty, so all that is left afterwards is from it. -/
theorem leavesNone_againRound {buffer : LineBuffer} (sound : buffer.Sound) {frame : Frame}
    (inside : frame.n < maxline) {outcome : ReadOutcome} (fits : outcome.Fits maxline)
    (single : newline ∉ leftAfter (maxline - frame.n) outcome.bytes) :
    (againRound outcome buffer frame).1.Sound ∧
      LeavesNone (againRound outcome buffer frame).1 (againRound outcome buffer frame).2 := by
  have nothing : outcome.value ≤ 0 → (buffer.filled outcome).Sound ∧
      newline ∉ (buffer.filled outcome).unread := by
    intro empty
    refine ⟨LineBuffer.sound_filled sound fits empty, ?_⟩
    rw [LineBuffer.unread_of_nonpos empty]
    exact List.not_mem_nil
  cases outcome with
  | data bytes =>
    by_cases nonempty : bytes = []
    · subst nonempty
      rw [againRound, againBody_eof]
      exact nothing (Int.le_refl 0)
    · obtain ⟨sound', unread⟩ := LineBuffer.unread_filled sound fits
      have positive : (0 : Int) < bytes.length := by
        exact_mod_cast List.length_pos_iff.mpr nonempty
      obtain ⟨-, -, -, sound''⟩ := LineBuffer.deliver_spec sound' positive
      rw [againRound, againBody_data nonempty]
      refine ⟨sound'', leavesNone_deliver sound' positive inside ?_⟩
      rw [unread]
      exact single
  | error errno =>
    have failed := nothing (Int.neg_nonpos_of_nonneg Int.one_nonneg)
    by_cases interrupted : errno = .eintr
    · subst interrupted
      rw [againRound, againBody_interrupted]
      exact ⟨failed.1, inside, notMem_leftAfter failed.2 _⟩
    · rw [againRound, againBody_error interrupted]
      exact failed

/-! ### What every run keeps -/

/-- What will be left of the buffer of `readline` when the call that is under way has returned. -/
def Client.socketLeft (client : Client) : List Byte :=
  match client.pc with
  | .readline _ frame => leftAfter (maxline - frame.n) client.buffer.unread
  | _ => client.buffer.unread

/-- What will be left of the buffer of `fp`. -/
def Client.inputLeft (client : Client) : List Byte :=
  match client.pc with
  | .fgets stored => leftAfter (roomAfter stored) client.fp
  | _ => client.fp

/-- As long as every `read` brings no complete line besides its own, none will be left. -/
structure Inv (client : Client) : Prop where
  sound : client.buffer.Sound
  inside : ∀ input frame, client.pc = .readline input frame → frame.n < maxline
  socket : newline ∉ client.socketLeft
  input : newline ∉ client.inputLeft

section Steps

variable {client next : Client} {calls : List Call}

theorem inv_testInput (client : Client) (sound : client.buffer.Sound)
    (socket : newline ∉ client.buffer.unread) (input : newline ∉ client.fp) (ready : Bool) :
    Inv (client.testInput ready) := by
  cases ready with
  | false => exact ⟨sound, by rintro _ _ ⟨⟩, socket, input⟩
  | true => exact ⟨sound, by rintro _ _ ⟨⟩, socket, notMem_leftAfter input _⟩

theorem inv_received (client : Client) (sound : client.buffer.Sound) (ready : Bool)
    {progress : Return ⊕ Frame} (socket : LeavesNone client.buffer progress)
    (input : newline ∉ client.fp) : Inv (client.received ready progress).2 := by
  cases progress with
  | inr frame =>
    refine ⟨sound, ?_, socket.2, input⟩
    rintro _ _ ⟨⟩
    exact socket.1
  | inl ret =>
    rw [Client.received]
    dsimp only
    split_ifs with ended
    · exact ⟨sound, by rintro _ _ ⟨⟩, socket, input⟩
    · exact inv_testInput { client with recvline := overwrite client.recvline 0 ret.stored } sound
        socket input ready

theorem inv_send (client : Client) (sound : client.buffer.Sound)
    (socket : newline ∉ client.buffer.unread) (input : newline ∉ client.fp) (line : List Byte) :
    Inv (client.send line).2 :=
  ⟨sound, by rintro _ _ ⟨⟩, socket, input⟩

theorem inv_step (inv : Inv client) (step : Step client calls next)
    (single : ∀ call ∈ calls, call.Single) : Inv next := by
  have socketAt := inv.socket
  have inputAt := inv.input
  cases step with
  | select pc socket input =>
    rw [Client.socketLeft, pc] at socketAt
    rw [Client.inputLeft, pc] at inputAt
    rw [Client.testSocket]
    split_ifs with ready
    · have entered : (readlineLoop maxline).test Frame.enter = .inr Frame.enter := rfl
      rw [entered]
      exact inv_received client inv.sound input ⟨by decide, notMem_leftAfter socketAt _⟩ inputAt
    · exact inv_testInput client inv.sound socketAt inputAt input
  | @deliver input frame pc positive =>
    rw [Client.socketLeft, pc] at socketAt
    rw [Client.inputLeft, pc] at inputAt
    obtain ⟨-, -, -, sound⟩ := LineBuffer.deliver_spec inv.sound positive
    have leaves := leavesNone_deliver inv.sound positive (inv.inside _ _ pc) socketAt
    exact inv_received { client with buffer := client.buffer.deliver.2 } sound input leaves inputAt
  | @read input frame outcome pc empty fits =>
    rw [Client.inputLeft, pc] at inputAt
    have own : newline ∉ leftAfter (maxline - frame.n) outcome.bytes :=
      single _ (List.mem_append_left _ (List.mem_singleton_self _))
    obtain ⟨sound, leaves⟩ := leavesNone_againRound inv.sound (inv.inside _ _ pc) fits own
    exact inv_received { client with buffer := (againRound outcome client.buffer frame).1 } sound
      input leaves inputAt
  | @copy stored pc buffered =>
    rw [Client.socketLeft, pc] at socketAt
    rw [Client.inputLeft, pc] at inputAt
    rw [Client.copy]
    dsimp only
    split_ifs with whole
    · exact inv_send { client with fp := leftAfter (roomAfter stored) client.fp } inv.sound
        socketAt inputAt _
    · exact ⟨inv.sound, by rintro _ _ ⟨⟩, socketAt, notMem_leftAfter inputAt _⟩
  | @fill stored outcome pc empty =>
    rw [Client.socketLeft, pc] at socketAt
    have own : newline ∉ leftAfter (roomAfter stored) outcome.bytes :=
      single _ (List.mem_append_left _ (List.mem_singleton_self _))
    have none : newline ∉ client.fp := empty ▸ List.not_mem_nil
    rw [Client.fill]
    split_ifs with data ended
    · refine ⟨inv.sound, inv.inside, inv.socket, ?_⟩
      show newline ∉ match client.pc with
        | .fgets stored => leftAfter (roomAfter stored) outcome.bytes
        | _ => outcome.bytes
      rw [pc]
      exact own
    · exact inv_send client inv.sound socketAt none stored
    · exact ⟨inv.sound, by rintro _ _ ⟨⟩, socketAt, none⟩

end Steps

theorem inv_run {history : List Call} {client : Client} (run : Run strCli history client)
    (single : ∀ call ∈ history, call.Single) : Inv client := by
  refine run.invariant (fun history client => (∀ call ∈ history, call.Single) → Inv client) ?_ ?_
    single
  · rintro _ client ⟨rfl, pc, buffer, fp⟩ -
    refine ⟨buffer ▸ LineBuffer.sound_zero, ?_, ?_, ?_⟩
    · rw [pc]
      rintro _ _ ⟨⟩
    · rw [Client.socketLeft, pc, buffer, LineBuffer.unread_of_nonpos (Int.le_refl 0)]
      exact List.not_mem_nil
    · rw [Client.inputLeft, pc, fp]
      exact List.not_mem_nil
  · intro history client calls next inductionHypothesis step single
    have before := inductionHypothesis fun call member =>
      single call (List.mem_append_left _ member)
    exact inv_step before step fun call member => single call (List.mem_append_right _ member)

/-- In every run, whatever `select` reports: if no `read` has brought a complete line besides the
one it was made for, neither buffer holds a complete line when `str_cli` is in `select`. -/
theorem none_stranded_of_single {history : List Call} {client : Client}
    (run : Run strCli history client) (single : ∀ call ∈ history, call.Single)
    (pc : client.pc = .select) : ¬ client.Stranded := by
  obtain ⟨-, -, socket, input⟩ := inv_run run single
  rw [Client.socketLeft, pc] at socket
  rw [Client.inputLeft, pc] at input
  exact not_or.mpr ⟨socket, input⟩

/-- The client at its first `select`. -/
def started : Client where
  pc := .select
  sendline := []
  recvline := []
  buffer := .zero
  fp := []

/-- The client has read these bytes from the socket and delivered the line `a` of them. -/
def delivered (bytes : List Byte) : Client :=
  let buffer := (LineBuffer.zero.filled (.data bytes)).rewind
  { started with
    recvline := [97, 10, 0]
    buffer := buffer.deliver.2.deliver.2 }

theorem run_delivered (rest : List Byte) (fits : (97 :: 10 :: rest).length ≤ maxline) :
    Run strCli [.select true false, .readSocket 4095 (.data (97 :: 10 :: rest)), .fputs [97, 10]]
      (delivered (97 :: 10 :: rest)) := by
  have start : Run strCli [] started := .start ⟨rfl, rfl, rfl, rfl⟩
  have select := start.step (.select rfl true false)
  have read := select.step
    (@Step.read _ _ _ (.data (97 :: 10 :: rest)) rfl (Int.le_refl 0) fits)
  have positive : (0 : Int) < ((97 :: 10 :: rest).length : Int) - 1 := by
    rw [List.length_cons, List.length_cons]
    omega
  have deliver := read.step (.deliver rfl positive)
  exact deliver

theorem none_stranded_of_single_oneLine : ¬ (delivered [97, 10]).Stranded :=
  none_stranded_of_single (run_delivered [] (by decide)) (by decide) rfl

/-- The `read` for the line `a` brings the line `b` as well. -/
theorem not_none_stranded : ¬ ∀ history client, Run strCli history client →
    client.pc = .select → ¬ client.Stranded := by
  intro none
  have stranded : (delivered [97, 10, 98, 10]).Stranded := .inl (by decide)
  exact none _ _ (run_delivered [98, 10] (by decide)) rfl stranded

end SocketProgram.SelectClientStdio
