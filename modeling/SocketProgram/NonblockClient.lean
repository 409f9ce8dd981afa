/-
This file models the nonblocking `str_cli` of `strclinonb.c`. The client relays its
standard input to the socket and the socket to its standard output, through a buffer
for each direction, and waits in `select` only. Every read and write may be short or
find that it would block. The trace on standard error and the `fcntl` calls before the
loop change none of its variables and are left out.

One iteration of the loop is four blocks, each of which may return from the function.
Each direction is a pipe: what the blocks do to a buffer is what the pipe of that
direction allows. That the bytes stay in order, and that the FIN is sent once and
last, are then the laws of the pipe.
-/

import SocketProgram.Kernel
import SocketProgram.Library.Blocks
import SocketProgram.Library.Pipe

namespace SocketProgram.NonblockClient

open Memory Runs Blocks

/-! ### One iteration of the loop -/

/-- The descriptors in `rset` and in `wset`. -/
structure Sets where
  rsetStdin : Bool
  rsetSockfd : Bool
  wsetSockfd : Bool
  wsetStdout : Bool
  deriving DecidableEq, Repr

/-- The calls the client makes, with what the environment answered. A read comes with the
room it was given, a write with the bytes it was offered. -/
inductive Call
  | select (sets : Sets)
  | readStdin (room : Nat) (outcome : ReadOutcome)
  | readSocket (room : Nat) (outcome : ReadOutcome)
  | writeStdout (offered : List Byte) (outcome : WriteOutcome)
  | writeSocket (offered : List Byte) (outcome : WriteOutcome)
  | shutdown
  | printf (text : String)
  deriving DecidableEq, Repr

/-- The variables of `str_cli` that live across iterations: the buffer `to` with `tooptr` and
`toiptr`, the buffer `fr` with `froptr` and `friptr`, and `stdineof`. -/
structure Client where
  toBuf : Window Byte
  frBuf : Window Byte
  stdineof : Bool
  deriving DecidableEq, Repr

/-- What the system calls of one iteration return: the sets `select` leaves, and the outcomes of
the reads and writes. -/
structure Round where
  sets : Sets
  stdin : ReadOutcome
  socket : ReadOutcome
  stdout : WriteOutcome
  sockfd : WriteOutcome

/-- What a block works on: the variables, and `wset`, which the reads add to. -/
structure Pass where
  client : Client
  wsetSockfd : Bool
  wsetStdout : Bool

/-- A block of the loop: the calls it makes, and whether it goes on or returns from
`str_cli`. -/
abbrev Block := Flow Call Pass Client

/-- The sets `select` is called with. -/
def Client.sets (client : Client) : Sets where
  rsetStdin := !client.stdineof && decide (client.toBuf.iptr < maxline)
  rsetSockfd := decide (client.frBuf.iptr < maxline)
  wsetSockfd := decide (client.toBuf.optr ≠ client.toBuf.iptr)
  wsetStdout := decide (client.frBuf.optr ≠ client.frBuf.iptr)

/-- `if(FD_ISSET(STDIN_FILENO, &rset))`. -/
def readStdin (round : Round) (pass : Pass) : Block :=
  let client := pass.client
  let call := Call.readStdin (maxline - client.toBuf.iptr) round.stdin
  if round.sets.rsetStdin then
    if round.stdin.value < 0 then
      if round.stdin.errno? ≠ some .ewouldblock then
        .ret [call, .printf "read error on stdin\n"] client
      else .next [call] pass
    else if round.stdin.value = 0 then
      if client.toBuf.optr = client.toBuf.iptr then
        .next [call, .shutdown] { pass with client := { client with stdineof := true } }
      else .next [call] { pass with client := { client with stdineof := true } }
    else
      .next [call]
        { pass with
          client := { client with toBuf := client.toBuf.store round.stdin.bytes }
          wsetSockfd := true }
  else .next [] pass

/-- `if(FD_ISSET(sockfd, &rset))`. -/
def readSocket (round : Round) (pass : Pass) : Block :=
  let client := pass.client
  let call := Call.readSocket (maxline - client.frBuf.iptr) round.socket
  if round.sets.rsetSockfd then
    if round.socket.value < 0 then
      if round.socket.errno? ≠ some .ewouldblock then
        .ret [call, .printf "read error on socket\n"] client
      else .next [call] pass
    else if round.socket.value = 0 then
      if client.stdineof then .ret [call] client
      else .ret [call, .printf "str_cli: server terminated prematurely\n"] client
    else
      .next [call]
        { pass with
          client := { client with frBuf := client.frBuf.store round.socket.bytes }
          wsetStdout := true }
  else .next [] pass

/-- `if(FD_ISSET(STDOUT_FILENO, &wset) && ( (n=friptr-froptr)>0))`. -/
def writeStdout (round : Round) (pass : Pass) : Block :=
  let client := pass.client
  let call := Call.writeStdout client.frBuf.pending round.stdout
  if pass.wsetStdout ∧ client.frBuf.optr < client.frBuf.iptr then
    if round.stdout.value < 0 then
      if round.stdout.errno? ≠ some .ewouldblock then
        .ret [call, .printf "write error to stdout\n"] client
      else .next [call] pass
    else
      .next [call]
        { pass with client := { client with frBuf := client.frBuf.drain round.stdout.count } }
  else .next [] pass

/-- `if(FD_ISSET(sockfd,&wset) && ( (n=toiptr-tooptr)>0))`. -/
def writeSocket (round : Round) (pass : Pass) : Block :=
  let client := pass.client
  let call := Call.writeSocket client.toBuf.pending round.sockfd
  if pass.wsetSockfd ∧ client.toBuf.optr < client.toBuf.iptr then
    if round.sockfd.value < 0 then
      if round.sockfd.errno? ≠ some .ewouldblock then
        .ret [call, .printf "write error to socket\n"] client
      else .next [call] pass
    else
      let drained := client.toBuf.drain round.sockfd.count
      let pass := { pass with client := { client with toBuf := drained } }
      if drained.optr = drained.iptr ∧ client.stdineof then .next [call, .shutdown] pass
      else .next [call] pass
  else .next [] pass

/-- The body of `for(;;)`. -/
def iterate (client : Client) (round : Round) : Block :=
  ((((Flow.next [.select client.sets]
    ⟨client, round.sets.wsetSockfd, round.sets.wsetStdout⟩).andThen (readStdin round)).andThen
      (readSocket round)).andThen (writeStdout round)).andThen (writeSocket round)

/-! ### Runs -/

/-- Where `str_cli` is: at the top of the loop, or returned. -/
inductive Status
  | running (client : Client)
  | returned (client : Client)
  deriving DecidableEq, Repr

/-- The variables, or what they were when `str_cli` returned. -/
def Status.client : Status → Client
  | .running client | .returned client => client

/-- `select` leaves some of the descriptors it was given. -/
structure Sets.Within (ready asked : Sets) : Prop where
  rsetStdin : ready.rsetStdin = true → asked.rsetStdin = true
  rsetSockfd : ready.rsetSockfd = true → asked.rsetSockfd = true
  wsetSockfd : ready.wsetSockfd = true → asked.wsetSockfd = true
  wsetStdout : ready.wsetStdout = true → asked.wsetStdout = true

/-- A read stores no more than it has room for, and a write takes no more than it is offered. -/
def Call.Possible : Call → Prop
  | .readStdin room outcome | .readSocket room outcome => outcome.Fits room
  | .writeStdout offered outcome | .writeSocket offered outcome => outcome.Fits offered.length
  | _ => True

instance : DecidablePred Call.Possible := fun call =>
  match call with
  | .readStdin room outcome | .readSocket room outcome =>
    inferInstanceAs (Decidable (outcome.bytes.length ≤ room))
  | .writeStdout offered outcome | .writeSocket offered outcome =>
    inferInstanceAs (Decidable (outcome.count ≤ offered.length))
  | .select _ | .shutdown | .printf _ => inferInstanceAs (Decidable True)

/-- Where an iteration leaves `str_cli`. -/
def statusAfter : Block → Status
  | .next _ pass => .running pass.client
  | .ret _ client => .returned client

/-- The variables at the first iteration, with whatever the buffers hold. -/
def Client.initial (toMemory frMemory : List Byte) : Client where
  toBuf := ⟨toMemory, 0, 0⟩
  frBuf := ⟨frMemory, 0, 0⟩
  stdineof := false

/-- `str_cli`, from one iteration to the next. -/
def strCli : System Status Call where
  start history status := history = [] ∧ ∃ toMemory frMemory : List Byte,
    toMemory.length = maxline ∧ frMemory.length = maxline ∧
      status = .running (Client.initial toMemory frMemory)
  step status calls next := ∃ client round, status = .running client ∧
    round.sets.Within client.sets ∧ calls = (iterate client round).events ∧
    (∀ call ∈ calls, call.Possible) ∧ next = statusAfter (iterate client round)

/-! ### The two directions -/

/-- The bytes read from standard input. -/
def stdinBytes (history : List Call) : List Byte :=
  history.flatMap fun call =>
    match call with
    | .readStdin _ outcome => outcome.bytes
    | _ => []

/-- The bytes written to the socket. -/
def toSocketBytes (history : List Call) : List Byte :=
  history.flatMap fun call =>
    match call with
    | .writeSocket offered outcome => offered.take outcome.count
    | _ => []

/-- The bytes read from the socket. -/
def fromSocketBytes (history : List Call) : List Byte :=
  history.flatMap fun call =>
    match call with
    | .readSocket _ outcome => outcome.bytes
    | _ => []

/-- The bytes written to standard output. -/
def stdoutBytes (history : List Call) : List Byte :=
  history.flatMap fun call =>
    match call with
    | .writeStdout offered outcome => offered.take outcome.count
    | _ => []

/-- What a call is to the pipe from standard input to the socket. A read that fails is an
attempt to put. -/
def Call.toSocket : Call → List (Pipe.Event Byte)
  | .readStdin _ (.data []) => [.ended]
  | .readStdin _ outcome => [.put outcome.bytes]
  | .writeSocket offered outcome => [.take (offered.take outcome.count)]
  | .shutdown => [.close]
  | _ => []

/-- What a call is to the pipe from the socket to standard output. -/
def Call.toStdout : Call → List (Pipe.Event Byte)
  | .readSocket _ outcome => [.put outcome.bytes]
  | .writeStdout offered outcome => [.take (offered.take outcome.count)]
  | _ => []

/-- The pipe from standard input to the socket, in the variables. It is closed as soon as the
input has ended and the buffer is empty. -/
def Client.socketPipe (client : Client) : Pipe.State Byte :=
  ⟨client.toBuf.pending, client.stdineof,
    client.stdineof && decide (client.toBuf.optr = client.toBuf.iptr)⟩

/-- The pipe from the socket to standard output, in the variables. -/
def Client.stdoutPipe (client : Client) : Pipe.State Byte := ⟨client.frBuf.pending, false, false⟩

/-- The pointers are in order and inside their buffers. -/
structure Sound (client : Client) : Prop where
  toBuf : client.toBuf.Ordered maxline
  frBuf : client.frBuf.Ordered maxline

/-- Calls that lead from one state of the variables to another as the pipes allow. -/
structure Moves (client : Client) (calls : List Call) (next : Client) : Prop where
  sound : Sound next
  socket : accepts Pipe.accept client.socketPipe (calls.flatMap Call.toSocket) =
    some next.socketPipe
  stdout : accepts Pipe.accept client.stdoutPipe (calls.flatMap Call.toStdout) =
    some next.stdoutPipe

section Moves

variable {client next last : Client} {calls more : List Call}

theorem Moves.refl (sound : Sound client) : Moves client [] client := ⟨sound, rfl, rfl⟩

theorem Moves.trans (first : Moves client calls next) (second : Moves next more last) :
    Moves client (calls ++ more) last := by
  refine ⟨second.sound, ?_, ?_⟩
  · rw [List.flatMap_append, accepts_append, first.socket]
    exact second.socket
  · rw [List.flatMap_append, accepts_append, first.stdout]
    exact second.stdout

/-- A call neither direction sees. -/
theorem Moves.unseen (moves : Moves client calls next) (call : Call)
    (socket : call.toSocket = []) (stdout : call.toStdout = []) :
    Moves client (calls ++ [call]) next :=
  moves.trans ⟨moves.sound, by rw [List.flatMap_singleton, socket]; rfl,
    by rw [List.flatMap_singleton, stdout]; rfl⟩

/-- A call only the first direction sees. -/
theorem moves_socket (sound : Sound next) (call : Call)
    (socket : accepts Pipe.accept client.socketPipe call.toSocket = some next.socketPipe)
    (stdout : call.toStdout = []) (same : next.frBuf = client.frBuf) :
    Moves client [call] next := by
  refine ⟨sound, ?_, ?_⟩
  · rw [List.flatMap_singleton, socket]
  · rw [List.flatMap_singleton, stdout, accepts_nil, Client.stdoutPipe, Client.stdoutPipe, same]

/-- A call only the second direction sees. -/
theorem moves_stdout (sound : Sound next) (call : Call)
    (stdout : accepts Pipe.accept client.stdoutPipe call.toStdout = some next.stdoutPipe)
    (socket : call.toSocket = []) (same : next.toBuf = client.toBuf)
    (eof : next.stdineof = client.stdineof) : Moves client [call] next := by
  refine ⟨sound, ?_, ?_⟩
  · rw [List.flatMap_singleton, socket, accepts_nil, Client.socketPipe, Client.socketPipe, same,
      eof]
  · rw [List.flatMap_singleton, stdout]

/-! ### What the calls of the blocks do -/

theorem moves_readStdin_failed (sound : Sound client) (more : client.stdineof = false)
    (room : Nat) (errno : Errno) : Moves client [.readStdin room (.error errno)] client := by
  refine moves_socket sound _ ?_ rfl rfl
  show accepts Pipe.accept client.socketPipe [.put []] = _
  rw [accepts_singleton, Pipe.accept_put _ _ more, List.append_nil]

theorem moves_readStdin_data (sound : Sound client) (more : client.stdineof = false)
    {bytes : List Byte} (nonempty : bytes ≠ [])
    (fits : (ReadOutcome.data bytes).Fits (maxline - client.toBuf.iptr)) :
    Moves client [.readStdin (maxline - client.toBuf.iptr) (.data bytes)]
      { client with toBuf := client.toBuf.store bytes } := by
  have room : bytes.length ≤ client.toBuf.room := by
    rw [Window.room_eq sound.toBuf]
    exact fits
  refine moves_socket ?_ _ ?_ rfl rfl
  · exact ⟨Window.ordered_store sound.toBuf room, sound.frBuf⟩
  cases bytes with
  | nil => exact absurd rfl nonempty
  | cons byte bytes =>
    show accepts Pipe.accept client.socketPipe [.put (byte :: bytes)] = _
    rw [accepts_singleton, Pipe.accept_put _ _ more, Client.socketPipe, Client.socketPipe,
      Window.pending_store sound.toBuf, more]
    rfl

theorem moves_readStdin_eof (sound : Sound client) (more : client.stdineof = false)
    (room : Nat) (left : client.toBuf.optr ≠ client.toBuf.iptr) :
    Moves client [.readStdin room (.data [])] { client with stdineof := true } := by
  refine moves_socket ?_ _ ?_ rfl rfl
  · exact ⟨sound.toBuf, sound.frBuf⟩
  show accepts Pipe.accept client.socketPipe [.ended] = _
  rw [accepts_singleton, Pipe.accept_ended _ more, Client.socketPipe, Client.socketPipe, more,
    decide_eq_false left]
  rfl

/-- The input ends with nothing left to write: the FIN is sent at once. -/
theorem moves_readStdin_fin (sound : Sound client) (more : client.stdineof = false)
    (room : Nat) (drained : client.toBuf.optr = client.toBuf.iptr) :
    Moves client [.readStdin room (.data []), .shutdown] { client with stdineof := true } := by
  refine ⟨⟨sound.toBuf, sound.frBuf⟩, ?_, rfl⟩
  have empty := (Window.pending_eq_nil_iff sound.toBuf).mpr drained
  show accepts Pipe.accept client.socketPipe [.ended, .close] = _
  rw [accepts_cons, Pipe.accept_ended _ more, Option.bind_some, accepts_singleton,
    Pipe.accept_close _ rfl empty (by rw [Client.socketPipe, more]; rfl), Client.socketPipe,
    Client.socketPipe, decide_eq_true drained]
  rfl

theorem moves_readSocket_nothing (sound : Sound client) (room : Nat) {outcome : ReadOutcome}
    (nothing : outcome.bytes = []) : Moves client [.readSocket room outcome] client := by
  refine moves_stdout sound _ ?_ rfl rfl rfl
  show accepts Pipe.accept client.stdoutPipe [.put outcome.bytes] = _
  rw [nothing, accepts_singleton, Pipe.accept_put _ _ rfl, List.append_nil]

theorem moves_readSocket_data (sound : Sound client) {outcome : ReadOutcome}
    (fits : outcome.Fits (maxline - client.frBuf.iptr)) :
    Moves client [.readSocket (maxline - client.frBuf.iptr) outcome]
      { client with frBuf := client.frBuf.store outcome.bytes } := by
  have room : outcome.bytes.length ≤ client.frBuf.room := by
    rw [Window.room_eq sound.frBuf]
    exact fits
  refine moves_stdout ?_ _ ?_ rfl rfl rfl
  · exact ⟨sound.toBuf, Window.ordered_store sound.frBuf room⟩
  show accepts Pipe.accept client.stdoutPipe [.put outcome.bytes] = _
  rw [accepts_singleton, Pipe.accept_put _ _ rfl, Client.stdoutPipe, Client.stdoutPipe,
    Window.pending_store sound.frBuf]

theorem moves_writeStdout_failed (sound : Sound client) (errno : Errno) :
    Moves client [.writeStdout client.frBuf.pending (.error errno)] client := by
  refine moves_stdout sound _ ?_ rfl rfl rfl
  show accepts Pipe.accept client.stdoutPipe [.take []] = _
  rw [accepts_singleton, Pipe.accept_take _ _ rfl List.nil_prefix]
  rfl

theorem moves_writeStdout_wrote (sound : Sound client) {count : Nat}
    (fits : count ≤ client.frBuf.pending.length) :
    Moves client [.writeStdout client.frBuf.pending (.wrote count)]
      { client with frBuf := client.frBuf.drain count } := by
  have available := fits
  rw [Window.length_pending sound.frBuf] at available
  refine moves_stdout ?_ _ ?_ rfl rfl rfl
  · exact ⟨sound.toBuf, Window.ordered_drain sound.frBuf available⟩
  · show accepts Pipe.accept ⟨client.frBuf.pending, false, false⟩
      [.take (client.frBuf.pending.take count)] = _
    rw [accepts_singleton, Pipe.accept_take_front _ _ fits, Client.stdoutPipe,
      Window.pending_drain sound.frBuf available]

/-- While something is left to write, the socket is open. -/
theorem socketPipe_of_left (left : client.toBuf.optr < client.toBuf.iptr) :
    client.socketPipe = ⟨client.toBuf.pending, client.stdineof, false⟩ := by
  rw [Client.socketPipe, decide_eq_false (Nat.ne_of_lt left), Bool.and_false]

theorem moves_writeSocket_failed (sound : Sound client)
    (left : client.toBuf.optr < client.toBuf.iptr) (errno : Errno) :
    Moves client [.writeSocket client.toBuf.pending (.error errno)] client := by
  refine moves_socket sound _ ?_ rfl rfl
  show accepts Pipe.accept client.socketPipe [.take []] = _
  rw [socketPipe_of_left left, accepts_singleton, Pipe.accept_take _ _ rfl List.nil_prefix]
  rfl

/-- A write to the socket that leaves something, or leaves nothing while the input goes on. -/
theorem moves_writeSocket_wrote (sound : Sound client)
    (left : client.toBuf.optr < client.toBuf.iptr) {count : Nat}
    (fits : count ≤ client.toBuf.pending.length)
    (opened : ¬ ((client.toBuf.drain count).optr = (client.toBuf.drain count).iptr ∧
      client.stdineof = true)) :
    Moves client [.writeSocket client.toBuf.pending (.wrote count)]
      { client with toBuf := client.toBuf.drain count } := by
  have available := fits
  rw [Window.length_pending sound.toBuf] at available
  have after : (client.stdineof && decide ((client.toBuf.drain count).optr =
      (client.toBuf.drain count).iptr)) = false := by
    rw [← Bool.not_eq_true, Bool.and_eq_true, decide_eq_true_iff]
    exact fun both => opened ⟨both.2, both.1⟩
  refine moves_socket ?_ _ ?_ rfl rfl
  · exact ⟨Window.ordered_drain sound.toBuf available, sound.frBuf⟩
  · show accepts Pipe.accept client.socketPipe [.take (client.toBuf.pending.take count)] = _
    rw [socketPipe_of_left left, accepts_singleton, Pipe.accept_take_front _ _ fits,
      Client.socketPipe, Window.pending_drain sound.toBuf available, after]

/-- A write to the socket that leaves nothing after the input has ended: the FIN follows. -/
theorem moves_writeSocket_fin (sound : Sound client)
    (left : client.toBuf.optr < client.toBuf.iptr) {count : Nat}
    (fits : count ≤ client.toBuf.pending.length)
    (drained : (client.toBuf.drain count).optr = (client.toBuf.drain count).iptr)
    (ended : client.stdineof = true) :
    Moves client [.writeSocket client.toBuf.pending (.wrote count), .shutdown]
      { client with toBuf := client.toBuf.drain count } := by
  have available := fits
  rw [Window.length_pending sound.toBuf] at available
  have ordered := Window.ordered_drain sound.toBuf available
  have empty := (Window.pending_eq_nil_iff ordered).mpr drained
  rw [Window.pending_drain sound.toBuf available] at empty
  refine ⟨⟨ordered, sound.frBuf⟩, ?_, rfl⟩
  show accepts Pipe.accept client.socketPipe [.take (client.toBuf.pending.take count), .close] = _
  rw [socketPipe_of_left left, accepts_cons, Pipe.accept_take_front _ _ fits, Option.bind_some,
    accepts_singleton, Pipe.accept_close _ ended empty rfl, Client.socketPipe,
    Window.pending_drain sound.toBuf available, decide_eq_true drained, ended]
  rfl

end Moves

end SocketProgram.NonblockClient
