/-
This file models the `str_cli` of `strcliselect02.c`. It waits in `select` for its input and
for the socket, and relays with `read` and `write` what it finds there, without any buffer
of its own between the iterations. The misspelt `rst` and `stdinof` are read as `rset` and
`stdineof`.

From the input to the socket the loop is a pipe that never holds anything at the top of an
iteration, and the half-close is the closing of that pipe. In the other direction nothing
arrives: the `write` to standard output stands in the block that is entered on end of file,
behind a `return` and an `exit`.
-/

import SocketProgram.Library.Blocks
import SocketProgram.Library.Pipe
import SocketProgram.SelectServerEcho

namespace SocketProgram.SelectClient

open Memory Runs Blocks
open SelectServer (sizeOfSsize sizeOfSsize_natCast)

/-! ### One iteration of the loop -/

/-- The descriptors `fileno(fp)` and `sockfd`. -/
structure Descriptors where
  fp : Int
  sockfd : Int
  distinct : fp ≠ sockfd

/-- The calls the client makes, with what the environment answered. -/
inductive Call
  | select (maxfdp1 : Int) (rset : Finset Int)
  | readSocket (outcome : ReadOutcome)
  | readInput (outcome : ReadOutcome)
  | write (buf : List Byte) (n : Nat)
  | written (buf : List Byte) (n : Nat)
  | shutdown
  | printf (text : String)
  deriving DecidableEq

/-- The variables of `str_cli`. -/
structure Client where
  stdineof : Int
  rset : Finset Int
  buf : List Byte
  n : Int

/-- How `str_cli` ends. -/
inductive Ending
  | returned
  | exited (status : Int)
  deriving DecidableEq, Repr

/-- What the system calls of one iteration return: the descriptors `select` leaves in `rset`, and
the outcomes of the two reads. -/
structure Round where
  rset : Finset Int
  socket : ReadOutcome
  input : ReadOutcome

/-- A block of the loop. -/
abbrev Block := Flow Call Client Ending

/-- The descriptors in `rset` when `select` is called. -/
def Client.asked (fds : Descriptors) (client : Client) : Finset Int :=
  insert fds.sockfd (if client.stdineof = 0 then insert fds.fp client.rset else client.rset)

/-- `n=read(...,buf,MAXLINE)`. -/
def Client.read (client : Client) (outcome : ReadOutcome) : Client :=
  { client with buf := overwrite client.buf 0 outcome.bytes, n := outcome.value }

/-- `if(stdineof==1) return; else { ... exit(-1); }`. -/
def terminated (client : Client) : Block :=
  if client.stdineof = 1 then .ret [] .returned
  else .ret [.printf "[str_cli]:server teminated prematurely\n"] (.exited (-1))

/-- `write(fileno(stdout),buf,n)`. -/
def writeStdout (client : Client) : Block :=
  .next [.write client.buf (sizeOfSsize client.n)] client

/-- `if(FD_ISSET(sockfd,&rset))`. -/
def socketReadable (fds : Descriptors) (round : Round) (client : Client) : Block :=
  if fds.sockfd ∈ client.rset then
    let client := client.read round.socket
    if client.n = 0 then
      ((Flow.next [.readSocket round.socket] client).andThen terminated).andThen writeStdout
    else .next [.readSocket round.socket] client
  else .next [] client

/-- `if(FD_ISSET(fileno(fp),&rset))`. Its `continue` skips `written`, the last statement of the
loop. -/
def inputReadable (fds : Descriptors) (round : Round) (client : Client) : Block :=
  if fds.fp ∈ client.rset then
    let client := client.read round.input
    if client.n = 0 then
      .next [.readInput round.input, .shutdown]
        { client with stdineof := 1, rset := client.rset.erase fds.fp }
    else .next [.readInput round.input, .written client.buf (sizeOfSsize client.n)] client
  else .next [] client

/-- The body of `for(;;)`. -/
def iterate (fds : Descriptors) (client : Client) (round : Round) : Block :=
  ((Flow.next [.select (max fds.fp fds.sockfd + 1) (client.asked fds)]
    { client with rset := round.rset }).andThen (socketReadable fds round)).andThen
      (inputReadable fds round)

/-! ### Runs -/

/-- Where `str_cli` is: at the top of the loop, or at its end. -/
inductive Status
  | running (client : Client)
  | ended (ending : Ending)

/-- Where an iteration leaves `str_cli`. -/
def statusAfter : Block → Status
  | .next _ client => .running client
  | .ret _ ending => .ended ending

/-- What the environment can answer when no system call fails: `select` leaves some of the
descriptors it was given, and a `read` stores no more than it was asked for. -/
structure Round.Succeeds (fds : Descriptors) (client : Client) (round : Round) : Prop where
  rset : round.rset ⊆ client.asked fds
  socket : ∃ bytes, round.socket = .data bytes ∧ bytes.length ≤ maxline
  input : ∃ bytes, round.input = .data bytes ∧ bytes.length ≤ maxline

/-- `str_cli`, from one iteration to the next, with whatever its variables hold at first. -/
def strCli (fds : Descriptors) : System Status Call where
  start history status := history = [] ∧ ∃ buf n, status = .running ⟨0, ∅, buf, n⟩
  step status calls next := ∃ client round, status = .running client ∧
    round.Succeeds fds client ∧ calls = (iterate fds client round).events ∧
      next = statusAfter (iterate fds client round)

/-! ### The two directions -/

/-- The bytes read from the input. -/
def fromInputBytes (history : List Call) : List Byte :=
  history.flatMap fun call =>
    match call with
    | .readInput outcome => outcome.bytes
    | _ => []

/-- The bytes written to the socket. -/
def toSocketBytes (history : List Call) : List Byte :=
  history.flatMap fun call =>
    match call with
    | .written buf n => buf.take n
    | _ => []

/-- The bytes read from the socket. -/
def fromSocketBytes (history : List Call) : List Byte :=
  history.flatMap fun call =>
    match call with
    | .readSocket outcome => outcome.bytes
    | _ => []

/-- The bytes written to standard output. -/
def toStdoutBytes (history : List Call) : List Byte :=
  history.flatMap fun call =>
    match call with
    | .write buf n => buf.take n
    | _ => []

/-- What a call is to the pipe from the input to the socket. -/
def Call.toSocket : Call → List (Pipe.Event Byte)
  | .readInput (.data []) => [.ended]
  | .readInput outcome => [.put outcome.bytes]
  | .written buf n => [.take (buf.take n)]
  | .shutdown => [.close]
  | _ => []

/-- The pipe from the input to the socket at the top of an iteration: empty, and closed as soon as
the input has ended. -/
def Client.socketPipe (client : Client) : Pipe.State Byte :=
  ⟨[], decide (client.stdineof = 1), decide (client.stdineof = 1)⟩

/-- What every run keeps. -/
structure Relayed (fds : Descriptors) (history : List Call) (client : Client) : Prop where
  socket : accepts Pipe.accept Pipe.State.empty (history.flatMap Call.toSocket) =
    some client.socketPipe
  stdineof : client.stdineof = 0 ∨ client.stdineof = 1
  unasked : client.stdineof = 1 → fds.fp ∉ client.rset
  silent : toStdoutBytes history = []

/-- The same when `str_cli` has ended. It has returned only after it has seen the end of its
input. -/
def Ended (fds : Descriptors) (history : List Call) (ending : Ending) : Prop :=
  ∃ client, Relayed fds history client ∧ (ending = .returned → client.stdineof = 1)

section Blocks

variable {fds : Descriptors} {history : List Call} {client : Client} {round : Round}

theorem Relayed.extend (relayed : Relayed fds history client) {calls : List Call} {next : Client}
    (socket : accepts Pipe.accept client.socketPipe (calls.flatMap Call.toSocket) =
      some next.socketPipe)
    (stdineof : next.stdineof = 0 ∨ next.stdineof = 1)
    (unasked : next.stdineof = 1 → fds.fp ∉ next.rset) (silent : toStdoutBytes calls = []) :
    Relayed fds (history ++ calls) next := by
  refine ⟨?_, stdineof, unasked, ?_⟩
  · rw [List.flatMap_append, accepts_append, relayed.socket]
    exact socket
  · rw [toStdoutBytes, List.flatMap_append]
    show toStdoutBytes history ++ toStdoutBytes calls = []
    rw [relayed.silent, silent]
    rfl

/-- A call that the pipe to the socket does not see and that writes nothing to standard output. -/
theorem Relayed.quiet (relayed : Relayed fds history client) {call : Call}
    (unseen : call.toSocket = []) (silent : toStdoutBytes [call] = []) :
    Relayed fds (history ++ [call]) client := by
  refine relayed.extend ?_ relayed.stdineof relayed.unasked silent
  rw [List.flatMap_singleton, unseen]
  rfl

/-- The block that is entered on end of file never gets past its first statement. -/
theorem relayed_terminated (relayed : Relayed fds history client) :
    (terminated client).Ends (fun _ _ => False) (Ended fds) history := by
  unfold terminated
  split_ifs with normal
  · rw [Flow.Ends, List.append_nil]
    exact ⟨client, relayed, fun _ => normal⟩
  · exact ⟨client, relayed.quiet rfl rfl, fun returned => by cases returned⟩

theorem relayed_socketReadable (round : Round) (relayed : Relayed fds history client) :
    (socketReadable fds round client).Ends (Relayed fds) (Ended fds) history := by
  have read : Relayed fds (history ++ [.readSocket round.socket]) (client.read round.socket) :=
    { relayed.quiet rfl rfl with }
  unfold socketReadable
  dsimp only
  split_ifs with ready eof
  · have first : (Flow.next [.readSocket round.socket] (client.read round.socket)).Ends
        (Relayed fds) (Ended fds) history := read
    have second := first.andThen fun _ _ kept => relayed_terminated kept
    exact second.andThen fun _ _ never => never.elim
  · exact read
  · rw [Flow.Ends, List.append_nil]
    exact relayed

/-- The input is in `rset` only as long as it has not ended. -/
theorem Relayed.inputOpen (relayed : Relayed fds history client) (ready : fds.fp ∈ client.rset) :
    client.stdineof = 0 :=
  relayed.stdineof.resolve_right fun ended => relayed.unasked ended ready

theorem relayed_inputReadable (relayed : Relayed fds history client)
    (succeeds : ∃ bytes, round.input = .data bytes ∧ bytes.length ≤ maxline) :
    (inputReadable fds round client).Ends (Relayed fds) (Ended fds) history := by
  obtain ⟨bytes, outcome, fits⟩ := succeeds
  unfold inputReadable
  dsimp only
  split_ifs with ready eof
  · have before := relayed.inputOpen ready
    rw [ReadOutcome.eq_eof_of_value_eq_zero eof]
    refine relayed.extend ?_ (.inr rfl) (fun _ => Finset.notMem_erase _ _) rfl
    rw [Client.socketPipe, before]
    rfl
  · have before := relayed.inputOpen ready
    have nonempty : bytes ≠ [] := by
      rintro rfl
      exact eof (congrArg ReadOutcome.value outcome)
    have stored : (overwrite client.buf 0 bytes).take (sizeOfSsize bytes.length) = bytes := by
      rw [sizeOfSsize_natCast fits, take_overwrite_zero]
    rw [outcome]
    refine relayed.extend ?_ relayed.stdineof relayed.unasked rfl
    show accepts Pipe.accept client.socketPipe
      (Call.toSocket (.readInput (.data bytes)) ++
        ([.take ((overwrite client.buf 0 bytes).take (sizeOfSsize bytes.length))] ++ [])) = _
    cases bytes with
    | nil => exact absurd rfl nonempty
    | cons byte bytes =>
      show accepts Pipe.accept client.socketPipe [.put (byte :: bytes), .take _] =
        some client.socketPipe
      rw [stored, Client.socketPipe, before]
      simp [accepts_cons, Pipe.accept]
  · rw [Flow.Ends, List.append_nil]
    exact relayed

/-- An iteration goes through `select` and the two blocks. -/
theorem relayed_iterate (relayed : Relayed fds history client)
    (succeeds : round.Succeeds fds client) :
    (iterate fds client round).Ends (Relayed fds) (Ended fds) history := by
  have selected : (Flow.next [.select (max fds.fp fds.sockfd + 1) (client.asked fds)]
      { client with rset := round.rset }).Ends (Relayed fds) (Ended fds) history := by
    refine relayed.extend rfl relayed.stdineof (fun ended ready => ?_) rfl
    have asked := succeeds.rset ready
    rw [Client.asked, if_neg (by rw [ended]; decide)] at asked
    rcases Finset.mem_insert.mp asked with same | kept
    · exact fds.distinct same
    · exact relayed.unasked ended kept
  have first := selected.andThen fun _ _ kept => relayed_socketReadable round kept
  exact first.andThen fun _ _ kept => relayed_inputReadable kept succeeds.input

end Blocks

theorem relayed_of_run {fds : Descriptors} {history : List Call} {status : Status}
    (run : Run (strCli fds) history status) :
    (∀ client, status = .running client → Relayed fds history client) ∧
      ∀ ending, status = .ended ending → Ended fds history ending := by
  refine run.invariant (fun history status =>
    (∀ client, status = .running client → Relayed fds history client) ∧
      ∀ ending, status = .ended ending → Ended fds history ending) ?_ ?_
  · rintro _ _ ⟨rfl, buf, n, rfl⟩
    refine ⟨?_, by rintro _ ⟨⟩⟩
    rintro _ ⟨⟩
    exact ⟨rfl, .inl rfl, fun ended => absurd ended Int.zero_ne_one, rfl⟩
  · rintro history _ _ _ ⟨kept, -⟩ ⟨client, round, rfl, succeeds, rfl, rfl⟩
    have ends := relayed_iterate (kept client rfl) succeeds
    cases same : iterate fds client round with
    | next calls next =>
      rw [same] at ends
      refine ⟨?_, by rintro _ ⟨⟩⟩
      rintro _ ⟨⟩
      exact ends
    | ret calls ending =>
      rw [same] at ends
      refine ⟨by rintro _ ⟨⟩, ?_⟩
      rintro _ ⟨⟩
      exact ends

/-! ### The results -/

theorem entered_toSocket (history : List Call) :
    (history.flatMap Call.toSocket).flatMap Pipe.Event.entered = fromInputBytes history := by
  refine Pipe.flatMap_letters (fun call => ?_) history
  cases call with
  | readInput outcome =>
    cases outcome with
    | data bytes => cases bytes <;> simp [Call.toSocket, Pipe.Event.entered]
    | error errno => rfl
  | _ => rfl

theorem left_toSocket (history : List Call) :
    (history.flatMap Call.toSocket).flatMap Pipe.Event.left = toSocketBytes history := by
  refine Pipe.flatMap_letters (fun call => ?_) history
  cases call with
  | readInput outcome =>
    cases outcome with
    | data bytes => cases bytes <;> simp [Call.toSocket, Pipe.Event.left]
    | error errno => rfl
  | written buf n => simp [Call.toSocket, Pipe.Event.left]
  | _ => rfl

/-- An end is an end of file on the input. -/
theorem ended_mem_toSocket {history : List Call} :
    Pipe.Event.ended ∈ history.flatMap Call.toSocket ↔ Call.readInput (.data []) ∈ history := by
  rw [List.mem_flatMap]
  constructor
  · rintro ⟨call, member, ended⟩
    cases call with
    | readInput outcome =>
      cases outcome with
      | data bytes =>
        cases bytes with
        | nil => exact member
        | cons byte bytes => simp [Call.toSocket] at ended
      | error errno => simp [Call.toSocket] at ended
    | _ => simp [Call.toSocket] at ended
  · exact fun member => ⟨_, member, List.mem_singleton_self _⟩

/-- A close is a call of `shutdown`. -/
theorem close_mem_toSocket {history : List Call} :
    Pipe.Event.close ∈ history.flatMap Call.toSocket ↔ Call.shutdown ∈ history := by
  rw [List.mem_flatMap]
  constructor
  · rintro ⟨call, member, closed⟩
    cases call with
    | shutdown => exact member
    | readInput outcome =>
      cases outcome with
      | data bytes => cases bytes <;> simp [Call.toSocket] at closed
      | error errno => simp [Call.toSocket] at closed
    | _ => simp [Call.toSocket] at closed
  · exact fun member => ⟨_, member, List.mem_singleton_self _⟩

/-- A call that the pipe to the socket does not see neither reads the input nor writes to the
socket. -/
theorem ne_of_toSocket_eq_nil {call : Call} (unseen : call.toSocket = []) :
    (∀ outcome, call ≠ .readInput outcome) ∧ ∀ buf n, call ≠ .written buf n := by
  refine ⟨?_, ?_⟩
  · rintro outcome rfl
    cases outcome with
    | data bytes => cases bytes <;> cases unseen
    | error errno => cases unseen
  · rintro buf n rfl
    cases unseen

/-- The half-close in a history: once the input has ended `shutdown` has been called, exactly once,
after all that was read from the input has been written to the socket; and the input is not read
and the socket is not written to after it. -/
structure ShutsDownOnce (history : List Call) : Prop where
  called : Call.shutdown ∈ history ↔ .readInput (.data []) ∈ history
  once : history.count .shutdown ≤ 1
  last : ∀ before after, history = before ++ .shutdown :: after →
    toSocketBytes before = fromInputBytes before ∧
      ∀ call ∈ after, (∀ outcome, call ≠ .readInput outcome) ∧ ∀ buf n, call ≠ .written buf n

section Relayed

variable {fds : Descriptors} {history : List Call} {client : Client}

theorem shutsDownOnce_of_relayed (relayed : Relayed fds history client) :
    ShutsDownOnce history := by
  refine ⟨?_, Pipe.count_close_le_one Call.toSocket rfl relayed.socket, ?_⟩
  · rw [← close_mem_toSocket, ← ended_mem_toSocket, ← Pipe.ended_iff_mem relayed.socket]
    constructor
    · intro closed
      obtain ⟨before, after, same⟩ := List.append_of_mem (close_mem_toSocket.mp closed)
      have accepted := relayed.socket
      rw [same] at accepted
      have ended := (Pipe.close_last_flatMap Call.toSocket rfl accepted).1
      rw [Pipe.ended_iff_mem relayed.socket, same, List.flatMap_append]
      exact List.mem_append_left _ ended
    · exact Pipe.close_mem_of_accepts relayed.socket
  · rintro before after rfl
    obtain ⟨-, drained, unseen⟩ := Pipe.close_last_flatMap Call.toSocket rfl relayed.socket
    rw [entered_toSocket, left_toSocket] at drained
    exact ⟨drained.symm, fun call member => ne_of_toSocket_eq_nil (unseen call member)⟩

/-- In every run without failing system calls, whatever `select` reports and however the bytes come:
`shutdown` is called once and last on its side. And whenever `select` is called, both directions
have written exactly what they have read if and only if nothing has been read from the socket. -/
theorem relays_iff {status : Status} (run : Run (strCli fds) history status) :
    (ShutsDownOnce history ∧ (status = .ended .returned → .shutdown ∈ history)) ∧
      ∀ client, status = .running client →
        (toStdoutBytes history = fromSocketBytes history ∧
            toSocketBytes history = fromInputBytes history ↔
          fromSocketBytes history = []) := by
  obtain ⟨running, ended⟩ := relayed_of_run run
  refine ⟨?_, ?_⟩
  · cases status with
    | running client => exact ⟨shutsDownOnce_of_relayed (running client rfl), by rintro ⟨⟩⟩
    | ended ending =>
      obtain ⟨client, relayed, returned⟩ := ended ending rfl
      refine ⟨shutsDownOnce_of_relayed relayed, ?_⟩
      rintro ⟨⟩
      refine close_mem_toSocket.mp (Pipe.close_mem_of_accepts relayed.socket ?_)
      exact decide_eq_true (returned rfl)
  · rintro client rfl
    have relayed := running client rfl
    have conserved := Pipe.conserved relayed.socket
    rw [entered_toSocket, left_toSocket] at conserved
    have relays : toSocketBytes history = fromInputBytes history := by
      rw [conserved]
      exact (List.append_nil _).symm
    rw [relayed.silent]
    exact ⟨fun both => both.1.symm, fun nothing => ⟨nothing.symm, relays⟩⟩

/-- The standard input and a socket. -/
def stdinAndSocket : Descriptors := ⟨0, 3, by decide⟩

/-- One descriptor is ready, and both reads, as far as they are made, give this byte. -/
def oneReady (fd : Int) (byte : Byte) : Round := ⟨{fd}, .data [byte], .data [byte]⟩

theorem run_oneReady {fd : Int} (asked : fd ∈ Client.asked stdinAndSocket ⟨0, ∅, [], 0⟩)
    (byte : Byte) : Run (strCli stdinAndSocket)
      (iterate stdinAndSocket ⟨0, ∅, [], 0⟩ (oneReady fd byte)).events
      (statusAfter (iterate stdinAndSocket ⟨0, ∅, [], 0⟩ (oneReady fd byte))) := by
  have start : Run (strCli stdinAndSocket) [] (.running ⟨0, ∅, [], 0⟩) :=
    .start ⟨rfl, [], 0, rfl⟩
  have fits : 1 ≤ maxline := by decide
  exact start.step ⟨_, oneReady fd byte, rfl, ⟨Finset.singleton_subset_iff.mpr asked,
    ⟨[byte], rfl, fits⟩, ⟨[byte], rfl, fits⟩⟩, rfl, rfl⟩

/-- A byte comes from the input. -/
theorem relays_iff_input :
    toSocketBytes [.select 4 {3, 0}, .readInput (.data [97]), .written [97] 1] = [97] ∧
      toStdoutBytes [.select 4 {3, 0}, .readInput (.data [97]), .written [97] 1] = [] := by
  have run := @run_oneReady 0 (by decide) 97
  have relays := ((relays_iff run).2 _ rfl).mpr rfl
  exact ⟨relays.2, relays.1⟩

/-- A byte comes from the socket. -/
theorem not_relays : ¬ ∀ history client, Run (strCli stdinAndSocket) history (.running client) →
    toStdoutBytes history = fromSocketBytes history ∧
      toSocketBytes history = fromInputBytes history := by
  intro relays
  have run := @run_oneReady 3 (by decide) 97
  have same := (relays _ _ run).1
  cases same

end Relayed

end SocketProgram.SelectClient
