/-
This file models the `str_cli` of `str_cli_kqueue04.c` on a regular file. It waits for events of
its input and of the socket in one kernel queue. An event of a file comes with the number of bytes
between the offset and the end, and there is none once the offset is at the end; so a `read` that
would return 0 is never made, and the client takes for the end of the file a `read` that returns
as much as the event has announced. It then half-closes the socket and has the event of the file
deleted.

Two events at most are reported at a time, and they are handled one after the other, with the
array they stand in used for the request to delete one of them. The misspelt `Kq` is read as
`kq`.

What the file has to give goes to the socket in the same step, so from the file to the socket the
client is a pipe that never holds anything between two events. It is closed by the event with
which the file has been read. A file without any bytes has no event at all.
-/

import SocketProgram.Kernel
import SocketProgram.Library.Pipe

namespace SocketProgram.KqueueClient

open Memory Runs

/-! ### Events -/

/-- The descriptors `fileno(fp)` and `sockfd`. -/
inductive Ident
  | fp
  | sockfd
  deriving DecidableEq, Repr

/-- A `struct kevent` as far as it is read: `ident`, and `data`. -/
structure Kevent where
  ident : Ident
  data : Nat
  deriving DecidableEq, Repr

/-- What the client does, with what the kernel answered. Besides the calls, it says that it has set
`stdineof`. -/
inductive Call
  | kevent (kev : List Kevent)
  | readSocket (outcome : ReadOutcome)
  | readInput (outcome : ReadOutcome)
  | write (buf : List Byte) (n : Int)
  | writen (data : List Byte)
  | stdineof
  | shutdown
  | deleteKevent (ident : Ident)
  | printf (text : String)
  deriving DecidableEq, Repr

/-! ### The client -/

/-- The variables of `str_cli`, with the events of `kev` that have not been handled yet, the offset
of the file, and whether its event is still in the queue. -/
structure Client where
  kev : List Kevent
  stdineof : Int
  buf : List Byte
  offset : Nat
  registered : Bool
  returned : Bool
  deriving DecidableEq, Repr

/-- `if(kev[i].ident==sockfd)`, after the `read`. -/
def Client.socketReadable (client : Client) (outcome : ReadOutcome) : List Call × Client :=
  if outcome.value = 0 then
    if client.stdineof = 1 then ([], { client with returned := true })
    else ([.printf "str_cli:server terminated prematurely\n"], { client with returned := true })
  else
    let buf := overwrite client.buf 0 outcome.bytes
    ([.write buf outcome.value], { client with buf := buf })

/-- `if(kev[i].ident== fileno(fp))`, after the `read`, with `kev[i].data`. -/
def Client.inputReadable (isfile : Bool) (client : Client) (data : Nat) (outcome : ReadOutcome) :
    List Call × Client :=
  let buf := overwrite client.buf 0 outcome.bytes
  let client := { client with buf := buf, offset := client.offset + outcome.bytes.length }
  let written := if 0 < outcome.value then [Call.writen (buf.take outcome.value.toNat)] else []
  if outcome.value = 0 ∨ isfile = true ∧ outcome.value = data then
    (written ++ [.stdineof, .shutdown, .deleteKevent .fp],
      { client with stdineof := 1, registered := false })
  else (written, client)

/-- The body of the inner loop for the event `kev[i]`. -/
def Client.handle (isfile : Bool) (client : Client) (event : Kevent) (outcome : ReadOutcome) :
    List Call × Client :=
  match event.ident with
  | .sockfd =>
    ([.readSocket outcome] ++ (client.socketReadable outcome).1, (client.socketReadable outcome).2)
  | .fp =>
    ([.readInput outcome] ++ (client.inputReadable isfile event.data outcome).1,
      (client.inputReadable isfile event.data outcome).2)

/-! ### The kernel -/

/-- An event of the file is left to occur: it is in the queue, and the offset is before the end. -/
def EventLeft (file : List Byte) (client : Client) : Prop :=
  client.registered = true ∧ client.offset < file.length

/-- What `kevent` reports: one event or two, of different descriptors; one of the file only if there
is one to occur, with the number of bytes that remain. -/
structure Reports (file : List Byte) (client : Client) (kev : List Kevent) : Prop where
  nonempty : kev ≠ []
  room : kev.length ≤ 2
  distinct : (kev.map Kevent.ident).Nodup
  input : ∀ event ∈ kev, event.ident = .fp →
    EventLeft file client ∧ event.data = file.length - client.offset

/-- What `read` may do for an event. On the file it gives some of the bytes behind the offset, none
only at the end, or fails; on the socket it may do anything. -/
def Reads (file : List Byte) (client : Client) (event : Kevent) (outcome : ReadOutcome) : Prop :=
  outcome.Fits maxline ∧
    (event.ident = .fp → outcome.bytes <+: file.drop client.offset ∧
      (outcome = .data [] → file.drop client.offset = []))

/-- One step: `kevent` returns, or an event that it has reported is handled. -/
inductive Step (file : List Byte) : Client → List Call → Client → Prop
  | kevent {client : Client} {kev : List Kevent} (running : client.returned = false)
      (idle : client.kev = []) (reports : Reports file client kev) :
      Step file client [.kevent kev] { client with kev := kev }
  | handle {client : Client} {event : Kevent} {rest : List Kevent} {outcome : ReadOutcome}
      (running : client.returned = false) (next : client.kev = event :: rest)
      (reads : Reads file client event outcome) :
      Step file client ({ client with kev := rest }.handle true event outcome).1
        ({ client with kev := rest }.handle true event outcome).2

/-- `str_cli` on a regular file with these bytes, whatever its array holds at first. -/
def strCli (file : List Byte) : System Client Call where
  start history client := history = [] ∧ ∃ buf, client = ⟨[], 0, buf, 0, true, false⟩
  step := Step file

/-! ### What goes to the socket -/

/-- The bytes read from the file. -/
def fromInput (history : List Call) : List Byte :=
  history.flatMap fun
    | .readInput outcome => outcome.bytes
    | _ => []

/-- The bytes written to the socket. -/
def toSocket (history : List Call) : List Byte :=
  history.flatMap fun
    | .writen data => data
    | _ => []

/-- What a call is to the pipe from the file to the socket. -/
def Call.toPipe : Call → List (Pipe.Event Byte)
  | .readInput outcome => [.put outcome.bytes]
  | .writen data => [.take data]
  | .stdineof => [.ended]
  | .shutdown => [.close]
  | .kevent _ | .readSocket _ | .write _ _ | .deleteKevent _ | .printf _ => []

/-- The pipe between two events. -/
def Client.pipe (client : Client) : Pipe.State Byte :=
  ⟨[], decide (client.stdineof = 1), decide (client.stdineof = 1)⟩

/-! ### What holds of every run -/

/-- What every run on a file that is not empty keeps: everything read has been written, the events
at hand are those of the kernel, and either the event of the file is left or its end has been
reached. -/
structure Inv (file : List Byte) (history : List Call) (client : Client) : Prop where
  pipe : accepts Pipe.accept .empty (history.flatMap Call.toPipe) = some client.pipe
  input : fromInput history = file.take client.offset
  events : ∀ event ∈ client.kev, event.ident = .fp →
    EventLeft file client ∧ event.data = file.length - client.offset
  distinct : (client.kev.map Kevent.ident).Nodup
  phase : client.stdineof = 0 ∧ EventLeft file client ∨
    client.stdineof = 1 ∧ client.registered = false ∧ client.offset = file.length

theorem fromInput_append (history calls : List Call) :
    fromInput (history ++ calls) = fromInput history ++ fromInput calls := List.flatMap_append

/-- The pipe takes what comes next, which leaves it empty. -/
theorem accepts_append_of {history calls : List Call} {pipe next : Pipe.State Byte}
    (before : accepts Pipe.accept .empty (history.flatMap Call.toPipe) = some pipe)
    (more : accepts Pipe.accept pipe (calls.flatMap Call.toPipe) = some next) :
    accepts Pipe.accept .empty ((history ++ calls).flatMap Call.toPipe) = some next := by
  rw [List.flatMap_append, accepts_append, before]
  exact more

/-- What is put in and taken out at once. -/
theorem accepts_relay (bytes : List Byte) (more : List (Pipe.Event Byte)) :
    accepts Pipe.accept ⟨[], false, false⟩ (.put bytes :: .take bytes :: more) =
      accepts Pipe.accept ⟨[], false, false⟩ more := by
  simp [accepts_cons, Pipe.accept]

section Steps

variable {file : List Byte} {history : List Call} {client : Client} {event : Kevent}
  {rest : List Kevent} {outcome : ReadOutcome}

/-- An event of the socket changes nothing of what the invariant is about. -/
theorem Inv.socket (inv : Inv file history client) (next : client.kev = event :: rest)
    (outcome : ReadOutcome) :
    Inv file
      (history ++
        ([.readSocket outcome] ++ ({ client with kev := rest }.socketReadable outcome).1))
      ({ client with kev := rest }.socketReadable outcome).2 := by
  have events := inv.events
  have distinct := inv.distinct
  rw [next] at events distinct
  rw [Client.socketReadable]
  split_ifs
  all_goals
    refine ⟨accepts_append_of inv.pipe rfl, ?_, ?_, ?_, inv.phase⟩
    · rw [fromInput_append]
      exact (List.append_nil _).trans inv.input
    · exact fun other member => events other (List.mem_cons_of_mem _ member)
    · exact distinct.of_cons

/-- What a `read` of the file has added. -/
theorem take_offset_append {offset : Nat} {bytes : List Byte}
    (front : bytes <+: file.drop offset) :
    file.take offset ++ bytes = file.take (offset + bytes.length) := by
  rw [List.take_add, ← List.prefix_iff_eq_take.mp front]

/-- After an event of the file no other is at hand. -/
theorem Inv.alone (inv : Inv file history client) (next : client.kev = event :: rest)
    (ident : event.ident = .fp) : ∀ other ∈ rest, other.ident ≠ .fp := by
  intro other member same
  have distinct := inv.distinct
  rw [next, List.map_cons, List.nodup_cons] at distinct
  exact distinct.1 (List.mem_map.mpr ⟨other, member, same.trans ident.symm⟩)

theorem Inv.stdineof_eq (inv : Inv file history client) (left : EventLeft file client) :
    client.stdineof = 0 := by
  rcases inv.phase with ⟨open', -⟩ | ⟨-, gone, -⟩
  · exact open'
  · exact absurd (gone.symm.trans left.1) Bool.false_ne_true

/-- The invariant after an event of the file, with these bytes read and written. -/
theorem Inv.advance (inv : Inv file history client) (next : client.kev = event :: rest)
    (ident : event.ident = .fp) {bytes : List Byte}
    (front : bytes <+: file.drop client.offset) {calls : List Call} {after : Client}
    (pipe : accepts Pipe.accept client.pipe (calls.flatMap Call.toPipe) = some after.pipe)
    (input : fromInput calls = bytes) (kev : after.kev = rest)
    (offset : after.offset = client.offset + bytes.length)
    (phase : after.stdineof = 0 ∧ EventLeft file after ∨
      after.stdineof = 1 ∧ after.registered = false ∧ after.offset = file.length) :
    Inv file (history ++ calls) after := by
  refine ⟨accepts_append_of inv.pipe pipe, ?_, ?_, ?_, phase⟩
  · rw [fromInput_append, inv.input, input, take_offset_append front, offset]
  · rw [kev]
    exact fun other member same => absurd same (inv.alone next ident other member)
  · have distinct := inv.distinct
    rw [next] at distinct
    rw [kev]
    exact distinct.of_cons

/-- A `read` of the file that fails does nothing. -/
theorem inputReadable_error (client : Client) (data : Nat) (errno : Errno) :
    client.inputReadable true data (.error errno) =
      ([], { client with buf := overwrite client.buf 0 [] }) := by
  have failed : ¬ ((ReadOutcome.error errno).value = 0 ∨
      true = true ∧ (ReadOutcome.error errno).value = data) := by
    rw [ReadOutcome.value_error]
    omega
  have nothing : ¬ (0 : Int) < (ReadOutcome.error errno).value :=
    Int.not_lt.mpr (Int.negSucc_le_zero 0)
  rw [Client.inputReadable, if_neg failed, if_neg nothing]
  rfl

/-- What is read from the file is written, and the socket is closed if it is as much as the event
has announced. -/
theorem inputReadable_data (client : Client) (data : Nat) {bytes : List Byte}
    (more : 0 < bytes.length) :
    client.inputReadable true data (.data bytes) =
      let next : Client := { client with
        buf := overwrite client.buf 0 bytes, offset := client.offset + bytes.length }
      if bytes.length = data then
        ([.writen bytes, .stdineof, .shutdown, .deleteKevent .fp],
          { next with stdineof := 1, registered := false })
      else ([.writen bytes], next) := by
  have positive : 0 < (ReadOutcome.data bytes).value := Int.natCast_pos.mpr more
  have stored : (overwrite client.buf 0 bytes).take (ReadOutcome.data bytes).value.toNat =
      bytes := by
    rw [ReadOutcome.value_data, Int.toNat_natCast, take_overwrite_zero]
  rw [Client.inputReadable, ReadOutcome.bytes_data, stored, if_pos positive]
  by_cases all : bytes.length = data
  · rw [if_pos (.inr ⟨rfl, congrArg Int.ofNat all⟩), if_pos all]
    rfl
  · have partly : ¬ ((ReadOutcome.data bytes).value = 0 ∨
        true = true ∧ (ReadOutcome.data bytes).value = data) := by
      rw [ReadOutcome.value_data]
      omega
    rw [if_neg partly, if_neg all]

/-- An event of the file: what is read is written; if it is all that the event has announced, the
socket is closed. -/
theorem Inv.fp (inv : Inv file history client) (next : client.kev = event :: rest)
    (ident : event.ident = .fp) (reads : Reads file client event outcome) :
    Inv file
      (history ++ ([.readInput outcome] ++
        ({ client with kev := rest }.inputReadable true event.data outcome).1))
      ({ client with kev := rest }.inputReadable true event.data outcome).2 := by
  obtain ⟨left, data⟩ := inv.events event (next ▸ List.mem_cons_self) ident
  obtain ⟨front, ends⟩ := reads.2 ident
  have open' := inv.stdineof_eq left
  have empty : client.pipe = ⟨[], false, false⟩ := by
    rw [Client.pipe, open']
    rfl
  cases outcome with
  | error errno =>
    rw [inputReadable_error]
    refine inv.advance next ident front ?_ rfl rfl rfl (.inl ⟨open', left⟩)
    show accepts Pipe.accept client.pipe [.put []] = some client.pipe
    rw [empty]
    rfl
  | data bytes =>
    have before := left.2
    have more : 0 < bytes.length := by
      refine List.length_pos_iff.mpr fun nil => ?_
      have over' := List.drop_eq_nil_iff.mp (ends (congrArg ReadOutcome.data nil))
      exact absurd before (Nat.not_lt.mpr over')
    have fits : bytes.length ≤ file.length - client.offset := by
      rw [← List.length_drop]
      exact front.length_le
    rw [inputReadable_data _ _ more]
    by_cases all : bytes.length = event.data
    · rw [if_pos all]
      refine inv.advance next ident front ?_ (List.append_nil _) rfl rfl (.inr ⟨rfl, rfl, ?_⟩)
      · show accepts Pipe.accept client.pipe [.put bytes, .take bytes, .ended, .close] = _
        rw [empty, accepts_relay]
        rfl
      · show client.offset + bytes.length = file.length
        omega
    · rw [if_neg all]
      refine inv.advance next ident front ?_ (List.append_nil _) rfl rfl
        (.inl ⟨open', left.1, ?_⟩)
      · show accepts Pipe.accept client.pipe [.put bytes, .take bytes] = some client.pipe
        rw [empty, accepts_relay]
        rfl
      · show client.offset + bytes.length < file.length
        omega

/-- One step keeps the invariant. -/
theorem Inv.step {calls : List Call} {next : Client} (inv : Inv file history client)
    (step : Step file client calls next) : Inv file (history ++ calls) next := by
  cases step with
  | @kevent kev running idle reports =>
    refine ⟨accepts_append_of inv.pipe rfl, ?_, reports.input, reports.distinct, inv.phase⟩
    rw [fromInput_append]
    exact (List.append_nil _).trans inv.input
  | @handle event rest outcome running next reads =>
    rw [Client.handle]
    cases ident : event.ident with
    | sockfd => exact inv.socket next outcome
    | fp => exact inv.fp next ident reads

end Steps

theorem inv_of_run {file : List Byte} (nonempty : 0 < file.length) {history : List Call}
    {client : Client} (run : Run (strCli file) history client) : Inv file history client := by
  refine run.invariant (Inv file) ?_ ?_
  · rintro _ _ ⟨rfl, buf, rfl⟩
    refine ⟨rfl, rfl, ?_, List.nodup_nil, .inl ⟨rfl, rfl, nonempty⟩⟩
    exact fun event member => absurd member List.not_mem_nil
  · intro history client calls next inv step
    exact inv.step step

/-! ### The half-close -/

section Results

variable {file : List Byte} {history : List Call} {client : Client}

end Results

end SocketProgram.KqueueClient
