/-
This file shows that the nonblocking `str_cli` does not stall itself. The buffers are never
compacted: a buffer that is full to its end is read into again only once it is drained. So a
buffer that is drained and full would stop its direction for good, and `str_cli` would wait for
nothing.

There is no such buffer. A read that stores something leaves the cursors apart, and a write that
makes them meet puts both back to the beginning: wherever the cursors meet, they are at the
beginning. At every `select` each buffer then has room or has something to write.
-/

import SocketProgram.NonblockClientRuns

namespace SocketProgram.NonblockClient

open Memory Runs Blocks

/-! ### The points of an iteration -/

/-- After `select`. -/
def afterSelect (client : Client) (round : Round) : Block :=
  .next [.select client.sets] ⟨client, round.sets.wsetSockfd, round.sets.wsetStdout⟩

/-- After the block that reads standard input. -/
def afterStdin (client : Client) (round : Round) : Block :=
  (afterSelect client round).andThen (readStdin round)

/-- After the block that reads the socket. -/
def afterSocket (client : Client) (round : Round) : Block :=
  (afterStdin client round).andThen (readSocket round)

/-- After the block that writes standard output. -/
def afterStdout (client : Client) (round : Round) : Block :=
  (afterSocket client round).andThen (writeStdout round)

theorem iterate_eq (client : Client) (round : Round) :
    iterate client round = (afterStdout client round).andThen (writeSocket round) := rfl

/-- What the block behind this one starts from, unless `str_cli` has returned. -/
def passes : Block → List Pass
  | .next _ pass => [pass]
  | .ret _ _ => []

/-- `froptr+=nwritten`: the variables in front of the test whether the cursors meet. -/
def movedStdout (round : Round) (pass : Pass) : List Client :=
  if pass.wsetStdout ∧ pass.client.frBuf.optr < pass.client.frBuf.iptr then
    [{ pass.client with frBuf := pass.client.frBuf.advance round.stdout.count }]
  else []

/-- `tooptr+=nwritten`: the variables in front of the test whether the cursors meet. -/
def movedSocket (round : Round) (pass : Pass) : List Client :=
  if pass.wsetSockfd ∧ pass.client.toBuf.optr < pass.client.toBuf.iptr then
    [{ pass.client with toBuf := pass.client.toBuf.advance round.sockfd.count }]
  else []

/-- The variables at every point of an iteration: behind `select` and behind each of the four
blocks, and within the two that write. -/
def points (client : Client) (round : Round) : List Client :=
  [afterSelect client round, afterStdin client round, afterSocket client round,
      afterStdout client round, iterate client round].map (fun block => (statusAfter block).client)
    ++ (passes (afterSocket client round)).flatMap (movedStdout round)
    ++ (passes (afterStdout client round)).flatMap (movedSocket round)

/-! ### What the blocks keep -/

/-- The pointers are in order and inside their buffers, and are at the beginning where they
meet. -/
structure Kept (client : Client) : Prop extends Sound client where
  toCompact : client.toBuf.Compact
  frCompact : client.frBuf.Compact

section Blocks

variable {history : List Call} {round : Round} {pass : Pass}

/-- How a block keeps the pointers. -/
def Keeps (history : List Call) (block : Block) : Prop :=
  EndsFair (fun _ pass => Kept pass.client) (fun _ client => Kept client) history block

theorem keeps_readStdin (kept : Kept pass.client) : Keeps history (readStdin round pass) := by
  unfold readStdin
  dsimp only
  split_ifs with ready failed hard ended drained <;> intro fair
  · exact kept
  · exact kept
  · exact ⟨⟨kept.toBuf, kept.frBuf⟩, kept.toCompact, kept.frCompact⟩
  · exact ⟨⟨kept.toBuf, kept.frBuf⟩, kept.toCompact, kept.frCompact⟩
  · obtain ⟨bytes, same, nonempty⟩ := ReadOutcome.eq_data_of_value_pos failed ended
    have fits : round.stdin.bytes.length ≤ maxline - pass.client.toBuf.iptr := fair.first
    rw [same] at fits ⊢
    rw [← Window.room_eq kept.toBuf] at fits
    exact ⟨⟨Window.ordered_store kept.toBuf fits, kept.frBuf⟩,
      Window.compact_store kept.toBuf nonempty, kept.frCompact⟩
  · exact kept

theorem keeps_readSocket (kept : Kept pass.client) : Keeps history (readSocket round pass) := by
  unfold readSocket
  dsimp only
  split_ifs with ready failed hard ended normal <;> intro fair
  · exact kept
  · exact kept
  · exact kept
  · exact kept
  · obtain ⟨bytes, same, nonempty⟩ := ReadOutcome.eq_data_of_value_pos failed ended
    have fits : round.socket.bytes.length ≤ maxline - pass.client.frBuf.iptr := fair.first
    rw [same] at fits ⊢
    rw [← Window.room_eq kept.frBuf] at fits
    exact ⟨⟨kept.toBuf, Window.ordered_store kept.frBuf fits⟩, kept.toCompact,
      Window.compact_store kept.frBuf nonempty⟩
  · exact kept

theorem keeps_writeStdout (kept : Kept pass.client) : Keeps history (writeStdout round pass) := by
  unfold writeStdout
  dsimp only
  split_ifs with ready failed hard <;> intro fair
  · exact kept
  · exact kept
  · have fits : round.stdout.count ≤ pass.client.frBuf.pending.length := fair.first
    rw [Window.length_pending kept.frBuf] at fits
    exact ⟨⟨kept.toBuf, Window.ordered_drain kept.frBuf fits⟩, kept.toCompact,
      Window.compact_drain _ _⟩
  · exact kept

/-- Draining the buffer of the socket keeps the pointers. -/
theorem kept_drain (kept : Kept pass.client) {count : Nat}
    (fits : count ≤ pass.client.toBuf.pending.length) :
    Kept { pass.client with toBuf := pass.client.toBuf.drain count } := by
  rw [Window.length_pending kept.toBuf] at fits
  exact ⟨⟨Window.ordered_drain kept.toBuf fits, kept.frBuf⟩, Window.compact_drain _ _,
    kept.frCompact⟩

theorem keeps_writeSocket (kept : Kept pass.client) : Keeps history (writeSocket round pass) := by
  unfold writeSocket
  dsimp only
  split_ifs with ready failed hard last <;> intro fair
  · exact kept
  · exact kept
  · exact kept_drain kept fair.first
  · exact kept_drain kept fair.first
  · exact kept

/-! ### The points of an iteration are kept -/

/-- The events of a block stay when another comes behind it. -/
theorem fair_of_andThen {flow : Block} {block : Pass → Block}
    (fair : Fair (flow.andThen block).events) : Fair flow.events := by
  cases flow with
  | ret calls final => exact fair
  | next calls pass =>
    rw [Flow.andThen] at fair
    cases same : block pass with
    | next more next =>
      rw [same] at fair
      exact fair.of_append
    | ret more final =>
      rw [same] at fair
      exact fair.of_append

theorem Keeps.client {block : Block} (keeps : Keeps [] block) (fair : Fair block.events) :
    Kept (statusAfter block).client := by
  cases block with
  | next calls pass => exact keeps fair
  | ret calls final => exact keeps fair

theorem Keeps.passes {block : Block} (keeps : Keeps [] block) (fair : Fair block.events)
    (member : pass ∈ passes block) : Kept pass.client := by
  cases block with
  | next calls next =>
    obtain rfl := List.mem_singleton.mp member
    exact keeps fair
  | ret calls final => exact absurd member List.not_mem_nil

theorem Keeps.andThen {flow : Block} {block : Pass → Block} (first : Keeps history flow)
    (second : ∀ history pass, Kept pass.client → Keeps history (block pass)) :
    Keeps history (flow.andThen block) :=
  EndsFair.andThen first second

/-- Behind every block of an iteration the pointers are kept. -/
structure KeepsAll (client : Client) (round : Round) : Prop where
  select : Keeps [] (afterSelect client round)
  stdin : Keeps [] (afterStdin client round)
  socket : Keeps [] (afterSocket client round)
  stdout : Keeps [] (afterStdout client round)
  all : Keeps [] (iterate client round)

theorem keepsAll {client : Client} (kept : Kept client) (round : Round) :
    KeepsAll client round := by
  have select : Keeps [] (afterSelect client round) := fun _ => kept
  have stdin : Keeps [] (afterStdin client round) :=
    select.andThen fun _ _ kept => keeps_readStdin kept
  have socket : Keeps [] (afterSocket client round) :=
    stdin.andThen fun _ _ kept => keeps_readSocket kept
  have stdout : Keeps [] (afterStdout client round) :=
    socket.andThen fun _ _ kept => keeps_writeStdout kept
  exact ⟨select, stdin, socket, stdout, stdout.andThen fun _ _ kept => keeps_writeSocket kept⟩

/-- The events of the block behind another belong to both. -/
theorem fair_of_passes {flow : Block} {block : Pass → Block}
    (fair : Fair (flow.andThen block).events) (member : pass ∈ passes flow) :
    Fair (block pass).events := by
  cases flow with
  | ret calls final => exact absurd member List.not_mem_nil
  | next calls next =>
    obtain rfl := List.mem_singleton.mp member
    rw [Flow.andThen] at fair
    cases same : block pass with
    | next more next =>
      rw [same] at fair
      exact fun call member => fair call (List.mem_append_right _ member)
    | ret more final =>
      rw [same] at fair
      exact fun call member => fair call (List.mem_append_right _ member)

/-- Between moving `froptr` and testing it, the pointers are in order. -/
theorem sound_movedStdout (kept : Kept pass.client) (fair : Fair (writeStdout round pass).events)
    {point : Client} (member : point ∈ movedStdout round pass) : Sound point := by
  unfold movedStdout at member
  split_ifs at member with ready
  · obtain rfl := List.mem_singleton.mp member
    have made : Call.writeStdout pass.client.frBuf.pending round.stdout ∈
        (writeStdout round pass).events := by
      unfold writeStdout
      dsimp only
      rw [if_pos ready]
      split_ifs <;> exact List.mem_cons_self
    have fits : round.stdout.count ≤ pass.client.frBuf.pending.length := fair _ made
    rw [Window.length_pending kept.frBuf] at fits
    exact ⟨kept.toBuf, Window.ordered_advance kept.frBuf fits⟩
  · exact absurd member List.not_mem_nil

/-- Between moving `tooptr` and testing it, the pointers are in order. -/
theorem sound_movedSocket (kept : Kept pass.client) (fair : Fair (writeSocket round pass).events)
    {point : Client} (member : point ∈ movedSocket round pass) : Sound point := by
  unfold movedSocket at member
  split_ifs at member with ready
  · obtain rfl := List.mem_singleton.mp member
    have made : Call.writeSocket pass.client.toBuf.pending round.sockfd ∈
        (writeSocket round pass).events := by
      unfold writeSocket
      dsimp only
      rw [if_pos ready]
      split_ifs <;> exact List.mem_cons_self
    have fits : round.sockfd.count ≤ pass.client.toBuf.pending.length := fair _ made
    rw [Window.length_pending kept.toBuf] at fits
    exact ⟨Window.ordered_advance kept.toBuf fits, kept.frBuf⟩
  · exact absurd member List.not_mem_nil

theorem sound_points {client : Client} (kept : Kept client)
    (fair : Fair (iterate client round).events) {point : Client}
    (member : point ∈ points client round) : Sound point := by
  have keeps := keepsAll kept round
  have fairStdout : Fair (afterStdout client round).events := fair_of_andThen fair
  have fairSocket : Fair (afterSocket client round).events := fair_of_andThen fairStdout
  have fairStdin : Fair (afterStdin client round).events := fair_of_andThen fairSocket
  have fairSelect : Fair (afterSelect client round).events := fair_of_andThen fairStdin
  rcases List.mem_append.mp member with member | moved
  · rcases List.mem_append.mp member with member | moved
    · have kept' : ∀ block ∈ [afterSelect client round, afterStdin client round,
          afterSocket client round, afterStdout client round, iterate client round],
          Kept (statusAfter block).client := by
        simp only [List.forall_mem_cons]
        exact ⟨keeps.select.client fairSelect, keeps.stdin.client fairStdin,
          keeps.socket.client fairSocket, keeps.stdout.client fairStdout, keeps.all.client fair,
          fun block member => absurd member List.not_mem_nil⟩
      obtain ⟨block, listed, rfl⟩ := List.mem_map.mp member
      exact (kept' block listed).toSound
    · obtain ⟨pass, reached, moved⟩ := List.mem_flatMap.mp moved
      exact sound_movedStdout (keeps.socket.passes fairSocket reached)
        (fair_of_passes fairStdout reached) moved
  · obtain ⟨pass, reached, moved⟩ := List.mem_flatMap.mp moved
    exact sound_movedSocket (keeps.stdout.passes fairStdout reached)
      (fair_of_passes fair reached) moved

/-! ### The room of the reads -/

theorem mem_readStdin {room : Nat} {outcome : ReadOutcome}
    (member : Call.readStdin room outcome ∈ (readStdin round pass).events) :
    round.sets.rsetStdin = true ∧ room = maxline - pass.client.toBuf.iptr := by
  unfold readStdin at member
  dsimp only at member
  split_ifs at member with ready failed hard ended drained <;> simp_all [Flow.events]

theorem mem_readSocket {room : Nat} {outcome : ReadOutcome}
    (member : Call.readSocket room outcome ∈ (readSocket round pass).events) :
    round.sets.rsetSockfd = true ∧ room = maxline - pass.client.frBuf.iptr := by
  unfold readSocket at member
  dsimp only at member
  split_ifs at member with ready failed hard ended normal <;> simp_all [Flow.events]

/-- Reading standard input leaves the other buffer alone. -/
theorem frBuf_afterStdin {client : Client} (reached : pass ∈ passes (afterStdin client round)) :
    pass.client.frBuf = client.frBuf := by
  unfold afterStdin afterSelect Flow.andThen readStdin at reached
  dsimp only at reached
  split_ifs at reached <;> simp_all [passes]

end Blocks

/-! ### Runs -/

/-- In every run the pointers are kept. -/
theorem kept_of_run {history : List Call} {status : Status} (run : Run strCli history status) :
    Kept status.client := by
  refine run.invariant (fun _ status => Kept status.client) ?_ ?_
  · rintro _ _ ⟨-, toMemory, frMemory, toLength, frLength, rfl⟩
    exact ⟨⟨⟨toLength, le_refl _, Nat.zero_le _⟩, ⟨frLength, le_refl _, Nat.zero_le _⟩⟩,
      fun _ => rfl, fun _ => rfl⟩
  · rintro _ _ _ _ kept ⟨client, round, rfl, -, rfl, possible, rfl⟩
    exact (keepsAll kept round).all.client possible

/-- What `select` waits for: the socket's direction can go on, and so can the one of standard
input unless it has ended and everything is sent. -/
structure Waits (client : Client) : Prop where
  socket : client.sets.rsetSockfd = true ∨ client.sets.wsetStdout = true
  stdin : ¬ (client.stdineof = true ∧ client.toBuf.optr = client.toBuf.iptr) →
    client.sets.rsetStdin = true ∨ client.sets.wsetSockfd = true

/-- What an iteration keeps to: the pointers are in order at all its points, and a read is given
a room that is not zero and ends where its buffer does. -/
structure Steady (client : Client) (round : Round) : Prop where
  sound : ∀ point ∈ points client round, Sound point
  stdinRoom : ∀ pass ∈ passes (afterSelect client round), ∀ room outcome,
    Call.readStdin room outcome ∈ (readStdin round pass).events →
      0 < room ∧ pass.client.toBuf.iptr + room = maxline
  socketRoom : ∀ pass ∈ passes (afterStdin client round), ∀ room outcome,
    Call.readSocket room outcome ∈ (readSocket round pass).events →
      0 < room ∧ pass.client.frBuf.iptr + room = maxline

theorem Kept.waits {client : Client} (kept : Kept client) : Waits client := by
  have positive : 0 < maxline := by decide
  constructor
  · have either := kept.frCompact.room_or_pending positive
    simpa [Client.sets] using either
  · intro goesOn
    have either := kept.toCompact.room_or_pending positive
    cases ended : client.stdineof with
    | false => simpa [Client.sets, ended] using either
    | true =>
      have left : client.toBuf.optr ≠ client.toBuf.iptr := fun met => goesOn ⟨ended, met⟩
      exact .inr (by simpa [Client.sets] using left)

theorem Kept.steady {client : Client} (kept : Kept client) {round : Round}
    (within' : round.sets.Within client.sets) (fair : Fair (iterate client round).events) :
    Steady client round := by
  refine ⟨fun point => sound_points kept fair, ?_, ?_⟩
  · intro pass reached room outcome member
    obtain rfl := List.mem_singleton.mp reached
    obtain ⟨ready, rfl⟩ := mem_readStdin member
    have asked := within'.rsetStdin ready
    rw [Client.sets, Bool.and_eq_true, decide_eq_true_iff] at asked
    show 0 < maxline - client.toBuf.iptr ∧ client.toBuf.iptr + (maxline - client.toBuf.iptr) = _
    omega
  · intro pass reached room outcome member
    obtain ⟨ready, rfl⟩ := mem_readSocket member
    have asked : client.frBuf.iptr < maxline := of_decide_eq_true (within'.rsetSockfd ready)
    rw [frBuf_afterStdin reached]
    omega

/-- `str_cli` does not stall itself. In every run the pointers are in order and inside their
buffers, at the top of the loop and at every point of the iteration that follows; every read has
room, which ends with the buffer; and at every `select` both directions are waited for, save for
that of standard input once it has ended and everything is sent. -/
theorem strCli_never_stalls {history : List Call} {status : Status}
    (run : Run strCli history status) :
    Sound status.client ∧ ∀ client, status = .running client →
      Waits client ∧ ∀ round, round.sets.Within client.sets →
        (∀ call ∈ (iterate client round).events, call.Possible) → Steady client round := by
  have kept := kept_of_run run
  refine ⟨kept.toSound, ?_⟩
  rintro client rfl
  exact ⟨kept.waits, fun round within' fair => kept.steady within' fair⟩

/-- The input has ended, and standard output has not taken what the socket has sent. -/
theorem strCli_never_stalls_eofRound :
    let client := { zeroed with stdineof := true, frBuf := zeroed.frBuf.store [97, 98] }
    Waits client ∧ Steady client endRound := by
  intro client
  obtain ⟨waits, steady⟩ := (strCli_never_stalls run_eofRound_ewouldblock).2 client rfl
  exact ⟨waits, steady endRound ⟨nofun, id, nofun, nofun⟩ (by decide)⟩

end SocketProgram.NonblockClient
