/-
This file is about whole runs of the nonblocking `str_cli`. Every history is one that the
two pipes allow, so each direction keeps its bytes in order, and the FIN is sent once, after
everything else.

What the pipes do not promise is that the socket's direction is empty at the end: on end
of file from the socket `str_cli` returns at once, and what standard output has not taken
is lost. That happens exactly when the last write to standard output came back short.
-/

import SocketProgram.NonblockClient

namespace SocketProgram.NonblockClient

open Memory Runs Blocks

/-! ### What the blocks keep -/

/-- The calls of a history as the environment can answer them. -/
def Fair (history : List Call) : Prop := ∀ call ∈ history, call.Possible

/-- A history as the two pipes allow it, with the variables it leads to. -/
structure Relays (history : List Call) (client : Client) : Prop where
  sound : Sound client
  socket : accepts Pipe.accept Pipe.State.empty (history.flatMap Call.toSocket) =
    some client.socketPipe
  stdout : accepts Pipe.accept Pipe.State.empty (history.flatMap Call.toStdout) =
    some client.stdoutPipe

theorem Relays.moves {history calls : List Call} {client next : Client}
    (relays : Relays history client) (moves : Moves client calls next) :
    Relays (history ++ calls) next := by
  refine ⟨moves.sound, ?_, ?_⟩
  · rw [List.flatMap_append, accepts_append, relays.socket]
    exact moves.socket
  · rw [List.flatMap_append, accepts_append, relays.stdout]
    exact moves.stdout

section Blocks

variable {history : List Call} {round : Round} {pass : Pass}

theorem Fair.first {call : Call} {calls : List Call} (fair : Fair (history ++ call :: calls)) :
    call.Possible :=
  fair call (List.mem_append_right _ List.mem_cons_self)

theorem relays_readStdin (relays : Relays history pass.client)
    (asked : round.sets.rsetStdin = true → pass.client.stdineof = false) :
    (readStdin round pass).Ends (fun history pass => Fair history → Relays history pass.client)
      (fun history client => Fair history → Relays history client) history := by
  unfold readStdin
  dsimp only
  split_ifs with ready failed hard ended drained <;> intro fair
  · obtain ⟨errno, same⟩ := ReadOutcome.eq_error_of_value_neg failed
    rw [same]
    exact relays.moves ((moves_readStdin_failed relays.sound (asked ready) _ errno).unseen
      (.printf _) rfl rfl)
  · obtain ⟨errno, same⟩ := ReadOutcome.eq_error_of_value_neg failed
    rw [same]
    exact relays.moves (moves_readStdin_failed relays.sound (asked ready) _ errno)
  · rw [ReadOutcome.eq_eof_of_value_eq_zero ended]
    exact relays.moves (moves_readStdin_fin relays.sound (asked ready) _ drained)
  · rw [ReadOutcome.eq_eof_of_value_eq_zero ended]
    exact relays.moves (moves_readStdin_eof relays.sound (asked ready) _ drained)
  · obtain ⟨bytes, same, nonempty⟩ := ReadOutcome.eq_data_of_value_pos failed ended
    have fits := fair.first
    rw [same] at fits ⊢
    exact relays.moves (moves_readStdin_data relays.sound (asked ready) nonempty fits)
  · rw [List.append_nil]
    exact relays

theorem relays_readSocket (relays : Relays history pass.client) :
    (readSocket round pass).Ends (fun history pass => Fair history → Relays history pass.client)
      (fun history client => Fair history → Relays history client) history := by
  unfold readSocket
  dsimp only
  split_ifs with ready failed hard ended normal <;> intro fair
  · obtain ⟨errno, same⟩ := ReadOutcome.eq_error_of_value_neg failed
    rw [same]
    exact relays.moves ((moves_readSocket_nothing relays.sound _ rfl).unseen (.printf _) rfl rfl)
  · obtain ⟨errno, same⟩ := ReadOutcome.eq_error_of_value_neg failed
    rw [same]
    exact relays.moves (moves_readSocket_nothing relays.sound _ rfl)
  · rw [ReadOutcome.eq_eof_of_value_eq_zero ended]
    exact relays.moves (moves_readSocket_nothing relays.sound _ rfl)
  · rw [ReadOutcome.eq_eof_of_value_eq_zero ended]
    exact relays.moves ((moves_readSocket_nothing relays.sound _ rfl).unseen (.printf _) rfl rfl)
  · exact relays.moves (moves_readSocket_data relays.sound fair.first)
  · rw [List.append_nil]
    exact relays

theorem relays_writeStdout (relays : Relays history pass.client) :
    (writeStdout round pass).Ends (fun history pass => Fair history → Relays history pass.client)
      (fun history client => Fair history → Relays history client) history := by
  unfold writeStdout
  dsimp only
  split_ifs with ready failed hard <;> intro fair
  · obtain ⟨errno, same⟩ := WriteOutcome.eq_error_of_value_neg failed
    rw [same]
    exact relays.moves ((moves_writeStdout_failed relays.sound errno).unseen (.printf _) rfl rfl)
  · obtain ⟨errno, same⟩ := WriteOutcome.eq_error_of_value_neg failed
    rw [same]
    exact relays.moves (moves_writeStdout_failed relays.sound errno)
  · have fits := fair.first
    rw [WriteOutcome.eq_wrote_of_value_nonneg failed] at fits ⊢
    exact relays.moves (moves_writeStdout_wrote relays.sound fits)
  · rw [List.append_nil]
    exact relays

theorem relays_writeSocket (relays : Relays history pass.client) :
    (writeSocket round pass).Ends (fun history pass => Fair history → Relays history pass.client)
      (fun history client => Fair history → Relays history client) history := by
  unfold writeSocket
  dsimp only
  split_ifs with ready failed hard last <;> intro fair
  · obtain ⟨errno, same⟩ := WriteOutcome.eq_error_of_value_neg failed
    rw [same]
    exact relays.moves ((moves_writeSocket_failed relays.sound ready.2 errno).unseen (.printf _)
      rfl rfl)
  · obtain ⟨errno, same⟩ := WriteOutcome.eq_error_of_value_neg failed
    rw [same]
    exact relays.moves (moves_writeSocket_failed relays.sound ready.2 errno)
  · have fits := fair.first
    rw [WriteOutcome.eq_wrote_of_value_nonneg failed] at fits ⊢
    exact relays.moves (moves_writeSocket_fin relays.sound ready.2 fits last.1 last.2)
  · have fits := fair.first
    rw [WriteOutcome.eq_wrote_of_value_nonneg failed] at fits ⊢
    exact relays.moves (moves_writeSocket_wrote relays.sound ready.2 fits last)
  · rw [List.append_nil]
    exact relays

/-! ### The last write to standard output -/

/-- The writes to standard output: what they were offered and what they took. -/
def stdoutWrites (history : List Call) : List (List Byte × WriteOutcome) :=
  history.filterMap fun call =>
    match call with
    | .writeStdout offered outcome => some (offered, outcome)
    | _ => none

/-- The last write to standard output, if there was one, took all it was offered. -/
def LastWhole (history : List Call) : Prop :=
  ∀ write, (stdoutWrites history).getLast? = some write → write.2.count = write.1.length

/-- Nothing from the socket is left unwritten, unless the last write left it. -/
def Whole (history : List Call) (client : Client) : Prop :=
  client.frBuf.optr = client.frBuf.iptr ↔ LastWhole history

/-- The same in the middle of an iteration: or something is left that will be offered next. -/
def Owing (history : List Call) (pass : Pass) : Prop :=
  Whole history pass.client ∨
    pass.wsetStdout = true ∧ pass.client.frBuf.optr < pass.client.frBuf.iptr

theorem Whole.quiet {client next : Client} (whole : Whole history client) {calls : List Call}
    (same : next.frBuf = client.frBuf) (noWrite : stdoutWrites calls = []) :
    Whole (history ++ calls) next := by
  have writes : stdoutWrites (history ++ calls) = stdoutWrites history := by
    rw [stdoutWrites, List.filterMap_append]
    exact (congrArg (stdoutWrites history ++ ·) noWrite).trans (List.append_nil _)
  rw [Whole, same, LastWhole, writes]
  exact whole

theorem lastWhole_concat {calls : List Call} {write : List Byte × WriteOutcome}
    (oneWrite : stdoutWrites calls = [write]) :
    LastWhole (history ++ calls) ↔ write.2.count = write.1.length := by
  have writes : (stdoutWrites (history ++ calls)).getLast? = some write := by
    rw [stdoutWrites, List.filterMap_append]
    show (stdoutWrites history ++ stdoutWrites calls).getLast? = some write
    rw [oneWrite, List.getLast?_concat]
  rw [LastWhole, writes]
  exact ⟨fun all => all write rfl, fun whole _ same => Option.some.inj same ▸ whole⟩

theorem whole_readStdin (whole : Whole history pass.client) :
    (readStdin round pass).Ends (fun history pass => Whole history pass.client) Whole
      history := by
  unfold readStdin
  dsimp only
  split_ifs <;> exact whole.quiet rfl rfl

theorem whole_writeSocket (whole : Whole history pass.client) :
    (writeSocket round pass).Ends (fun history pass => Whole history pass.client) Whole
      history := by
  unfold writeSocket
  dsimp only
  split_ifs <;> exact whole.quiet rfl rfl

/-- What has just been read from the socket will be offered to standard output. -/
theorem owing_readSocket (sound : Sound pass.client) (whole : Whole history pass.client) :
    (readSocket round pass).Ends Owing Whole history := by
  unfold readSocket
  dsimp only
  split_ifs with ready failed hard ended normal
  · exact whole.quiet rfl rfl
  · exact Or.inl (whole.quiet rfl rfl)
  · exact whole.quiet rfl rfl
  · exact whole.quiet rfl rfl
  · obtain ⟨bytes, same, nonempty⟩ := ReadOutcome.eq_data_of_value_pos failed ended
    have order := sound.frBuf.optr_le
    have some' := List.length_pos_iff.mpr nonempty
    refine Or.inr ⟨rfl, ?_⟩
    show pass.client.frBuf.optr < pass.client.frBuf.iptr + round.socket.bytes.length
    rw [same, ReadOutcome.bytes_data]
    omega
  · exact Or.inl (whole.quiet rfl rfl)

/-- A write to standard output that fails takes nothing of what is left. -/
theorem whole_failed {client : Client} (sound : Sound client)
    (left : client.frBuf.optr < client.frBuf.iptr) {calls : List Call} {errno : Errno}
    (oneWrite : stdoutWrites calls = [(client.frBuf.pending, .error errno)]) :
    Whole (history ++ calls) client := by
  rw [Whole, lastWhole_concat oneWrite]
  show client.frBuf.optr = client.frBuf.iptr ↔ 0 = client.frBuf.pending.length
  rw [Window.length_pending sound.frBuf]
  omega

/-- A write to standard output leaves something exactly when it does not take all. -/
theorem whole_writeStdout (sound : Sound pass.client) (owing : Owing history pass) :
    (writeStdout round pass).Ends (fun history pass => Fair history → Whole history pass.client)
      (fun history client => Fair history → Whole history client) history := by
  unfold writeStdout
  dsimp only
  split_ifs with ready failed hard <;> intro fair
  · obtain ⟨errno, same⟩ := WriteOutcome.eq_error_of_value_neg failed
    exact whole_failed sound ready.2 (by rw [same]; rfl)
  · obtain ⟨errno, same⟩ := WriteOutcome.eq_error_of_value_neg failed
    exact whole_failed sound ready.2 (by rw [same]; rfl)
  · have fits : round.stdout.count ≤ pass.client.frBuf.pending.length := fair.first
    rw [Whole, lastWhole_concat rfl]
    exact Window.drain_met_iff sound.frBuf (Window.length_pending sound.frBuf ▸ fits)
  · exact (owing.resolve_right ready).quiet rfl rfl

/-! ### The whole iteration -/

theorem Fair.of_append {calls : List Call} (fair : Fair (history ++ calls)) : Fair history :=
  fun call member => fair call (List.mem_append_left _ member)

/-- How a block ends in a history the environment can give. -/
def EndsFair (goesOn : List Call → Pass → Prop) (returns : List Call → Client → Prop)
    (history : List Call) (block : Block) : Prop :=
  block.Ends (fun history pass => Fair history → goesOn history pass)
    (fun history client => Fair history → returns history client) history

variable {before goesOn : List Call → Pass → Prop} {returns : List Call → Client → Prop}

/-- A block after another, when the environment can give the history of both. -/
theorem EndsFair.andThen {flow : Block} {block : Pass → Block}
    (first : EndsFair before returns history flow)
    (second : ∀ history pass, before history pass →
      EndsFair goesOn returns history (block pass)) :
    EndsFair goesOn returns history (flow.andThen block) := by
  refine Flow.Ends.andThen first fun history pass kept => ?_
  cases same : block pass with
  | next calls next =>
    intro fair
    have ends := second history pass (kept fair.of_append)
    rw [same] at ends
    exact ends fair
  | ret calls client =>
    intro fair
    have ends := second history pass (kept fair.of_append)
    rw [same] at ends
    exact ends fair

/-- Between blocks: the pipes allow the history, and nothing from the socket is left unless the
last write to standard output left it. -/
structure Settled (history : List Call) (client : Client) : Prop where
  relays : Relays history client
  whole : Whole history client

/-- After the socket has been read: the same, or something will be offered next. -/
structure Unsettled (history : List Call) (pass : Pass) : Prop where
  relays : Relays history pass.client
  owing : Owing history pass

theorem settled_readStdin (round : Round) (settled : Settled history pass.client)
    (asked : round.sets.rsetStdin = true → pass.client.stdineof = false) :
    EndsFair (fun history pass => Settled history pass.client) Settled history
      (readStdin round pass) :=
  ((relays_readStdin settled.relays asked).and (whole_readStdin settled.whole)).imp
    (fun _ _ both fair => ⟨both.1 fair, both.2⟩) fun _ _ both fair => ⟨both.1 fair, both.2⟩

theorem unsettled_readSocket (round : Round) (settled : Settled history pass.client) :
    EndsFair Unsettled Settled history (readSocket round pass) :=
  ((relays_readSocket settled.relays).and
    (owing_readSocket settled.relays.sound settled.whole)).imp
    (fun _ _ both fair => ⟨both.1 fair, both.2⟩) fun _ _ both fair => ⟨both.1 fair, both.2⟩

theorem settled_writeStdout (round : Round) (unsettled : Unsettled history pass) :
    EndsFair (fun history pass => Settled history pass.client) Settled history
      (writeStdout round pass) :=
  ((relays_writeStdout unsettled.relays).and
    (whole_writeStdout unsettled.relays.sound unsettled.owing)).imp
    (fun _ _ both fair => ⟨both.1 fair, both.2 fair⟩)
    fun _ _ both fair => ⟨both.1 fair, both.2 fair⟩

theorem settled_writeSocket (round : Round) (settled : Settled history pass.client) :
    EndsFair (fun history pass => Settled history pass.client) Settled history
      (writeSocket round pass) :=
  ((relays_writeSocket settled.relays).and (whole_writeSocket settled.whole)).imp
    (fun _ _ both fair => ⟨both.1 fair, both.2⟩) fun _ _ both fair => ⟨both.1 fair, both.2⟩

/-- An iteration goes through its four blocks. -/
theorem settled_iterate {client : Client} (settled : Settled history client)
    (within' : round.sets.Within client.sets) :
    EndsFair (fun history pass => Settled history pass.client) Settled history
      (iterate client round) := by
  have asked : round.sets.rsetStdin = true → client.stdineof = false := fun ready => by
    have both := within'.rsetStdin ready
    rw [Client.sets, Bool.and_eq_true] at both
    simpa using both.1
  have selected : EndsFair
      (fun history pass => Settled history pass.client ∧
        (round.sets.rsetStdin = true → pass.client.stdineof = false)) Settled history
      (.next [.select client.sets] ⟨client, round.sets.wsetSockfd, round.sets.wsetStdout⟩) :=
    fun _ => ⟨⟨settled.relays.moves ((Moves.refl settled.relays.sound).unseen _ rfl rfl),
      settled.whole.quiet rfl rfl⟩, asked⟩
  have first := selected.andThen fun _ _ kept => settled_readStdin round kept.1 kept.2
  have second := first.andThen fun _ _ kept => unsettled_readSocket round kept
  have third := second.andThen fun _ _ kept => settled_writeStdout round kept
  exact third.andThen fun _ _ kept => settled_writeSocket round kept

end Blocks

/-! ### Runs -/

theorem settled_of_run {history : List Call} {status : Status}
    (run : Run strCli history status) : Fair history ∧ Settled history status.client := by
  refine run.invariant (fun history status => Fair history ∧ Settled history status.client) ?_ ?_
  · rintro _ _ ⟨rfl, toMemory, frMemory, toLength, frLength, rfl⟩
    refine ⟨fun _ member => absurd member List.not_mem_nil, ⟨⟨?_, ?_⟩, rfl, rfl⟩, ?_⟩
    · exact ⟨toLength, le_refl _, Nat.zero_le _⟩
    · exact ⟨frLength, le_refl _, Nat.zero_le _⟩
    · exact iff_of_true rfl nofun
  · rintro history _ _ _ ⟨fair, settled⟩ ⟨client, round, rfl, within', rfl, possible, rfl⟩
    have fair' : Fair (history ++ (iterate client round).events) := fun call member =>
      (List.mem_append.mp member).elim (fair call) (possible call)
    have ends : EndsFair _ _ history (iterate client round) := settled_iterate settled within'
    cases same : iterate client round with
    | next calls pass =>
      rw [same] at ends fair'
      exact ⟨fair', ends fair'⟩
    | ret calls final =>
      rw [same] at ends fair'
      exact ⟨fair', ends fair'⟩

theorem run_iterate {history : List Call} {client : Client} {status : Status} (round : Round)
    (run : Run strCli history (.running client)) (within' : round.sets.Within client.sets)
    (possible : ∀ call ∈ (iterate client round).events, call.Possible)
    (same : statusAfter (iterate client round) = status) :
    Run strCli (history ++ (iterate client round).events) status :=
  Run.step run ⟨client, round, rfl, within', rfl, possible, same.symm⟩

/-! ### What the events of the pipes say about the calls -/

theorem entered_toSocket (history : List Call) :
    (history.flatMap Call.toSocket).flatMap Pipe.Event.entered = stdinBytes history := by
  refine Pipe.flatMap_letters (fun call => ?_) history
  cases call with
  | readStdin room outcome =>
    cases outcome with
    | data bytes => cases bytes <;> simp [Call.toSocket, Pipe.Event.entered]
    | error errno => rfl
  | _ => rfl

theorem left_toSocket (history : List Call) :
    (history.flatMap Call.toSocket).flatMap Pipe.Event.left = toSocketBytes history := by
  refine Pipe.flatMap_letters (fun call => ?_) history
  cases call with
  | readStdin room outcome =>
    cases outcome with
    | data bytes => cases bytes <;> rfl
    | error errno => rfl
  | writeSocket offered outcome => simp [Call.toSocket, Pipe.Event.left]
  | _ => rfl

theorem entered_toStdout (history : List Call) :
    (history.flatMap Call.toStdout).flatMap Pipe.Event.entered = fromSocketBytes history := by
  refine Pipe.flatMap_letters (fun call => ?_) history
  cases call with
  | readSocket room outcome => simp [Call.toStdout, Pipe.Event.entered]
  | _ => rfl

theorem left_toStdout (history : List Call) :
    (history.flatMap Call.toStdout).flatMap Pipe.Event.left = stdoutBytes history := by
  refine Pipe.flatMap_letters (fun call => ?_) history
  cases call with
  | writeStdout offered outcome => simp [Call.toStdout, Pipe.Event.left]
  | _ => rfl

/-- The end of the input is a read of no bytes. -/
theorem ended_mem_toSocket {history : List Call}
    (ended : Pipe.Event.ended ∈ history.flatMap Call.toSocket) :
    ∃ room, Call.readStdin room (.data []) ∈ history := by
  obtain ⟨call, member, ended⟩ := List.mem_flatMap.mp ended
  cases call with
  | readStdin room outcome =>
    cases outcome with
    | data bytes =>
      cases bytes with
      | nil => exact ⟨room, member⟩
      | cons byte bytes => simp [Call.toSocket] at ended
    | error errno => simp [Call.toSocket] at ended
  | _ => simp [Call.toSocket] at ended

/-- A close is a call of `shutdown`. -/
theorem close_mem_toSocket {history : List Call}
    (closed : Pipe.Event.close ∈ history.flatMap Call.toSocket) : Call.shutdown ∈ history := by
  obtain ⟨call, member, closed⟩ := List.mem_flatMap.mp closed
  cases call with
  | shutdown => exact member
  | readStdin room outcome =>
    cases outcome with
    | data bytes => cases bytes <;> simp [Call.toSocket] at closed
    | error errno => simp [Call.toSocket] at closed
  | _ => simp [Call.toSocket] at closed

/-! ### The results -/

theorem relayed_toSocket {history : List Call} {client : Client}
    (relays : Relays history client) :
    stdinBytes history = toSocketBytes history ++ client.toBuf.pending := by
  rw [← entered_toSocket, ← left_toSocket]
  exact Pipe.conserved relays.socket

theorem relayed_toStdout {history : List Call} {client : Client}
    (relays : Relays history client) :
    fromSocketBytes history = stdoutBytes history ++ client.frBuf.pending := by
  rw [← entered_toStdout, ← left_toStdout]
  exact Pipe.conserved relays.stdout

/-- At the top of every iteration, each direction is a queue: what was read is what was
written followed by what the buffer holds. -/
theorem str_cli_relays_in_order {history : List Call} {client : Client}
    (run : Run strCli history (.running client)) :
    stdinBytes history = toSocketBytes history ++ client.toBuf.pending ∧
      fromSocketBytes history = stdoutBytes history ++ client.frBuf.pending :=
  have relays := (settled_of_run run).2.relays
  ⟨relayed_toSocket relays, relayed_toStdout relays⟩

/-- A run in which the first iteration reads a byte from each side, standard output is not
ready for its byte and the socket takes the other. -/
def firstRound : Round where
  sets := ⟨true, true, false, false⟩
  stdin := .data [97]
  socket := .data [98]
  stdout := .error .ewouldblock
  sockfd := .wrote 1

/-- The variables at the first iteration, with zeros in the buffers. -/
def zeroed : Client := Client.initial (List.replicate maxline 0) (List.replicate maxline 0)

theorem run_zeroed : Run strCli [] (.running zeroed) :=
  .start ⟨rfl, _, _, List.length_replicate, List.length_replicate, rfl⟩

theorem run_firstRound : Run strCli
    ([] ++ [.select ⟨true, true, false, false⟩, .readStdin 4096 (.data [97]),
      .readSocket 4096 (.data [98]), .writeStdout [98] (.error .ewouldblock),
      .writeSocket [97] (.wrote 1)])
    (.running { zeroed with
      toBuf := (zeroed.toBuf.store [97]).drain 1, frBuf := zeroed.frBuf.store [98] }) :=
  run_iterate firstRound run_zeroed ⟨id, id, id, id⟩ (by decide) rfl

theorem str_cli_relays_in_order_firstRound :
    [97] = [97] ++ ((zeroed.toBuf.store [97]).drain 1).pending ∧
      [98] = [] ++ (zeroed.frBuf.store [98]).pending :=
  str_cli_relays_in_order run_firstRound

/-- A call the socket's pipe does not see neither ends, reads nor writes on that side. -/
theorem ne_of_toSocket_eq_nil {call : Call} (unseen : call.toSocket = []) :
    call ≠ .shutdown ∧ (∀ offered outcome, call ≠ .writeSocket offered outcome) ∧
      ∀ room outcome, call ≠ .readStdin room outcome := by
  refine ⟨?_, ?_, ?_⟩
  · rintro rfl
    cases unseen
  · rintro offered outcome rfl
    cases unseen
  · rintro room outcome rfl
    cases outcome with
    | data bytes => cases bytes <;> cases unseen
    | error errno => cases unseen

/-- The FIN in a history: sent at most once, after the end of standard input and after all that
was read from there, and neither the socket is written nor standard input read after it. -/
structure FinOnceAndLast (history : List Call) : Prop where
  once : history.count .shutdown ≤ 1
  last : ∀ before after, history = before ++ .shutdown :: after →
    (∃ room, .readStdin room (.data []) ∈ before) ∧
      stdinBytes before = toSocketBytes before ∧
      ∀ call ∈ after, (∀ offered outcome, call ≠ .writeSocket offered outcome) ∧
        ∀ room outcome, call ≠ .readStdin room outcome

/-- What the closing law of the pipe says about a `shutdown`. -/
theorem shutdown_last {before after : List Call} {client : Client}
    (relays : Relays (before ++ .shutdown :: after) client) :
    (∃ room, .readStdin room (.data []) ∈ before) ∧ stdinBytes before = toSocketBytes before ∧
      ∀ call ∈ after, call.toSocket = [] := by
  obtain ⟨ended, drained, unseen⟩ := Pipe.close_last_flatMap Call.toSocket rfl relays.socket
  rw [entered_toSocket, left_toSocket] at drained
  exact ⟨ended_mem_toSocket ended, drained, unseen⟩

theorem finOnceAndLast_of_relays {history : List Call} {client : Client}
    (relays : Relays history client) : FinOnceAndLast history := by
  refine ⟨Pipe.count_close_le_one Call.toSocket rfl relays.socket, fun before after same => ?_⟩
  obtain ⟨ended, drained, unseen⟩ := shutdown_last (same ▸ relays)
  exact ⟨ended, drained, fun call member => (ne_of_toSocket_eq_nil (unseen call member)).2⟩

/-- In every run the FIN is sent at most once, and last on its side, and at the top of an
iteration it has been sent if the input has ended and the buffer is empty. -/
theorem str_cli_sends_fin_once {history : List Call} {status : Status}
    (run : Run strCli history status) :
    FinOnceAndLast history ∧ ∀ client, status = .running client → client.stdineof = true →
      client.toBuf.optr = client.toBuf.iptr → .shutdown ∈ history := by
  have relays := (settled_of_run run).2.relays
  refine ⟨finOnceAndLast_of_relays relays, ?_⟩
  rintro client rfl ended drained
  refine close_mem_toSocket (Pipe.close_mem_of_accepts relays.socket ?_)
  show (client.stdineof && decide (client.toBuf.optr = client.toBuf.iptr)) = true
  rw [ended, decide_eq_true drained]
  rfl

/-- The input ends at once; what the socket sends, standard output takes in the same iteration
or does not. -/
def eofRound (stdout : WriteOutcome) : Round where
  sets := ⟨true, true, false, false⟩
  stdin := .data []
  socket := .data [97, 98]
  stdout := stdout
  sockfd := .error .ewouldblock

/-- The calls of that iteration. -/
def eofCalls (stdout : WriteOutcome) : List Call :=
  [.select ⟨true, true, false, false⟩, .readStdin 4096 (.data []), .shutdown,
    .readSocket 4096 (.data [97, 98]), .writeStdout [97, 98] stdout]

theorem run_eofRound_ewouldblock : Run strCli (eofCalls (.error .ewouldblock))
    (.running { zeroed with stdineof := true, frBuf := zeroed.frBuf.store [97, 98] }) := by
  have run := run_iterate (eofRound (.error .ewouldblock)) run_zeroed ⟨id, id, id, id⟩ (by decide)
    rfl
  exact run

theorem str_cli_sends_fin_once_eofRound :
    FinOnceAndLast (eofCalls (.error .ewouldblock)) ∧
      Call.shutdown ∈ eofCalls (.error .ewouldblock) :=
  ⟨(str_cli_sends_fin_once run_eofRound_ewouldblock).1,
    (str_cli_sends_fin_once run_eofRound_ewouldblock).2 _ rfl rfl rfl⟩

/-! ### The return on end of file from the socket -/

/-- `str_cli` returned because it read end of file from the socket, as the normal termination
or as the premature one. -/
def EofOnSocket (history : List Call) : Prop :=
  ∃ before room, history = before ++ [.readSocket room (.data [])] ∨
    history = before ++ [.readSocket room (.data []),
      .printf "str_cli: server terminated prematurely\n"]

/-- When `str_cli` returns, on end of file from the socket or otherwise, everything it read from
the socket has been written to standard output exactly when the last write there took all it
was offered. -/
theorem str_cli_returns_drained_iff {history : List Call} {client : Client}
    (run : Run strCli history (.returned client)) :
    (client.frBuf.optr = client.frBuf.iptr ↔ LastWhole history) ∧
      (fromSocketBytes history = stdoutBytes history ↔ LastWhole history) := by
  have settled : Settled history client := (settled_of_run run).2
  refine ⟨settled.whole, ?_⟩
  rw [relayed_toStdout settled.relays, List.append_right_eq_self,
    Window.pending_eq_nil_iff settled.relays.sound.frBuf]
  exact settled.whole

/-- Nothing but end of file from the socket. -/
def endRound : Round where
  sets := ⟨false, true, false, false⟩
  stdin := .error .ewouldblock
  socket := .data []
  stdout := .error .ewouldblock
  sockfd := .error .ewouldblock

theorem run_eofRound_wrote : Run strCli (eofCalls (.wrote 2))
    (.running { zeroed with
      stdineof := true, frBuf := (zeroed.frBuf.store [97, 98]).drain 2 }) := by
  have run := run_iterate (eofRound (.wrote 2)) run_zeroed ⟨id, id, id, id⟩ (by decide) rfl
  exact run

/-- The calls when end of file comes after standard output has taken everything. -/
def drainedCalls : List Call :=
  eofCalls (.wrote 2) ++ [.select ⟨false, true, false, false⟩, .readSocket 4096 (.data [])]

theorem run_endRound_wrote : Run strCli drainedCalls
    (.returned { zeroed with
      stdineof := true, frBuf := (zeroed.frBuf.store [97, 98]).drain 2 }) :=
  run_iterate endRound run_eofRound_wrote ⟨nofun, id, nofun, nofun⟩ (by decide) rfl

theorem str_cli_returns_drained_iff_wrote :
    (((zeroed.frBuf.store [97, 98]).drain 2).optr = ((zeroed.frBuf.store [97, 98]).drain 2).iptr ↔
      LastWhole drainedCalls) ∧
    (fromSocketBytes drainedCalls = stdoutBytes drainedCalls ↔ LastWhole drainedCalls) :=
  str_cli_returns_drained_iff run_endRound_wrote

/-- The calls when it comes before standard output has taken anything. -/
def lostCalls : List Call :=
  eofCalls (.error .ewouldblock) ++
    [.select ⟨false, true, false, true⟩, .readSocket 4094 (.data [])]

theorem run_endRound_ewouldblock : Run strCli lostCalls
    (.returned { zeroed with stdineof := true, frBuf := zeroed.frBuf.store [97, 98] }) :=
  run_iterate endRound run_eofRound_ewouldblock ⟨nofun, id, nofun, nofun⟩ (by decide) rfl

theorem eofOnSocket_lostCalls : EofOnSocket lostCalls := by
  refine ⟨eofCalls (.error .ewouldblock) ++ [.select ⟨false, true, false, true⟩], 4094, Or.inl ?_⟩
  rw [List.append_assoc]
  rfl

/-- What standard output does not take at first is lost when end of file comes next, although
the input has ended and the FIN has been sent. -/
theorem not_str_cli_returns_drained :
    ¬ ∀ history client, Run strCli history (.returned client) → EofOnSocket history →
      client.frBuf.optr = client.frBuf.iptr := by
  intro drained
  have met := drained _ _ run_endRound_ewouldblock eofOnSocket_lostCalls
  cases met

end SocketProgram.NonblockClient
