/-
This file is about the bytes that the echo server of `tcpservselect01.c` sends back. Its
iterations make their system calls one after the other, and `written` makes as many calls of
`write` as it needs. What has been written to a connection can therefore be behind what has
been read from it, but only while a call of `written` is in progress, or is about to start.

All clients share one buffer. Therefore the bytes of a connection stay a beginning of what was
read from it because `written` is called with the length that `read` returned, before anything
else is read. The length is not checked. When `read` fails it is `-1`, which `written` takes for
a size beyond anything that `write` accepts: its first `write` fails, and nothing is sent.
-/

import SocketProgram.SelectServerScan
import SocketProgram.WrittenLaw

namespace SocketProgram.SelectServer

open Memory Runs Source

variable {fdSetSize : Nat}

/-! ### One call at a time -/

/-- What happens: a call of an iteration, or one `write` inside `written`, with the bytes it
has sent. -/
inductive Event
  | call (call : Call)
  | write (fd : Int) (sent : List Byte)
  deriving DecidableEq, Repr

/-- Where the server is: at the top of its loop, inside an iteration with the calls that it has
still to make, or inside one of its calls of `written`. -/
inductive Moment (fdSetSize : Nat)
  | top (server : Server fdSetSize)
  | within (calls : List Call) (ending : Outcome fdSetSize)
  | writing (fd : Int) (buf : List Byte) (n : Nat) (frame : WrittenFrame) (calls : List Call)
      (ending : Outcome fdSetSize)

/-- A call of `written` has come so far. -/
def Moment.proceed (fd : Int) (buf : List Byte) (n : Nat) (calls : List Call)
    (ending : Outcome fdSetSize) : Int ⊕ WrittenFrame → Moment fdSetSize
  | .inl _ => .within calls ending
  | .inr frame => .writing fd buf n frame calls ending

/-- What a `write` of this size does: it takes some of what it is offered or is interrupted, and it
fails if the size is beyond `SSIZE_MAX`, where the buffer cannot reach. -/
inductive Writes (size : Nat) (offered : List Byte) : WriteOutcome → List Byte → Prop
  | taken {outcome : WriteOutcome} {sent : List Byte} (fits : size ≤ ssizeMax)
      (writes : ChannelWrite offered [] outcome sent) : Writes size offered outcome sent
  | tooLarge {errno : Errno} (large : ssizeMax < size) (hard : errno ≠ .eintr) :
      Writes size offered (.error errno) []

/-- One step. `beyond` is the memory behind `buf`. -/
inductive Step (listenfd : Int) (beyond : List Byte) :
    Moment fdSetSize → List Event → Moment fdSetSize → Prop
  | iterate {server : Server fdSetSize} {round : Round fdSetSize}
      (possible : round.Possible listenfd server) :
      Step listenfd beyond (.top server) []
        (.within (server.iterate listenfd round).1 (server.iterate listenfd round).2)
  | call {call : Call} {calls : List Call} {ending : Outcome fdSetSize}
      (other : ∀ fd buf n, call ≠ .written fd buf n) :
      Step listenfd beyond (.within (call :: calls) ending) [.call call] (.within calls ending)
  | written {fd : Int} {buf : List Byte} {n : Nat} {calls : List Call}
      {ending : Outcome fdSetSize} :
      Step listenfd beyond (.within (.written fd buf n :: calls) ending)
        [.call (.written fd buf n)]
        (.proceed fd buf n calls ending ((written n).test (.enter n)))
  | write {fd : Int} {buf : List Byte} {n : Nat} {frame : WrittenFrame} {calls : List Call}
      {ending : Outcome fdSetSize} {outcome : WriteOutcome} {sent : List Byte}
      (writes : Writes frame.nleft (frame.offered (buf ++ beyond)) outcome sent) :
      Step listenfd beyond (.writing fd buf n frame calls ending) [.write fd sent]
        (.proceed fd buf n calls ending ((written n).round outcome frame))
  | again {server : Server fdSetSize} :
      Step listenfd beyond (.within [] (.continues server)) [] (.top server)

/-- The server on this listening socket, from one system call to the next. -/
def echoServer (fdSetSize : Nat) (listenfd : Int) (beyond : List Byte) :
    System (Moment fdSetSize) Event where
  start history moment := history = [.call (.fdSet listenfd)] ∧
    ∃ allset buf, FdSet.zero.set? listenfd = some allset ∧
      moment = .top (Server.initial listenfd allset buf)
  step := Step listenfd beyond

/-- What has been read from the connection on this descriptor. -/
def readFrom (fd : Int) (history : List Event) : List Byte :=
  history.foldl (fun bytes event =>
    match event with
    | .call (.accept connfd) => if connfd = fd then [] else bytes
    | .call (.read sockfd outcome) => if sockfd = fd then bytes ++ outcome.bytes else bytes
    | _ => bytes) []

/-- What has been written to the connection on this descriptor. -/
def writtenTo (fd : Int) (history : List Event) : List Byte :=
  history.foldl (fun bytes event =>
    match event with
    | .call (.accept connfd) => if connfd = fd then [] else bytes
    | .write sockfd sent => if sockfd = fd then bytes ++ sent else bytes
    | _ => bytes) []

/-! ### The calls of an iteration -/

/-- A call that neither reads nor writes any bytes. -/
def Call.Silent : Call → Prop
  | .read _ outcome => outcome = .data []
  | .written _ _ _ => False
  | _ => True

/-- Calls in which what is read is written back before anything else is read, and a `read` that
fails is followed by an attempt to write more than can be written. -/
inductive Echoes : List Call → Prop
  | nil : Echoes []
  | silent {call : Call} {calls : List Call} (silent : call.Silent) (rest : Echoes calls) :
      Echoes (call :: calls)
  | echo {fd : Int} {bytes buf : List Byte} {n : Nat} {calls : List Call}
      (whole : ∀ beyond : List Byte, (buf ++ beyond).take n = bytes) (fits : n ≤ ssizeMax)
      (rest : Echoes calls) :
      Echoes (.read fd (.data bytes) :: .written fd buf n :: calls)
  | failed {fd : Int} {errno : Errno} {buf : List Byte} {n : Nat} {calls : List Call}
      (large : ssizeMax < n) (rest : Echoes calls) :
      Echoes (.read fd (.error errno) :: .written fd buf n :: calls)

/-- A length that `read` returned is the size that `written` takes it for. -/
theorem sizeOfSsize_natCast {n : Nat} (fits : n ≤ maxline) : sizeOfSsize n = n := by
  unfold sizeOfSsize
  unfold maxline at fits
  omega

/-- The value of a `read` that failed is not a size. -/
theorem ssizeMax_lt_sizeOfSsize : ssizeMax < sizeOfSsize (-1) := by decide

/-- What the server does with one descriptor that is ready. -/
theorem serve_echoes (server : Server fdSetSize) (i : Fin fdSetSize) {outcome : ReadOutcome}
    (fits : outcome.Fits maxline) {calls : List Call} (rest : Echoes calls) :
    Echoes ((server.serve i outcome).1 ++ calls) := by
  unfold Server.serve
  dsimp only
  cases outcome with
  | error errno =>
    rw [ReadOutcome.value_error, if_neg (by decide)]
    exact .failed ssizeMax_lt_sizeOfSsize rest
  | data bytes =>
    split_ifs with ended
    · have nothing := ReadOutcome.eq_eof_of_value_eq_zero ended
      exact .silent nothing (.silent True.intro (.silent True.intro rest))
    · have size : sizeOfSsize bytes.length = bytes.length := sizeOfSsize_natCast fits
      have few : bytes.length ≤ ssizeMax := fits.trans (by decide)
      rw [ReadOutcome.value_data, ReadOutcome.bytes_data, size]
      refine .echo (fun beyond => ?_) few rest
      rw [overwrite_zero, List.append_assoc]
      exact List.take_left

theorem scan_echoes {round : Round fdSetSize} (fits : ∀ i, (round.read i).Fits maxline)
    (slots : List (Fin fdSetSize)) (nready : Int) (server : Server fdSetSize) :
    Echoes (scan round slots nready server).1 := by
  induction slots generalizing nready server with
  | nil => exact .nil
  | cons i slots inductionHypothesis =>
    rw [scan]
    split_ifs with free ready last
    · exact inductionHypothesis nready server
    · have served := serve_echoes server i (fits i) .nil
      rw [List.append_nil] at served
      exact served
    · exact serve_echoes server i (fits i) (inductionHypothesis _ _)
    · exact inductionHypothesis nready server

theorem iterate_echoes {listenfd : Int} {server : Server fdSetSize} {round : Round fdSetSize}
    (possible : round.Possible listenfd server) :
    Echoes (server.iterate listenfd round).1 := by
  have scans : ∀ slots nready (server : Server fdSetSize),
      Echoes (scan round slots nready server).1 := scan_echoes possible.read
  have ways := iterates listenfd server round
  generalize (server.iterate listenfd round).2 = ending at ways
  generalize (server.iterate listenfd round).1 = calls at ways ⊢
  cases ways with
  | scanned quiet => exact .silent True.intro (scans _ _ _)
  | full listening full =>
    exact .silent True.intro (.silent True.intro (.silent True.intro .nil))
  | undefined listening free outside =>
    exact .silent True.intro (.silent True.intro (.silent True.intro .nil))
  | accepted listening free isSet last =>
    exact .silent True.intro (.silent True.intro (.silent True.intro .nil))
  | both listening free isSet more =>
    exact .silent True.intro (.silent True.intro (.silent True.intro (scans _ _ _)))

/-! ### What has been read and what has been written -/

/-- What the server has read from a connection and not written back yet. -/
inductive Owes (beyond : List Byte) : Moment fdSetSize → (Int → List Byte) → Prop
  | top {server : Server fdSetSize} : Owes beyond (.top server) fun _ => []
  | within {calls : List Call} {ending : Outcome fdSetSize} (echoes : Echoes calls) :
      Owes beyond (.within calls ending) fun _ => []
  | echo {fd : Int} {buf : List Byte} {n : Nat} {calls : List Call} {ending : Outcome fdSetSize}
      (echoes : Echoes calls) (fits : n ≤ ssizeMax) :
      Owes beyond (.within (.written fd buf n :: calls) ending)
        (Function.update (fun _ => []) fd ((buf ++ beyond).take n))
  | writing {fd : Int} {buf : List Byte} {n : Nat} {frame : WrittenFrame} {calls : List Call}
      {ending : Outcome fdSetSize} (echoes : Echoes calls) (fits : frame.nleft ≤ ssizeMax) :
      Owes beyond (.writing fd buf n frame calls ending)
        (Function.update (fun _ => []) fd (frame.offered (buf ++ beyond)))
  | failed {fd : Int} {buf : List Byte} {n : Nat} {calls : List Call}
      {ending : Outcome fdSetSize} (echoes : Echoes calls) (large : ssizeMax < n) :
      Owes beyond (.within (.written fd buf n :: calls) ending) fun _ => []
  | failing {fd : Int} {buf : List Byte} {n : Nat} {frame : WrittenFrame} {calls : List Call}
      {ending : Outcome fdSetSize} (echoes : Echoes calls) (large : ssizeMax < frame.nleft) :
      Owes beyond (.writing fd buf n frame calls ending) fun _ => []

/-- What has been read from a connection is what has been written to it and what is owed. -/
def Balanced (history : List Event) (owed : Int → List Byte) : Prop :=
  ∀ fd, readFrom fd history = writtenTo fd history ++ owed fd

theorem balanced_call {history : List Event} {call : Call} (silent : call.Silent)
    (balanced : Balanced history fun _ => []) :
    Balanced (history ++ [.call call]) fun _ => [] := by
  intro fd
  have before := balanced fd
  rw [List.append_nil] at before ⊢
  unfold readFrom writtenTo at before ⊢
  rw [List.foldl_append, List.foldl_append, before]
  cases call with
  | read sockfd outcome =>
    obtain rfl : outcome = .data [] := silent
    show (if sockfd = fd then _ ++ [] else _) = _
    rw [List.append_nil, ite_self]
    rfl
  | written sockfd buf n => exact silent.elim
  | _ => rfl

theorem balanced_read {history : List Event} (fd : Int) (bytes : List Byte)
    (balanced : Balanced history fun _ => []) :
    Balanced (history ++ [.call (.read fd (.data bytes))])
      (Function.update (fun _ => []) fd bytes) := by
  intro other
  have before := balanced other
  rw [List.append_nil] at before
  unfold readFrom writtenTo at before ⊢
  rw [List.foldl_append, List.foldl_append, before, Function.update_apply]
  show (if fd = other then _ ++ bytes else _) = _ ++ if other = fd then bytes else []
  by_cases same : fd = other
  · rw [if_pos same, if_pos same.symm]
    rfl
  · rw [if_neg same, if_neg (Ne.symm same), List.append_nil]
    rfl

theorem balanced_failed {history : List Event} (fd : Int) (errno : Errno) {owed : Int → List Byte}
    (balanced : Balanced history owed) :
    Balanced (history ++ [.call (.read fd (.error errno))]) owed := by
  intro other
  have before := balanced other
  unfold readFrom writtenTo at before ⊢
  rw [List.foldl_append, List.foldl_append]
  show (if fd = other then _ ++ [] else _) = _
  rw [List.append_nil, ite_self]
  exact before

theorem balanced_written {history : List Event} (fd : Int) (buf : List Byte) (n : Nat)
    {owed : Int → List Byte} (balanced : Balanced history owed) :
    Balanced (history ++ [.call (.written fd buf n)]) owed := by
  intro other
  have before := balanced other
  unfold readFrom writtenTo at before ⊢
  rw [List.foldl_append, List.foldl_append]
  exact before

theorem balanced_write {history : List Event} (fd : Int) {sent offered left : List Byte}
    (split : sent ++ left = offered)
    (balanced : Balanced history (Function.update (fun _ => []) fd offered)) :
    Balanced (history ++ [.write fd sent]) (Function.update (fun _ => []) fd left) := by
  intro other
  have before := balanced other
  rw [Function.update_apply] at before ⊢
  unfold readFrom writtenTo at before ⊢
  rw [List.foldl_append, List.foldl_append]
  show _ = (if fd = other then _ ++ sent else _) ++ _
  by_cases same : fd = other
  · rw [if_pos same.symm, ← split, ← List.append_assoc] at before
    rw [if_pos same, if_pos same.symm]
    exact before
  · rw [if_neg (Ne.symm same)] at before
    rw [if_neg same, if_neg (Ne.symm same)]
    exact before

/-- Nothing is owed when nothing is left to write. -/
theorem update_nil (fd : Int) :
    Function.update (fun _ : Int => ([] : List Byte)) fd [] = fun _ => [] :=
  Function.update_eq_self fd _

/-- Starting a call of `written`, and each `write` of it, goes on owing what is left. -/
theorem owes_proceed {beyond : List Byte} (fd : Int) (buf : List Byte) (n : Nat)
    {calls : List Call} (ending : Outcome fdSetSize) (echoes : Echoes calls)
    {progress : Int ⊕ WrittenFrame}
    (fits : ∀ frame, progress = .inr frame → frame.nleft ≤ ssizeMax) :
    Owes beyond (.proceed fd buf n calls ending progress)
      (Function.update (fun _ => []) fd (owed (buf ++ beyond) progress)) := by
  cases progress with
  | inl value =>
    rw [owed, update_nil]
    exact .within echoes
  | inr frame => exact .writing echoes (fits frame rfl)

/-- One step keeps the account. -/
theorem Owes.step {listenfd : Int} {beyond : List Byte} {history events : List Event}
    {moment next : Moment fdSetSize} {due : Int → List Byte} (owes : Owes beyond moment due)
    (balanced : Balanced history due) (steps : Step listenfd beyond moment events next) :
    ∃ due', Owes beyond next due' ∧ Balanced (history ++ events) due' := by
  cases steps with
  | iterate possible =>
    cases owes
    rw [List.append_nil]
    exact ⟨_, .within (iterate_echoes possible), balanced⟩
  | @call call calls ending other =>
    cases owes with
    | within echoes =>
      cases echoes with
      | silent silent rest => exact ⟨_, .within rest, balanced_call silent balanced⟩
      | @echo fd bytes buf n _ whole fits rest =>
        refine ⟨_, .echo rest fits, ?_⟩
        rw [whole beyond]
        exact balanced_read fd bytes balanced
      | failed large rest => exact ⟨_, .failed rest large, balanced_failed _ _ balanced⟩
    | @echo fd buf n _ _ echoes => exact absurd rfl (other fd buf n)
    | @failed fd buf n _ _ echoes => exact absurd rfl (other fd buf n)
  | @written fd buf n calls ending =>
    cases owes with
    | within echoes =>
      cases echoes with
      | silent silent rest => exact silent.elim
    | echo echoes fits =>
      refine ⟨_, owes_proceed fd buf n ending echoes fun frame entered => ?_, ?_⟩
      · exact (nleft_of_test entered).trans_le fits
      · rw [owed_test]
        exact balanced_written fd buf n balanced
    | failed echoes large =>
      have goes : (written n).test (.enter n) = .inr (.enter n) :=
        Text.test_more (decide_eq_true ((Nat.zero_le _).trans_lt large))
      rw [goes]
      exact ⟨_, .failing echoes large, balanced_written fd buf n balanced⟩
  | @write fd buf n frame calls ending outcome sent writes =>
    cases owes with
    | writing echoes fits =>
      cases writes with
      | taken _ writes =>
        refine ⟨_, owes_proceed fd buf n ending echoes fun next goes => ?_,
          balanced_write fd (owed_round n writes) balanced⟩
        exact (nleft_le_of_round goes).trans fits
      | tooLarge large hard => exact absurd fits (Nat.not_le.mpr large)
    | failing echoes large =>
      cases writes with
      | taken fits writes => exact absurd fits (Nat.not_le.mpr large)
      | tooLarge _ hard =>
        rw [written_round_fails n frame ⟨rfl, fun same => hard (WriteOutcome.error.inj same)⟩]
        refine ⟨_, .within echoes, ?_⟩
        rw [← update_nil fd] at balanced ⊢
        exact balanced_write fd rfl balanced
  | again =>
    cases owes with
    | within echoes =>
      rw [List.append_nil]
      exact ⟨_, .top, balanced⟩

/-- In every run, whatever `read` returns and however `write` is cut short, the bytes written to a
connection are at every moment the first of the bytes read from it. -/
theorem written_prefix_read {listenfd : Int} {beyond : List Byte} {history : List Event}
    {moment : Moment fdSetSize} (run : Run (echoServer fdSetSize listenfd beyond) history moment)
    (fd : Int) : writtenTo fd history <+: readFrom fd history := by
  have account : ∃ due, Owes beyond moment due ∧ Balanced history due := by
    refine run.invariant (fun history moment =>
      ∃ due, Owes beyond moment due ∧ Balanced history due) ?_ ?_
    · rintro _ _ ⟨rfl, allset, buf, -, rfl⟩
      exact ⟨_, .top, fun fd => rfl⟩
    · rintro history moment events next ⟨due, owes, balanced⟩ steps
      exact owes.step balanced steps
  obtain ⟨due, -, balanced⟩ := account
  rw [balanced fd]
  exact List.prefix_append _ _

/-! ### A connection that is reset -/

/-- An iteration in which nothing is written makes its calls one after the other. -/
theorem run_calls {listenfd : Int} {beyond : List Byte} {history : List Event}
    {calls : List Call} {ending : Outcome fdSetSize} (rest : List Call)
    (run : Run (echoServer fdSetSize listenfd beyond) history (.within (calls ++ rest) ending))
    (others : ∀ call ∈ calls, ∀ fd buf n, call ≠ .written fd buf n) :
    Run (echoServer fdSetSize listenfd beyond) (history ++ calls.map .call)
      (.within rest ending) := by
  induction calls generalizing history with
  | nil =>
    rw [List.map_nil, List.append_nil]
    exact run
  | cons call calls inductionHypothesis =>
    have made := run.step (.call (others call List.mem_cons_self))
    have last := inductionHypothesis made fun other member =>
      others other (List.mem_cons_of_mem _ member)
    rw [List.append_assoc] at last
    exact last

theorem run_iteration {listenfd : Int} {beyond : List Byte} {history : List Event}
    {server next : Server fdSetSize} {calls : List Call}
    (run : Run (echoServer fdSetSize listenfd beyond) history (.top server))
    (steps : (selectServer fdSetSize listenfd).step server calls next)
    (others : ∀ call ∈ calls, ∀ fd buf n, call ≠ .written fd buf n) :
    Run (echoServer fdSetSize listenfd beyond) (history ++ calls.map .call) (.top next) := by
  obtain ⟨round, possible, iterate⟩ := steps
  have entered := run.step (.iterate possible)
  rw [iterate, List.append_nil] at entered
  have made := run_calls [] (by rw [List.append_nil]; exact entered) others
  have again := made.step .again
  rw [List.append_nil] at again
  exact again

/-- Two clients have connected. -/
def twoClientsHistory : List Event :=
  [.call (.fdSet 3), .call (.select 4 1), .call (.accept 4), .call (.fdSet 4),
    .call (.select 5 1), .call (.accept 5), .call (.fdSet 5)]

theorem run_twoClients : Run (echoServer 1024 3 []) twoClientsHistory (.top twoClients) := by
  have silent : ∀ (width connfd : Int), ∀ call ∈ [Call.select width 1, .accept connfd,
      .fdSet connfd], ∀ fd buf n, call ≠ .written fd buf n := by
    intro width connfd call member fd buf n written
    subst written
    simp at member
  have start : Run (echoServer 1024 3 []) [.call (.fdSet 3)]
      (.top (Server.initial 3 ⟨{3}, by decide⟩ (List.replicate maxline 0))) :=
    .start ⟨rfl, ⟨{3}, by decide⟩, List.replicate maxline 0, rfl, rfl⟩
  have free : (Server.initial 3 (⟨{3}, by decide⟩ : FdSet 1024)
      (List.replicate maxline 0)).free? = some 0 :=
    Fin.find?_eq_some_iff.mpr ⟨rfl, fun j before => absurd before (Fin.not_lt_zero j)⟩
  have isSet : (Server.initial 3 (⟨{3}, by decide⟩ : FdSet 1024)
      (List.replicate maxline 0)).allset.set? 4 = some ⟨{4, 3}, by decide⟩ := rfl
  have one := run_iteration start (step_accept (by decide) free isSet (by decide)) (silent _ _)
  have free' : ((Server.initial 3 (⟨{3}, by decide⟩ : FdSet 1024)
      (List.replicate maxline 0)).addClient 0 4 ⟨{4, 3}, by decide⟩).free? = some 1 := by
    refine Fin.find?_eq_some_iff.mpr ⟨rfl, fun j before => ?_⟩
    rw [show j = 0 by omega]
    rfl
  have isSet' : ((Server.initial 3 (⟨{3}, by decide⟩ : FdSet 1024)
      (List.replicate maxline 0)).addClient 0 4 ⟨{4, 3}, by decide⟩).allset.set? 5 =
      some ⟨{5, 4, 3}, by decide⟩ := rfl
  exact run_iteration one (step_accept (by decide) free' isSet' (by decide)) (silent _ _)

/-- The two clients, with this in the buffer. -/
def twoClientsWith (buf : List Byte) : Server 1024 := { twoClients with buf := buf }

/-- The client 4 is ready, and this is what `read` gives on its connection. -/
def clientFour (outcome : ReadOutcome) : Round 1024 :=
  { clientReady with read := fun _ => outcome }

theorem clientFour_possible (buf : List Byte) {outcome : ReadOutcome}
    (fits : outcome.Fits maxline) : (clientFour outcome).Possible 3 (twoClientsWith buf) where
  rset := by
    show ({4} : Finset Int) ⊆ {5, 4, 3}
    decide
  connfd listening := absurd listening (show (3 : Int) ∉ ({4} : Finset Int) by decide)
  read i := fits

theorem iterate_clientFour (buf : List Byte) {outcome : ReadOutcome}
    (value : outcome.value ≠ 0) :
    (twoClientsWith buf).iterate 3 (clientFour outcome) =
      ([.select 6 1, .read 4 outcome,
          .written 4 (overwrite buf 0 outcome.bytes) (sizeOfSsize outcome.value)],
        .continues (twoClientsWith (overwrite buf 0 outcome.bytes))) := by
  obtain ⟨slots, first⟩ := slotsBelow_one
  have visited : slotsBelow (twoClientsWith buf).maxi = 0 :: slots := first
  have other : (3 : Int) ∉ (clientFour outcome).rset.fds :=
    show (3 : Int) ∉ ({4} : Finset Int) by decide
  have ready : (4 : Int) ∈ (clientFour outcome).rset.fds := Finset.mem_singleton_self 4
  have client : (twoClientsWith buf).client 0 = 4 := rfl
  have last : (clientFour outcome).nready - 1 ≤ 0 := Int.le_refl 0
  have served : (twoClientsWith buf).serve 0 outcome = ([.read 4 outcome,
      .written 4 (overwrite buf 0 outcome.bytes) (sizeOfSsize outcome.value)],
      twoClientsWith (overwrite buf 0 outcome.bytes)) := by
    rw [Server.serve, if_neg value]
    rfl
  rw [Server.iterate, if_neg other]
  dsimp only
  rw [visited, scan, client, if_neg (by decide), if_pos ready, if_pos last]
  show (_ ++ ((twoClientsWith buf).serve 0 outcome).1,
    Outcome.continues ((twoClientsWith buf).serve 0 outcome).2) = _
  rw [served]
  rfl

/-- The server waits in `written` for the client 4, after `read` has given this. -/
theorem run_clientFour {history : List Event} {buf : List Byte} (outcome : ReadOutcome)
    (run : Run (echoServer 1024 3 []) history (.top (twoClientsWith buf)))
    (fits : outcome.Fits maxline) (value : outcome.value ≠ 0)
    (nonempty : 0 < sizeOfSsize outcome.value) :
    Run (echoServer 1024 3 []) (history ++ [.call (.select 6 1), .call (.read 4 outcome),
        .call (.written 4 (overwrite buf 0 outcome.bytes) (sizeOfSsize outcome.value))])
      (.writing 4 (overwrite buf 0 outcome.bytes) (sizeOfSsize outcome.value)
        (.enter (sizeOfSsize outcome.value)) []
        (.continues (twoClientsWith (overwrite buf 0 outcome.bytes)))) := by
  have entered := run.step (.iterate (clientFour_possible buf fits))
  rw [iterate_clientFour buf value, List.append_nil] at entered
  have others : ∀ call ∈ [Call.select 6 1, .read 4 outcome], ∀ fd buf n,
      call ≠ .written fd buf n := by
    intro call member fd buf n written
    subst written
    simp at member
  have made := run_calls _ entered others
  have loops : (written (sizeOfSsize outcome.value)).test (.enter (sizeOfSsize outcome.value)) =
      .inr (.enter (sizeOfSsize outcome.value)) := Text.test_more (decide_eq_true nonempty)
  have offers := made.step .written
  rw [loops, List.append_assoc] at offers
  exact offers

/-- A line of the client 4 is written back in two parts, and then its connection is reset. -/
theorem written_prefix_read_line : ∃ (history : List Event) (moment : Moment 1024),
    Run (echoServer 1024 3 []) history moment ∧
      .call (.read 4 (.error (.other 104))) ∈ history ∧ writtenTo 4 history = [97, newline] ∧
      writtenTo 4 history <+: readFrom 4 history := by
  have offers := run_clientFour (.data [97, newline]) run_twoClients
    (show [97, newline].length ≤ maxline by decide) (by decide) (by decide)
  have first := offers.step (.write (.taken (by decide) (.wrote 1 (by decide) (by decide))))
  have second := first.step (.write (.taken (by decide) (.wrote 1 (by decide) (by decide))))
  have offers' := run_clientFour (.error (.other 104)) (second.step .again) (Nat.zero_le _)
    (by decide) (by decide)
  have run := offers'.step
    (.write (.tooLarge ssizeMax_lt_sizeOfSsize (show Errno.other 104 ≠ .eintr by decide)))
  refine ⟨_, _, run, ?_, rfl, written_prefix_read run 4⟩
  simp

end SocketProgram.SelectServer
