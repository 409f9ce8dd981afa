/-
This file is about what one iteration of the echo server of `tcpcliservpoll01.c` reads. Its
test for a new connection looks at the descriptor of the listening socket where it should
look at what `poll` returned for it, and everything else is inside that test. For a listening
socket whose number has the bit of `POLLRDNORM` the iteration always accepts, and for any
other it never does anything.

The first loop takes one from `nready` for every slot it passes. Therefore the second, which
ends when `nready` is used up, can end before it has come to all the slots that are ready.
What it reads is the beginning of the list of ready slots, and the iteration reads what it
should exactly when that beginning is the whole list.
-/

import SocketProgram.PollServer

namespace SocketProgram.PollServer

open Memory Runs

/-! ### What the second loop reads -/

/-- The descriptors that are read. -/
def reads (calls : List Call) : List Int :=
  calls.filterMap fun
    | .read fd _ => some fd
    | _ => none

theorem reads_append (first second : List Call) :
    reads (first ++ second) = reads first ++ reads second :=
  List.filterMap_append

/-- A slot with a descriptor that has data or an error. -/
def Server.Ready (server : Server) (round : Round) (i : Nat) : Prop :=
  0 ≤ (server.client i).fd ∧ round.revents i &&& (pollrdnorm ||| pollerr) ≠ 0

instance (server : Server) (round : Round) (i : Nat) : Decidable (server.Ready round i) :=
  inferInstanceAs (Decidable (_ ∧ _))

/-- The slots among some that are ready. -/
def Server.readyAmong (server : Server) (round : Round) (slots : List Nat) : List Nat :=
  slots.filter fun i => decide (server.Ready round i)

/-- A failure of `read` that the server does not take for the end of the connection. -/
def Fatal (outcome : ReadOutcome) : Prop :=
  outcome.value < 0 ∧ outcome.errno? ≠ some econnreset

instance (outcome : ReadOutcome) : Decidable (Fatal outcome) :=
  inferInstanceAs (Decidable (_ ∧ _))

/-- The beginning of some slots up to the first whose `read` fails, or to where `nready` is used
up. -/
def reached (round : Round) : List Nat → Int → List Nat
  | [], _ => []
  | i :: slots, nready =>
    if Fatal (round.read i) ∨ nready - 1 ≤ 0 then [i] else i :: reached round slots (nready - 1)

theorem reached_start (round : Round) (slots : List Nat) (nready : Int) :
    reached round slots nready <+: slots := by
  induction slots generalizing nready with
  | nil => exact List.prefix_refl []
  | cons i slots inductionHypothesis =>
    rw [reached]
    split_ifs
    · exact List.prefix_append [i] slots
    · exact (List.prefix_cons_inj i).mpr (inductionHypothesis (nready - 1))

/-- Serving one slot reads from it, and goes on unless the `read` fails. -/
theorem serve_reads (server : Server) (i : Nat) (outcome : ReadOutcome) :
    reads (server.serve i outcome).1 = [(server.client i).fd] ∧
    ((Fatal outcome ∧ (server.serve i outcome).2 = .returns (-1)) ∨
      (¬ Fatal outcome ∧ ∃ next, (server.serve i outcome).2 = .continues next ∧
        ∀ j, j ≠ i → next.client j = server.client j)) := by
  have freed : ∀ (buf : List Byte) (j : Nat), j ≠ i →
      (Server.setFd { server with buf := buf } i (-1)).client j = server.client j :=
    fun buf j other => Function.update_of_ne other _ _
  unfold Server.serve Fatal
  dsimp only
  split_ifs with failed reset ended
  · exact ⟨rfl, .inr ⟨fun fatal => fatal.2 reset, _, rfl, freed _⟩⟩
  · exact ⟨rfl, .inl ⟨⟨failed, reset⟩, rfl⟩⟩
  · exact ⟨rfl, .inr ⟨fun fatal => failed fatal.1, _, rfl, freed _⟩⟩
  · exact ⟨rfl, .inr ⟨fun fatal => failed fatal.1, _, rfl, fun j other => rfl⟩⟩

theorem readyAmong_congr {server next : Server} (round : Round) {slots : List Nat}
    (same : ∀ j ∈ slots, next.client j = server.client j) :
    next.readyAmong round slots = server.readyAmong round slots := by
  refine List.filter_congr fun j member => decide_eq_decide.mpr ?_
  unfold Server.Ready
  rw [same j member]

/-- The second loop reads from the slots that are ready, in order, up to where it stops. -/
theorem scan_reads (round : Round) {slots : List Nat} (distinct : slots.Nodup) (nready : Int)
    (server : Server) :
    reads (scan round slots nready server).1 =
      (reached round (server.readyAmong round slots) nready).map fun i =>
        (server.client i).fd := by
  induction slots generalizing nready server with
  | nil => rfl
  | cons i slots inductionHypothesis =>
    obtain ⟨fresh, distinct⟩ := List.nodup_cons.mp distinct
    rw [scan, Server.readyAmong, List.filter_cons]
    by_cases free : (server.client i).fd < 0
    · have notReady : ¬ server.Ready round i := fun ready => absurd free (Int.not_lt.mpr ready.1)
      rw [if_pos free, if_neg (by simpa using notReady)]
      exact inductionHypothesis distinct nready server
    rw [if_neg free]
    by_cases quiet : round.revents i &&& (pollrdnorm ||| pollerr) = 0
    · have notReady : ¬ server.Ready round i := fun ready => ready.2 quiet
      rw [if_neg (not_not.mpr quiet), if_neg (by simpa using notReady)]
      exact inductionHypothesis distinct nready server
    have ready : server.Ready round i := ⟨Int.not_lt.mp free, quiet⟩
    rw [if_pos quiet, if_pos (decide_eq_true ready), reached]
    obtain ⟨first, ⟨fatal, ends⟩ | ⟨harmless, next, ends, others⟩⟩ :=
      serve_reads server i (round.read i)
    · rw [if_pos (.inl fatal), ← Prod.eta (server.serve i (round.read i)), ends]
      exact first
    · rw [← Prod.eta (server.serve i (round.read i)), ends]
      dsimp only
      by_cases last : nready - 1 ≤ 0
      · rw [if_pos last, if_pos (.inr last)]
        exact first
      · have same : ∀ j ∈ slots, next.client j = server.client j := fun j member =>
          others j (ne_of_mem_of_not_mem member fresh)
        rw [if_neg last, if_neg (not_or.mpr ⟨harmless, last⟩), reads_append, first,
          inductionHypothesis distinct, readyAmong_congr round same, List.map_cons]
        refine congrArg ((server.client i).fd :: ·) (List.map_congr_left fun j member => ?_)
        have scanned : j ∈ slots :=
          List.mem_of_mem_filter ((reached_start round _ _).subset member)
        rw [same j scanned]

/-- The second loop comes to the last of these slots and ends there. -/
def EndsWith (round : Round) (slots : List Nat) (nready : Int) : Prop :=
  slots ≠ [] ∧ (nready ≤ slots.length ∨ ∃ i ∈ slots.getLast?, Fatal (round.read i))

/-- The second loop comes to the last of these slots. -/
def ComesTo (round : Round) (slots : List Nat) (nready : Int) : Prop :=
  (slots.length : Int) ≤ max 1 nready ∧ ∀ i ∈ slots.dropLast, ¬ Fatal (round.read i)

theorem comesTo_single (round : Round) (i : Nat) (nready : Int) : ComesTo round [i] nready :=
  ⟨Int.le_max_left 1 nready, fun _ member => absurd member List.not_mem_nil⟩

theorem comesTo_cons_cons {round : Round} {i j : Nat} {slots : List Nat} {nready : Int} :
    ComesTo round (i :: j :: slots) nready ↔
      ¬ (Fatal (round.read i) ∨ nready - 1 ≤ 0) ∧ ComesTo round (j :: slots) (nready - 1) := by
  unfold ComesTo
  rw [List.dropLast_cons_cons, List.forall_mem_cons, List.length_cons, List.length_cons]
  constructor
  · rintro ⟨count, first, rest⟩
    exact ⟨not_or.mpr ⟨first, by omega⟩, by omega, rest⟩
  · rintro ⟨goesOn, count, rest⟩
    exact ⟨by omega, (not_or.mp goesOn).1, rest⟩

theorem endsWith_single {round : Round} {i : Nat} {nready : Int} :
    EndsWith round [i] nready ↔ Fatal (round.read i) ∨ nready - 1 ≤ 0 := by
  constructor
  · rintro ⟨-, used | ⟨last, member, fatal⟩⟩
    · exact .inr (Int.sub_nonpos_of_le used)
    · obtain rfl : i = last := Option.some.inj member
      exact .inl fatal
  · rintro (fatal | used)
    · exact ⟨List.cons_ne_nil _ _, .inr ⟨i, rfl, fatal⟩⟩
    · exact ⟨List.cons_ne_nil _ _, .inl (Int.le_of_sub_nonpos used)⟩

theorem endsWith_cons_cons {round : Round} {i j : Nat} {slots : List Nat} {nready : Int} :
    EndsWith round (i :: j :: slots) nready ↔ EndsWith round (j :: slots) (nready - 1) := by
  unfold EndsWith
  rw [List.getLast?_cons_cons, List.length_cons]
  have used : nready ≤ ((j :: slots).length + 1 : Nat) ↔
      nready - 1 ≤ ((j :: slots).length : Nat) := by omega
  rw [used]
  exact and_congr_left fun _ => iff_of_true (List.cons_ne_nil _ _) (List.cons_ne_nil _ _)

theorem reached_eq_self (round : Round) (slots : List Nat) (nready : Int) :
    reached round slots nready = slots ↔ ComesTo round slots nready := by
  induction slots generalizing nready with
  | nil =>
    refine iff_of_true rfl ⟨?_, fun i member => absurd member List.not_mem_nil⟩
    exact Int.le_trans Int.one_nonneg (Int.le_max_left 1 nready)
  | cons i slots inductionHypothesis =>
    rw [reached]
    cases slots with
    | nil =>
      refine iff_of_true ?_ (comesTo_single round i nready)
      split_ifs <;> rfl
    | cons j slots =>
      rw [comesTo_cons_cons, ← inductionHypothesis]
      split_ifs with stops
      · refine iff_of_false (fun same => ?_) fun both => both.1 stops
        cases (List.cons.inj same).2
      · rw [List.cons.injEq]
        exact ⟨fun same => ⟨stops, same.2⟩, fun both => ⟨rfl, both.2⟩⟩

/-- With one more slot behind them, it has to end with the last of these. -/
theorem reached_concat (round : Round) (slots : List Nat) (extra : Nat) (nready : Int) :
    reached round (slots ++ [extra]) nready = slots ↔
      ComesTo round slots nready ∧ EndsWith round slots nready := by
  induction slots generalizing nready with
  | nil =>
    refine iff_of_false ?_ fun both => both.2.1 rfl
    rw [List.nil_append, reached]
    intro nothing
    split_ifs at nothing
  | cons i slots inductionHypothesis =>
    rw [List.cons_append, reached]
    cases slots with
    | nil =>
      rw [endsWith_single, and_iff_right (comesTo_single round i nready)]
      split_ifs with stops
      · exact iff_of_true rfl stops
      · refine iff_of_false (fun same => ?_) stops
        have rest : reached round [extra] (nready - 1) = [] := (List.cons.inj same).2
        rw [reached] at rest
        split_ifs at rest
    | cons j slots =>
      rw [comesTo_cons_cons, endsWith_cons_cons]
      split_ifs with stops
      · refine iff_of_false (fun same => ?_) fun both => both.1.1 stops
        cases (List.cons.inj same).2
      · rw [List.cons.injEq, inductionHypothesis, and_iff_right rfl, and_iff_right stops]

/-! ### Reachable tables -/

/-- No slot is used above the one that follows `maxi`. -/
structure Bounded (openMax : Nat) (server : Server) : Prop where
  maxi : server.maxi < openMax
  above : ∀ i, server.maxi + 1 < i → i < openMax → (server.client i).fd < 0

section Searched

variable {openMax : Nat} {connfd : Int} {server searched : Server}

theorem Bounded.passed_le (bounded : Bounded openMax server) :
    passed server.client (clientSlots openMax) ≤ server.maxi + 1 := by
  obtain ⟨bound, filled, -⟩ := passed_spec server.client 1 (openMax - 1)
  by_contra more
  unfold clientSlots at more
  refine filled (server.maxi + 2) (by omega) (by omega) ?_
  exact bounded.above (server.maxi + 2) (by omega) (by omega)

theorem searched_maxi (found : Searched connfd 1 (openMax - 1) server searched) :
    searched.maxi = max server.maxi (passed server.client (clientSlots openMax)) := by
  rw [found.maxi, clientSlots]
  split_ifs <;> omega

theorem Bounded.afterSearch (positive : 0 < openMax) (bounded : Bounded openMax server)
    (found : Searched connfd 1 (openMax - 1) server searched) : Bounded openMax searched := by
  obtain ⟨bound, -, -⟩ := passed_spec server.client 1 (openMax - 1)
  have maxi := searched_maxi found
  unfold clientSlots at maxi
  refine ⟨by have below := bounded.maxi; omega, fun i above below => ?_⟩
  rw [found.fd i, if_neg (by omega)]
  exact bounded.above i (by omega) below

end Searched

theorem Bounded.served {openMax : Nat} {server next : Server} (bounded : Bounded openMax server)
    (served : Served server next) : Bounded openMax next where
  maxi := by
    rw [served.maxi]
    exact bounded.maxi
  above i above below := by
    rw [served.maxi] at above
    exact served.free (bounded.above i above below)

theorem run_bounded {openMax : Nat} (positive : 0 < openMax) {listenfd : Int}
    {history : List Call} {server : Server}
    (run : Run (pollServer openMax listenfd) history server) : Bounded openMax server := by
  refine run.invariant (fun _ server => Bounded openMax server) ?_ ?_
  · intro history server starts
    have vacant := vacant_start starts
    refine ⟨by rw [vacant.maxi]; exact positive, fun i above below => ?_⟩
    exact vacant.available i (by omega) below
  · rintro history server calls next bounded ⟨round, -, iterate⟩
    cases iterates positive iterate with
    | quiet idle => exact bounded
    | accepted listening found scans =>
      exact (bounded.afterSearch positive found).served (scan_served scans)

/-! ### What one iteration reads -/

/-- The slots that `poll` was asked about and has found ready. -/
def Server.readySlots (server : Server) (round : Round) : List Nat :=
  server.readyAmong round server.slots

/-- An iteration accepts exactly when `poll` says so, and reads exactly once from every slot that
`poll` has found ready, and from no other. -/
structure Server.Reads (openMax : Nat) (server : Server) (round : Round) : Prop where
  accept : (∃ connfd, .accept connfd ∈ (server.iterate openMax round).1) ↔
    round.revents 0 &&& pollrdnorm ≠ 0
  read : reads (server.iterate openMax round).1 =
    (server.readySlots round).map fun i => (server.client i).fd

/-- What `nready` is when the second loop starts. -/
def Server.readyLeft (openMax : Nat) (server : Server) (round : Round) : Int :=
  round.nready - passed server.client (clientSlots openMax)

/-- The slot above `maxi` is scanned after the others, with whatever its `revents` holds. -/
def Server.Unpolled (openMax : Nat) (server : Server) (round : Round) : Prop :=
  passed server.client (clientSlots openMax) = server.maxi + 1 ∧
    server.Ready round (server.maxi + 1)

instance (openMax : Nat) (server : Server) (round : Round) :
    Decidable (server.Unpolled openMax round) :=
  inferInstanceAs (Decidable (_ ∧ _))

/-- The descriptor of the listening socket has the bit of `POLLRDNORM` exactly when `poll` has
found the socket ready; without it nothing else is ready, and with it the second loop comes to
all the slots that are, and no further. -/
structure Server.Meets (openMax : Nat) (server : Server) (round : Round) : Prop where
  listening : band (server.client 0).fd pollrdnorm ≠ 0 ↔ round.revents 0 &&& pollrdnorm ≠ 0
  quiet : band (server.client 0).fd pollrdnorm = 0 → server.readySlots round = []
  accepting : band (server.client 0).fd pollrdnorm ≠ 0 →
    ComesTo round (server.readySlots round) (server.readyLeft openMax round) ∧
      (server.Unpolled openMax round →
        EndsWith round (server.readySlots round) (server.readyLeft openMax round))

section Listening

variable {openMax : Nat} {server searched : Server} {round : Round}
  (possible : round.Possible openMax server)
  (found : Searched round.connfd 1 (openMax - 1) server searched)

include possible found

/-- The first loop changes no descriptor in a slot that is ready after it. -/
theorem searched_fd {i : Nat} (polled : i ≤ searched.maxi) (ready : searched.Ready round i) :
    (searched.client i).fd = (server.client i).fd := by
  obtain ⟨-, -, stops⟩ := passed_spec server.client 1 (openMax - 1)
  have maxi := searched_maxi found
  unfold clientSlots at maxi
  rw [found.fd i]
  refine if_neg ?_
  rintro ⟨rfl, free⟩
  refine ready.2 ?_
  rw [possible.revents _ (by omega) (stops free)]
  exact Nat.zero_and _

theorem searched_ready {i : Nat} (polled : i ≤ server.maxi) :
    searched.Ready round i ↔ server.Ready round i := by
  obtain ⟨-, -, stops⟩ := passed_spec server.client 1 (openMax - 1)
  constructor
  · intro ready
    have maxi := searched_maxi found
    have same := searched_fd possible found (by omega) ready
    exact ⟨same ▸ ready.1, ready.2⟩
  · intro ready
    refine ⟨?_, ready.2⟩
    rw [found.fd i, if_neg]
    · exact ready.1
    · rintro ⟨rfl, free⟩
      exact absurd (stops free) (Int.not_lt.mpr ready.1)

/-- After the first loop the slots that are ready are those `poll` has found ready, and the one
it was not asked about. -/
theorem searched_readySlots (bounded : Bounded openMax server) :
    searched.readySlots round =
      if server.Unpolled openMax round then server.readySlots round ++ [server.maxi + 1]
      else server.readySlots round := by
  have polled : ∀ i ∈ server.slots, i ≤ server.maxi := fun i member => by
    have range := List.mem_range'_1.mp member
    omega
  have common : searched.readyAmong round server.slots = server.readySlots round :=
    List.filter_congr fun i member =>
      decide_eq_decide.mpr (searched_ready possible found (polled i member))
  have maxi := searched_maxi found
  have bound := bounded.passed_le
  by_cases all : passed server.client (clientSlots openMax) = server.maxi + 1
  · have slots : searched.slots = server.slots ++ [server.maxi + 1] := by
      unfold Server.slots
      rw [maxi, all, Nat.max_eq_right (Nat.le_succ _), List.range'_1_concat, Nat.add_comm 1]
    have last : searched.Ready round (server.maxi + 1) ↔ server.Ready round (server.maxi + 1) := by
      have same :
          (searched.client (server.maxi + 1)).fd = (server.client (server.maxi + 1)).fd := by
        rw [found.fd, if_neg]
        unfold clientSlots at all
        omega
      unfold Server.Ready
      rw [same]
    rw [Server.readySlots, slots, Server.readyAmong, List.filter_append]
    show searched.readyAmong round server.slots ++ _ = _
    rw [common, List.filter_cons, List.filter_nil]
    by_cases ready : server.Ready round (server.maxi + 1)
    · rw [if_pos (decide_eq_true (last.mpr ready)), if_pos ⟨all, ready⟩]
    · rw [if_neg (by simpa using fun also => ready (last.mp also)),
        if_neg (fun unpolled => ready unpolled.2), List.append_nil]
  · have slots : searched.slots = server.slots := by
      unfold Server.slots
      rw [maxi, Nat.max_eq_left (by omega)]
    rw [if_neg (fun unpolled => all unpolled.1), Server.readySlots, slots]
    exact common

/-- The second loop reads from every slot that `poll` has found ready, and from no other, exactly
when it comes to the last of these and the slot it was not asked about is out of reach. -/
theorem scan_reads_readySlots (bounded : Bounded openMax server) :
    reads (scan round searched.slots (server.readyLeft openMax round) searched).1 =
        (server.readySlots round).map (fun i => (server.client i).fd) ↔
      ComesTo round (server.readySlots round) (server.readyLeft openMax round) ∧
        (server.Unpolled openMax round →
          EndsWith round (server.readySlots round) (server.readyLeft openMax round)) := by
  have slots := searched_readySlots possible found bounded
  have distinct : searched.slots.Nodup := List.nodup_range'
  rw [scan_reads round distinct]
  show ((reached round (searched.readySlots round) _).map _) = _ ↔ _
  generalize server.readyLeft openMax round = left
  have start := reached_start round (searched.readySlots round) left
  have sameFds : (reached round (searched.readySlots round) left).map
        (fun i => (searched.client i).fd) =
      (reached round (searched.readySlots round) left).map fun i => (server.client i).fd := by
    refine List.map_congr_left fun i member => ?_
    obtain ⟨scanned, ready⟩ := List.mem_filter.mp (start.subset member)
    have range := List.mem_range'_1.mp scanned
    exact searched_fd possible found (by omega) (of_decide_eq_true ready)
  have whole : server.readySlots round <+: searched.readySlots round := by
    rw [slots]
    split_ifs
    · exact List.prefix_append _ _
    · exact List.prefix_refl _
  have sameSlots : (reached round (searched.readySlots round) left).map
        (fun i => (server.client i).fd) =
      (server.readySlots round).map (fun i => (server.client i).fd) ↔
      reached round (searched.readySlots round) left = server.readySlots round := by
    refine ⟨fun same => ?_, fun same => congrArg _ same⟩
    have lengths := congrArg List.length same
    rw [List.length_map, List.length_map] at lengths
    exact (List.prefix_of_prefix_length_le start whole lengths.le).eq_of_length lengths
  rw [sameFds, sameSlots, slots]
  by_cases unpolled : server.Unpolled openMax round
  · rw [if_pos unpolled, reached_concat]
    exact and_congr_right fun _ => (imp_iff_right unpolled).symm
  · rw [if_neg unpolled, reached_eq_self]
    exact (and_iff_left fun also => absurd also unpolled).symm

end Listening

/-- In every reachable state and for everything `poll` can return, the iteration accepts and
reads what it should exactly under this condition. -/
theorem reads_iff_meets {openMax : Nat} (positive : 0 < openMax) {listenfd : Int}
    {history : List Call} {server : Server}
    (run : Run (pollServer openMax listenfd) history server) {round : Round}
    (possible : round.Possible openMax server) :
    server.Reads openMax round ↔ server.Meets openMax round := by
  by_cases listening : band (server.client 0).fd pollrdnorm = 0
  · have calls : (server.iterate openMax round).1 = [.poll (server.maxi + 1) round.nready] :=
      congrArg Prod.fst (iterate_quiet listening)
    have refused : ¬ ∃ connfd, Call.accept connfd ∈ [Call.poll (server.maxi + 1) round.nready] :=
      fun ⟨connfd, member⟩ => nomatch List.mem_singleton.mp member
    constructor
    · rintro ⟨accept, read⟩
      rw [calls] at accept read
      refine ⟨?_, fun _ => List.map_eq_nil_iff.mp read.symm, fun bit => absurd listening bit⟩
      exact ⟨fun bit => absurd listening bit, fun ready => absurd (accept.mpr ready) refused⟩
    · rintro ⟨accept, quiet, -⟩
      refine ⟨?_, ?_⟩
      · rw [calls]
        exact ⟨fun accepts => absurd accepts refused,
          fun ready => absurd listening (accept.mpr ready)⟩
      · rw [calls, quiet listening]
        rfl
  · obtain ⟨searched, found, iterate⟩ := iterate_accepting positive round listening
    have calls : (server.iterate openMax round).1 =
        [.poll (server.maxi + 1) round.nready, .accept round.connfd] ++
          (scan round searched.slots (server.readyLeft openMax round) searched).1 :=
      congrArg Prod.fst iterate
    have accepts : ∃ connfd, Call.accept connfd ∈ (server.iterate openMax round).1 := by
      rw [calls]
      exact ⟨_, List.mem_cons_of_mem _ List.mem_cons_self⟩
    have read := scan_reads_readySlots possible found (run_bounded positive run)
    have same : reads (server.iterate openMax round).1 =
        reads (scan round searched.slots (server.readyLeft openMax round) searched).1 := by
      rw [calls, reads_append]
      rfl
    constructor
    · rintro ⟨accept, exactly⟩
      rw [same, read] at exactly
      exact ⟨iff_of_true listening (accept.mp accepts), fun bit => absurd bit listening,
        fun _ => exactly⟩
    · rintro ⟨accept, -, accepting⟩
      refine ⟨iff_of_true accepts (accept.mp listening), ?_⟩
      rw [same, read]
      exact accepting listening

/-! ### Clients that connect -/

/-- The table when two clients have connected to descriptor 64. -/
def secondTable : Nat → Pollfd
  | 0 => ⟨64, pollrdnorm⟩
  | 1 => ⟨65, pollrdnorm⟩
  | 2 => ⟨66, 0⟩
  | _ => ⟨-1, 0⟩

theorem run_secondRound : Run (pollServer 1024 64)
    ([] ++ [.poll 1 1, .accept 65] ++ [.poll 1 1, .accept 66]) ⟨secondTable, 1, []⟩ := by
  refine run_firstRound.step ⟨{ firstRound with connfd := 66 }, ⟨fun i last free => ?_,
    fun i below new => ?_, fun i => Nat.zero_le _⟩, ?_⟩
  · obtain rfl : i = 0 := Nat.le_zero.mp last
    cases free
  · rcases i with _ | _ | i
    · show (64 : Int) ≠ 66
      decide
    · show (65 : Int) ≠ 66
      decide
    · show (-1 : Int) ≠ 66
      decide
  · refine Prod.ext rfl (congrArg (fun client => Outcome.continues ⟨client, 1, []⟩) ?_)
    funext i
    rcases i with _ | _ | _ | i <;> rfl

/-- A third client connects, and a line has come from the first. -/
def busyRound : Round where
  nready := 2
  revents i := if i ≤ 1 then pollrdnorm else 0
  connfd := 67
  read _ := .data [97, newline]

theorem busyRound_possible : busyRound.Possible 1024 ⟨secondTable, 1, []⟩ where
  revents i last free := by
    rcases i with _ | _ | i
    · cases free
    · cases free
    · exact absurd last (show ¬ i + 1 + 1 ≤ 1 by omega)
  connfd i below new := by
    rcases i with _ | _ | _ | i
    · show (64 : Int) ≠ 67
      decide
    · show (65 : Int) ≠ 67
      decide
    · show (66 : Int) ≠ 67
      decide
    · show (-1 : Int) ≠ 67
      decide
  read i := show [97, newline].length ≤ maxline by decide

/-- The third is accepted, and the first is read from. -/
theorem reads_iff_meets_busyRound : ∃ history server,
    Run (pollServer 1024 64) history server ∧ (server.client 1).fd = 65 ∧
      (server.client 2).fd = 66 ∧ server.readySlots busyRound = [1] ∧
      server.Reads 1024 busyRound := by
  refine ⟨_, _, run_secondRound, rfl, rfl, by decide, (reads_iff_meets (by decide)
    run_secondRound busyRound_possible).mpr ⟨by decide, fun bit => ?_, fun _ => ?_⟩⟩
  · exact absurd bit (by decide)
  · exact ⟨⟨by decide, fun i member => absurd member List.not_mem_nil⟩,
      fun unpolled => absurd unpolled.2 (by decide)⟩

/-- The server at its first iteration. -/
def idleServer (listenfd : Int) : Server where
  client i := if i = 0 then ⟨listenfd, pollrdnorm⟩ else ⟨-1, 0⟩
  maxi := 0
  buf := []

/-- A client connects, and nothing else happens. -/
def connectRound : Round where
  nready := 1
  revents i := if i = 0 then pollrdnorm else 0
  connfd := 4
  read _ := .data []

theorem run_idleServer (listenfd : Int) :
    Run (pollServer 1024 listenfd) [] (idleServer listenfd) := by
  refine .start ⟨rfl, rfl, fun i above below => ?_, rfl⟩
  show (if i = 0 then Pollfd.mk listenfd pollrdnorm else ⟨-1, 0⟩).fd = -1
  rw [if_neg (by omega)]

theorem connectRound_possible {listenfd : Int} (valid : 0 ≤ listenfd) (other : listenfd ≠ 4) :
    connectRound.Possible 1024 (idleServer listenfd) where
  revents i last free := by
    obtain rfl : i = 0 := Nat.le_zero.mp last
    exact absurd valid (Int.not_le.mpr free)
  connfd i below new := by
    show (if i = 0 then Pollfd.mk listenfd pollrdnorm else ⟨-1, 0⟩).fd ≠ 4
    split_ifs
    · exact other
    · decide
  read i := Nat.zero_le _

/-- On descriptor 3 the client is not accepted. -/
theorem not_reads_of_run : ¬ ∀ history server round, Run (pollServer 1024 3) history server →
    round.Possible 1024 server → server.Reads 1024 round := by
  intro reads
  have accept := (reads _ _ connectRound (run_idleServer 3)
    (connectRound_possible (by decide) (by decide))).accept.mpr (by decide)
  obtain ⟨connfd, member⟩ := accept
  cases List.mem_singleton.mp member

end SocketProgram.PollServer
