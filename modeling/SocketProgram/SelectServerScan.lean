/-
This file is about which clients one iteration of the select server reads from.

The scan stops before the slot `maxi`, although `maxi` is the largest slot in use. So
the client in that slot is passed over, whenever it is ready, unless the connection
accepted in the same iteration goes into a slot above it. The early exits on `nready`
leave no client out: the scan never meets more ready descriptors than `nready` counts.
-/

import SocketProgram.SelectServer

namespace SocketProgram.SelectServer

open Memory Runs FirstFit

variable {fdSetSize : Nat}

/-! ### What is read -/

/-- The descriptors that are read from, in order. -/
def reads (calls : List Call) : List Int :=
  calls.filterMap fun call =>
    match call with
    | .read fd _ => some fd
    | _ => none

theorem reads_append (first second : List Call) :
    reads (first ++ second) = reads first ++ reads second :=
  List.filterMap_append

/-- The client in this slot is in `rset`. -/
def Ready (round : Round fdSetSize) (client : Fin fdSetSize → Int) (i : Fin fdSetSize) : Prop :=
  0 ≤ client i ∧ client i ∈ round.rset.fds

instance (round : Round fdSetSize) (client : Fin fdSetSize → Int) :
    DecidablePred (Ready round client) :=
  fun i => inferInstanceAs (Decidable (0 ≤ client i ∧ client i ∈ round.rset.fds))

/-- The iteration is defined, and reads exactly once from every client that is in `rset` and
from no other descriptor. -/
def ReadsReady (listenfd : Int) (server : Server fdSetSize) (round : Round fdSetSize) : Prop :=
  (server.iterate listenfd round).2 ≠ .undefined ∧
    ∀ fd, (reads (server.iterate listenfd round).1).count fd =
      if ∃ i, Ready round server.client i ∧ server.client i = fd then 1 else 0

/-- The client in the slot `maxi` is in `rset`. -/
def LastReady (server : Server fdSetSize) (round : Round fdSetSize) : Prop :=
  ∃ i : Fin fdSetSize, (i : Int) = server.maxi ∧ Ready round server.client i

/-- When the iteration reads from all the clients that are ready: the one in the slot `maxi`
is not ready, or the new connection goes into a slot above it. A new connection must also have
a descriptor in range, and when there is no slot for it, which ends the server, no client may
be ready. -/
def ScansAll (listenfd : Int) (server : Server fdSetSize) (round : Round fdSetSize) : Prop :=
  if listenfd ∈ round.rset.fds then
    match server.free? with
    | none => ∀ i, ¬ Ready round server.client i
    | some i => (0 ≤ round.connfd ∧ round.connfd < fdSetSize) ∧
        (server.maxi < i ∨ ¬ LastReady server round)
  else ¬ LastReady server round

/-! ### The scan -/

theorem reads_serve (server : Server fdSetSize) (i : Fin fdSetSize) (outcome : ReadOutcome) :
    reads (server.serve i outcome).1 = [server.client i] := by
  unfold Server.serve
  dsimp only
  split_ifs <;> rfl

/-- Serving a client changes no other slot. -/
theorem client_serve (server : Server fdSetSize) (i : Fin fdSetSize) (outcome : ReadOutcome)
    {j : Fin fdSetSize} (different : j ≠ i) :
    (server.serve i outcome).2.client j = server.client j := by
  unfold Server.serve
  dsimp only
  split_ifs
  · exact Function.update_of_ne different _ _
  · rfl

/-- While `nready` counts all that are ready, the scan reads from each of its slots that is
ready, and leaves none out when it stops early. -/
theorem reads_scan (round : Round fdSetSize) (slots : List (Fin fdSetSize)) (nready : Int)
    (server : Server fdSetSize) (nodup : slots.Nodup)
    (enough : ((slots.filter (Ready round server.client)).length : Int) ≤ nready) :
    reads (scan round slots nready server).1 =
      (slots.filter (Ready round server.client)).map server.client := by
  induction slots generalizing nready server with
  | nil => rfl
  | cons i slots inductionHypothesis =>
    obtain ⟨notMem, nodup⟩ := List.nodup_cons.mp nodup
    rw [scan]
    split_ifs with free ready last
    · have skip : ¬ Ready round server.client i := fun ready => Int.not_le.mpr free ready.1
      rw [List.filter_cons_of_neg (by simpa using skip)] at enough ⊢
      exact inductionHypothesis nready server nodup enough
    · have here : Ready round server.client i := ⟨Int.not_lt.mp free, ready⟩
      rw [List.filter_cons_of_pos (by simpa using here), List.length_cons] at enough
      have rest : slots.filter (Ready round server.client) = [] :=
        List.eq_nil_of_length_eq_zero (by omega)
      rw [List.filter_cons_of_pos (by simpa using here), rest, reads_serve]
      rfl
    · have here : Ready round server.client i := ⟨Int.not_lt.mp free, ready⟩
      have others : ∀ j ∈ slots,
          (server.serve i (round.read i)).2.client j = server.client j := fun j member =>
        client_serve server i _ fun same => notMem (same ▸ member)
      have same : slots.filter (Ready round (server.serve i (round.read i)).2.client) =
          slots.filter (Ready round server.client) := by
        refine List.filter_congr fun j member => decide_eq_decide.mpr ?_
        rw [Ready, Ready, others j member]
      rw [List.filter_cons_of_pos (by simpa using here), List.length_cons] at enough
      rw [List.filter_cons_of_pos (by simpa using here), reads_append, reads_serve,
        inductionHypothesis (nready - 1) _ nodup (by rw [same]; omega), same]
      refine congrArg (server.client i :: ·) (List.map_congr_left fun j member => ?_)
      exact others j (List.mem_of_mem_filter member)
    · have skip : ¬ Ready round server.client i := fun ready' => ready ready'.2
      rw [List.filter_cons_of_neg (by simpa using skip)] at enough ⊢
      exact inductionHypothesis nready server nodup enough

theorem nodup_slotsBelow (maxi : Int) : (slotsBelow maxi : List (Fin fdSetSize)).Nodup :=
  (List.nodup_finRange fdSetSize).filter _

theorem mem_slotsBelow {maxi : Int} {i : Fin fdSetSize} :
    i ∈ slotsBelow maxi ↔ (i : Int) < maxi := by
  simp [slotsBelow]

/-- The descriptors of the clients that are ready, in the slots below `maxi`. -/
def readyBelow (round : Round fdSetSize) (client : Fin fdSetSize → Int) (maxi : Int) : List Int :=
  ((slotsBelow maxi).filter (Ready round client)).map client

section Ready

variable {listenfd : Int} {history : List Call} {server : Server fdSetSize}
  {round : Round fdSetSize}

theorem nodup_readyBelow (tables : Tables listenfd server) (maxi : Int) :
    (readyBelow round server.client maxi).Nodup := by
  refine ((nodup_slotsBelow maxi).filter _).map_on fun i member j member' same => ?_
  have ready : Ready round server.client i := of_decide_eq_true (List.mem_filter.mp member).2
  have ready' : Ready round server.client j := of_decide_eq_true (List.mem_filter.mp member').2
  exact tables.distinct (mem_occupied.mpr ready.1) (mem_occupied.mpr ready'.1) same

theorem mem_readyBelow {maxi : Int} {fd : Int} :
    fd ∈ readyBelow round server.client maxi ↔
      ∃ i : Fin fdSetSize, (i : Int) < maxi ∧ Ready round server.client i ∧
        server.client i = fd := by
  simp only [readyBelow, List.mem_map, List.mem_filter, mem_slotsBelow, decide_eq_true_iff,
    and_assoc]

/-- There are no more clients ready than `select` counts besides the listening socket. -/
theorem length_readyBelow (round : Round fdSetSize) (tables : Tables listenfd server)
    (maxi : Int) :
    (readyBelow round server.client maxi).length ≤ (round.rset.fds.erase listenfd).card := by
  rw [← List.toFinset_card_of_nodup (nodup_readyBelow tables maxi)]
  refine Finset.card_le_card fun fd member => ?_
  obtain ⟨i, _, ready, rfl⟩ := mem_readyBelow.mp (List.mem_toFinset.mp member)
  exact Finset.mem_erase.mpr ⟨tables.listening i, ready.2⟩

/-- Reading from the clients below a slot is reading from all when none is at or above it. -/
theorem count_readyBelow_iff (table : Table listenfd history server) (maxi : Int) :
    (∀ fd, (readyBelow round server.client maxi).count fd =
        if ∃ i, Ready round server.client i ∧ server.client i = fd then 1 else 0) ↔
      ∀ i, Ready round server.client i → (i : Int) < maxi := by
  have counted : ∀ fd, (readyBelow round server.client maxi).count fd =
      if fd ∈ readyBelow round server.client maxi then 1 else 0 :=
    fun fd => (nodup_readyBelow table.tables maxi).count
  constructor
  · intro exactly i ready
    have once := exactly (server.client i)
    rw [if_pos ⟨i, ready, rfl⟩, counted] at once
    have member : server.client i ∈ readyBelow round server.client maxi := by
      by_contra absent
      rw [if_neg absent] at once
      cases once
    obtain ⟨j, below, ready', same⟩ := mem_readyBelow.mp member
    have slot : j = i :=
      table.distinct (mem_occupied.mpr ready'.1) (mem_occupied.mpr ready.1) same
    exact slot ▸ below
  · intro below fd
    rw [counted]
    refine if_congr ?_ rfl rfl
    rw [mem_readyBelow]
    exact ⟨fun ⟨i, _, ready, same⟩ => ⟨i, ready, same⟩,
      fun ⟨i, ready, same⟩ => ⟨i, below i ready, ready, same⟩⟩

/-- All the clients that are ready are below `maxi` unless the one at `maxi` is ready. -/
theorem ready_below_iff (table : Table listenfd history server) :
    (∀ i, Ready round server.client i → (i : Int) < server.maxi) ↔
      ¬ LastReady server round := by
  constructor
  · rintro below ⟨i, last, ready⟩
    exact absurd last (Int.ne_of_lt (below i ready))
  · intro notLast i ready
    have bound := table.below i (mem_occupied.mpr ready.1)
    have different : (i : Int) ≠ server.maxi := fun last => notLast ⟨i, last, ready⟩
    omega

/-- When the listening socket is all that `select` reports, no client is ready. -/
theorem not_ready_of_alone (tables : Tables listenfd server)
    (listening : listenfd ∈ round.rset.fds) (alone : round.rset.fds.card ≤ 1)
    (i : Fin fdSetSize) : ¬ Ready round server.client i := by
  intro ready
  have nothing : (round.rset.fds.erase listenfd).card = 0 := by
    rw [Finset.card_erase_of_mem listening]
    omega
  have member : server.client i ∈ round.rset.fds.erase listenfd :=
    Finset.mem_erase.mpr ⟨tables.listening i, ready.2⟩
  rw [Finset.card_eq_zero.mp nothing] at member
  exact absurd member (Finset.notMem_empty _)

/-- The slot a new connection gets holds no client before. -/
theorem not_ready_of_free {i : Fin fdSetSize} (free : server.free? = some i) :
    ¬ Ready round server.client i := by
  intro ready
  have isFree : server.client i < 0 := of_decide_eq_true (Fin.find?_eq_some_iff.mp free).1
  exact absurd isFree (Int.not_lt.mpr ready.1)

/-- A new connection is not in `rset`, so the same clients are ready with it. -/
theorem ready_addClient {i : Fin fdSetSize} {connfd : Int} {allset : FdSet fdSetSize}
    (free : server.free? = some i) (fresh : connfd ∉ round.rset.fds) (j : Fin fdSetSize) :
    Ready round (server.addClient i connfd allset).client j ↔ Ready round server.client j := by
  by_cases same : j = i
  · have here : (server.addClient i connfd allset).client i = connfd := Function.update_self _ _ _
    rw [same]
    refine iff_of_false (fun ready => ?_) (not_ready_of_free free)
    rw [Ready, here] at ready
    exact fresh ready.2
  · have others : (server.addClient i connfd allset).client j = server.client j :=
      Function.update_of_ne same _ _
    rw [Ready, Ready, others]

theorem readyBelow_addClient {i : Fin fdSetSize} {connfd : Int} {allset : FdSet fdSetSize}
    (free : server.free? = some i) (fresh : connfd ∉ round.rset.fds) (maxi : Int) :
    readyBelow round (server.addClient i connfd allset).client maxi =
      readyBelow round server.client maxi := by
  rw [readyBelow, readyBelow]
  simp only [ready_addClient free fresh]
  refine List.map_congr_left fun j member => ?_
  have ready : Ready round server.client j := of_decide_eq_true (List.mem_filter.mp member).2
  refine Function.update_of_ne (fun same => ?_) _ _
  rw [same] at ready
  exact not_ready_of_free free ready

/-- An iteration that is defined and reads from the clients below some slot. -/
theorem readsReady_of_below (table : Table listenfd history server) (maxi : Int)
    (defined : (server.iterate listenfd round).2 ≠ .undefined)
    (below : reads (server.iterate listenfd round).1 = readyBelow round server.client maxi) :
    ReadsReady listenfd server round ↔
      ∀ i, Ready round server.client i → (i : Int) < maxi := by
  rw [ReadsReady, below, and_iff_right defined]
  exact count_readyBelow_iff table maxi

theorem slotsBelow_zero : (slotsBelow 0 : List (Fin fdSetSize)) = [] := by
  refine List.filter_eq_nil_iff.mpr fun i _ below => ?_
  have bound := of_decide_eq_true below
  omega

/-- Reading from nobody is reading from the clients below the first slot. -/
theorem readyBelow_nil (round : Round fdSetSize) (client : Fin fdSetSize → Int) :
    readyBelow round client 0 = [] := by
  rw [readyBelow, slotsBelow_zero]
  rfl

theorem not_below_zero_iff :
    (∀ i, Ready round server.client i → (i : Int) < 0) ↔
      ∀ i, ¬ Ready round server.client i :=
  forall_congr' fun i => ⟨fun below ready => by have bound := below ready; omega,
    fun notReady ready => absurd ready notReady⟩

/-- In every state a run reaches and for everything `select` can report, the iteration reads
exactly once from every client that is ready, and from no other, if and only if the client in
the slot `maxi` is not among them or the new connection goes above that slot (and a new
connection finds a slot and has a descriptor in range). -/
theorem reads_ready_iff (run : Run (selectServer fdSetSize listenfd) history server)
    (possible : round.Possible listenfd server)
    (counted : round.nready = round.rset.fds.card) :
    ReadsReady listenfd server round ↔ ScansAll listenfd server round := by
  have table := table_of_run run
  have ways := iterates listenfd server round
  generalize calls : (server.iterate listenfd round).1 = made at ways
  generalize ends : (server.iterate listenfd round).2 = outcome at ways
  cases ways with
  | scanned quiet =>
    have enough := length_readyBelow round table.tables server.maxi
    rw [Finset.erase_eq_of_notMem quiet, readyBelow, List.length_map] at enough
    have below := reads_scan round (slotsBelow server.maxi) round.nready server
      (nodup_slotsBelow _) (by rw [counted]; exact_mod_cast enough)
    rw [readsReady_of_below table server.maxi (by rw [ends]; exact nofun)
      (by rw [calls, reads_append, below]; rfl), ScansAll, if_neg quiet]
    exact ready_below_iff table
  | full listening full =>
    rw [readsReady_of_below table 0 (by rw [ends]; exact nofun)
      (by rw [calls, readyBelow_nil]; rfl), not_below_zero_iff, ScansAll, if_pos listening, full]
  | undefined listening free outside =>
    rw [ScansAll, if_pos listening, free]
    exact ⟨fun reads => absurd ends reads.1,
      fun scans => absurd scans.1 (FdSet.set?_eq_none outside)⟩
  | @accepted listening i allset free isSet last =>
    obtain ⟨range, _⟩ := FdSet.set?_eq_some isSet
    have nobody : ∀ j, ¬ Ready round server.client j :=
      not_ready_of_alone table.tables listening (by omega)
    rw [readsReady_of_below table 0 (by rw [ends]; exact nofun)
      (by rw [calls, readyBelow_nil]; rfl), not_below_zero_iff, ScansAll, if_pos listening, free]
    exact ⟨fun _ => ⟨range, Or.inr fun ⟨j, _, ready⟩ => nobody j ready⟩, fun _ => nobody⟩
  | @both listening i allset free isSet more =>
    obtain ⟨range, _⟩ := FdSet.set?_eq_some isSet
    have fresh : round.connfd ∉ round.rset.fds :=
      fun member => possible.connfd listening (possible.rset member)
    have enough : (readyBelow round (server.addClient i round.connfd allset).client
        (server.addClient i round.connfd allset).maxi).length ≤ round.rset.fds.card - 1 := by
      rw [readyBelow_addClient free fresh, ← Finset.card_erase_of_mem listening]
      exact length_readyBelow round table.tables _
    rw [readyBelow, List.length_map] at enough
    have below := reads_scan round (slotsBelow (server.addClient i round.connfd allset).maxi)
      (round.nready - 1) (server.addClient i round.connfd allset) (nodup_slotsBelow _)
      (by rw [counted]; omega)
    have below' := below.trans (readyBelow_addClient free fresh _)
    rw [readsReady_of_below table (server.addClient i round.connfd allset).maxi
      (by rw [ends]; exact nofun)
      (by rw [calls, reads_append, below']; rfl), ScansAll, if_pos listening, free]
    show (∀ j, Ready round server.client j →
      (j : Int) < if (i : Int) > server.maxi then (i : Int) else server.maxi) ↔ _
    by_cases above : (i : Int) > server.maxi
    · rw [if_pos above]
      refine ⟨fun _ => ⟨range, Or.inl above⟩, fun _ j ready => ?_⟩
      have bound := table.below j (mem_occupied.mpr ready.1)
      omega
    · rw [if_neg above, ready_below_iff table]
      exact ⟨fun notLast => ⟨range, Or.inr notLast⟩, fun scans => scans.2.resolve_left above⟩

/-- `select` reports the client with the descriptor 4, and a line can be read from it. -/
def clientReady : Round 1024 where
  nready := 1
  rset := fourReady
  connfd := -1
  read _ := .data [97, newline]

theorem possible_clientReady {server : Server 1024} (open' : 4 ∈ server.allset.fds) :
    clientReady.Possible 3 server where
  rset := Finset.singleton_subset_iff.mpr open'
  connfd listening := absurd listening (by decide)
  read i := show [97, newline].length ≤ maxline by decide

/-- The server whose only client is in the first slot never reads from it: `maxi` is 0, and the
scan visits no slot. -/
theorem not_reads_ready_oneClient : ∃ history server,
    Run (selectServer 1024 3) history server ∧ server.client 0 = 4 ∧
      clientReady.Possible 3 server ∧ clientReady.nready = clientReady.rset.fds.card ∧
      ¬ ReadsReady 3 server clientReady := by
  refine ⟨_, oneClient, run_oneClient, rfl, possible_clientReady (by decide), rfl,
    fun exactly => ?_⟩
  have once := exactly.2 4
  have noSlot : oneClient.maxi = 0 := rfl
  rw [if_pos ⟨0, by decide, rfl⟩, Server.iterate, if_neg (by decide)] at once
  dsimp only at once
  rw [noSlot, slotsBelow_zero] at once
  cases once

/-- With another client, with the descriptor 5, in the slot after it, the same client is read
from. -/
theorem reads_ready_iff_twoClients : ∃ history server,
    Run (selectServer 1024 3) history server ∧ server.client 0 = 4 ∧ server.client 1 = 5 ∧
      ReadsReady 3 server clientReady := by
  have isSet : oneClient.allset.set? 5 = some ⟨{5, 4, 3}, by decide⟩ := rfl
  have run := run_accept run_oneClient (by decide) free?_oneClient isSet (by decide)
  refine ⟨_, _, run, rfl, rfl, (reads_ready_iff run (possible_clientReady (by decide)) rfl).mpr ?_⟩
  rw [ScansAll, if_neg (by decide)]
  rintro ⟨i, last, _, ready⟩
  have slot : i = 1 := Fin.ext (by exact_mod_cast (last.trans rfl : (i : Int) = 1))
  rw [slot] at ready
  exact absurd ready (by decide)

end Ready

end SocketProgram.SelectServer
