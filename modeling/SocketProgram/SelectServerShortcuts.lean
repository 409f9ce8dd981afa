/-
This file shows that the two early exits on `nready` change nothing about what an iteration of
the select server does. The iteration without them goes through the slots below `maxi` in any
case and never looks at `nready`.

Both exits are taken when `nready`, which starts at the number of descriptors in `rset`, has been
counted down to zero. The descriptors in the table are distinct and not the listening socket, so
by then no slot that is still to be visited can be ready: a slot that has been served is not
visited again, and the new connection is not in `rset`, which is a part of `allset` as it was
before.
-/

import SocketProgram.SelectServerScan

namespace SocketProgram.SelectServer

variable {fdSetSize : Nat}

/-! ### The iteration without the exits -/

/-- The second `for` without its `break`. -/
def scanAll (round : Round fdSetSize) :
    List (Fin fdSetSize) → Server fdSetSize → List Call × Server fdSetSize
  | [], server => ([], server)
  | i :: slots, server =>
    if server.client i < 0 then scanAll round slots server
    else if server.client i ∈ round.rset.fds then
      ((server.serve i (round.read i)).1 ++
          (scanAll round slots (server.serve i (round.read i)).2).1,
        (scanAll round slots (server.serve i (round.read i)).2).2)
    else scanAll round slots server

/-- The body of `for(;;)` with both tests of `nready` removed. -/
def Server.iterateAll (listenfd : Int) (server : Server fdSetSize) (round : Round fdSetSize) :
    List Call × Outcome fdSetSize :=
  let select := Call.select (server.maxfd + 1) round.nready
  if listenfd ∈ round.rset.fds then
    match server.free? with
    | none => ([select, .accept round.connfd, .printf "too many clients\n"], .returns (-1))
    | some i =>
      match server.allset.set? round.connfd with
      | none => ([select, .accept round.connfd, .fdSet round.connfd], .undefined)
      | some allset =>
        let server := server.addClient i round.connfd allset
        let scanned := scanAll round (slotsBelow server.maxi) server
        ([select, .accept round.connfd, .fdSet round.connfd] ++ scanned.1,
          .continues scanned.2)
  else
    let scanned := scanAll round (slotsBelow server.maxi) server
    ([select] ++ scanned.1, .continues scanned.2)

/-! ### The exits -/

section Exits

variable {listenfd : Int} {server : Server fdSetSize} {round : Round fdSetSize}

/-- Where no slot is ready, the scan does nothing. -/
theorem scanAll_of_not_ready {slots : List (Fin fdSetSize)}
    (nobody : ∀ i ∈ slots, ¬ Ready round server.client i) :
    scanAll round slots server = ([], server) := by
  induction slots with
  | nil => rfl
  | cons i slots inductionHypothesis =>
    obtain ⟨here, others⟩ := List.forall_mem_cons.mp nobody
    rw [scanAll]
    split_ifs with free ready
    · exact inductionHypothesis others
    · exact absurd ⟨Int.not_lt.mp free, ready⟩ here
    · exact inductionHypothesis others

/-- A client that is served is not among the slots behind its own, so these are ready as
before. -/
theorem ready_serve {i j : Fin fdSetSize} (different : j ≠ i) (outcome : ReadOutcome) :
    Ready round (server.serve i outcome).2.client j ↔ Ready round server.client j := by
  rw [Ready, Ready, client_serve server i outcome different]

/-- While `nready` counts all that are ready, stopping at zero is going through all the slots. -/
theorem scan_eq_scanAll (slots : List (Fin fdSetSize)) (nready : Int)
    (server : Server fdSetSize) (nodup : slots.Nodup)
    (enough : ((slots.filter (Ready round server.client)).length : Int) ≤ nready) :
    scan round slots nready server = scanAll round slots server := by
  induction slots generalizing nready server with
  | nil => rfl
  | cons i slots inductionHypothesis =>
    obtain ⟨notMem, nodup⟩ := List.nodup_cons.mp nodup
    have apart (j : Fin fdSetSize) (member : j ∈ slots) : j ≠ i :=
      fun same => notMem (same ▸ member)
    rw [scan, scanAll]
    split_ifs with free ready last
    · have skip : ¬ Ready round server.client i := fun ready => Int.not_le.mpr free ready.1
      rw [List.filter_cons_of_neg (by simpa using skip)] at enough
      exact inductionHypothesis nready server nodup enough
    · have here : Ready round server.client i := ⟨Int.not_lt.mp free, ready⟩
      rw [List.filter_cons_of_pos (by simpa using here), List.length_cons] at enough
      have none : slots.filter (Ready round server.client) = [] :=
        List.eq_nil_of_length_eq_zero (by omega)
      -- nothing is left to count, so the slots behind this one are not ready
      have nobody : ∀ j ∈ slots, ¬ Ready round (server.serve i (round.read i)).2.client j := by
        intro j member
        rw [ready_serve (apart j member)]
        simpa using List.filter_eq_nil_iff.mp none j member
      rw [scanAll_of_not_ready nobody, List.append_nil]
    · have here : Ready round server.client i := ⟨Int.not_lt.mp free, ready⟩
      rw [List.filter_cons_of_pos (by simpa using here), List.length_cons] at enough
      have same : slots.filter (Ready round (server.serve i (round.read i)).2.client) =
          slots.filter (Ready round server.client) :=
        List.filter_congr fun j member => decide_eq_decide.mpr (ready_serve (apart j member) _)
      rw [inductionHypothesis (nready - 1) _ nodup (by rw [same]; omega)]
    · have skip : ¬ Ready round server.client i := fun ready' => ready ready'.2
      rw [List.filter_cons_of_neg (by simpa using skip)] at enough
      exact inductionHypothesis nready server nodup enough

/-- The early exits are invisible. From every state whose tables agree, and for every `rset` that
`select` leaves of `allset` with `nready` the number of its descriptors, the iteration makes the
same calls in the same order and leaves the same variables as the one without the two tests of
`nready`. -/
theorem iterate_eq_iterateAll (tables : Tables listenfd server)
    (reported : round.rset.fds ⊆ server.allset.fds)
    (fresh : listenfd ∈ round.rset.fds → round.connfd ∉ server.allset.fds)
    (counted : round.nready = round.rset.fds.card) :
    server.iterate listenfd round = server.iterateAll listenfd round := by
  unfold Server.iterate Server.iterateAll
  dsimp only
  by_cases listening : listenfd ∈ round.rset.fds
  · rw [if_pos listening, if_pos listening]
    have new : round.connfd ∉ round.rset.fds := fun member => fresh listening (reported member)
    cases free : server.free? with
    | none => rfl
    | some i =>
      cases isSet : server.allset.set? round.connfd with
      | none => rfl
      | some allset =>
        dsimp only
        split_ifs with last
        · have nobody := not_ready_of_alone tables listening (by omega)
          rw [scanAll_of_not_ready fun j _ => (ready_addClient free new j).not.mpr (nobody j),
            List.append_nil]
        · have enough : (readyBelow round (server.addClient i round.connfd allset).client
              (server.addClient i round.connfd allset).maxi).length ≤
                round.rset.fds.card - 1 := by
            rw [readyBelow_addClient free new, ← Finset.card_erase_of_mem listening]
            exact length_readyBelow round tables _
          rw [readyBelow, List.length_map] at enough
          rw [scan_eq_scanAll _ _ _ (nodup_slotsBelow _) (by rw [counted]; omega)]
  · rw [if_neg listening, if_neg listening]
    have enough := length_readyBelow round tables server.maxi
    rw [Finset.erase_eq_of_notMem listening, readyBelow, List.length_map] at enough
    rw [scan_eq_scanAll _ _ _ (nodup_slotsBelow _) (by rw [counted]; exact_mod_cast enough)]

/-- With two clients, of which the first is ready, the scan that stops behind it is the whole
scan. -/
theorem iterate_eq_iterateAll_twoClients :
    let server := oneClient.addClient 1 5 ⟨{5, 4, 3}, by decide⟩
    server.iterate 3 clientReady = server.iterateAll 3 clientReady := by
  intro server
  have isSet : oneClient.allset.set? 5 = some ⟨{5, 4, 3}, by decide⟩ := rfl
  have run := run_accept run_oneClient (by decide) free?_oneClient isSet (by decide)
  exact iterate_eq_iterateAll (table_of_run run).tables (by decide)
    (fun listening => absurd listening (by decide)) rfl

end Exits

end SocketProgram.SelectServer
