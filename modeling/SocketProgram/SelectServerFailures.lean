/-
This file is about the system calls of the select server that fail. The server tests neither what
`select` returns nor what `accept` returns.

A `select` that fails leaves `rset` as it was passed, and that is `allset`: the listening socket
is in it, so the server goes on to `accept` although nobody has asked to connect. And an `accept`
that fails leaves -1 to be stored as if it were a descriptor. The free slot it is stored in holds
-1 already; but then it is given to `FD_SET`, which is undefined. Only a server with no free slot
is spared, because it returns before that.
-/

import SocketProgram.SelectServerScan

namespace SocketProgram.SelectServer

open Runs

variable {fdSetSize : Nat}

/-! ### What a failure should leave alone -/

/-- The calls that move data or connections. -/
def Call.Acts : Call → Prop
  | .accept _ | .read _ _ | .written _ _ _ | .close _ => True
  | .select _ _ | .fdSet _ | .printf _ | .fdClr _ => False

/-- The iteration is defined and ends with the tables as they were. Returning leaves them
alone. -/
def Outcome.SameTables (server : Server fdSetSize) : Outcome fdSetSize → Prop
  | .continues next => next.client = server.client ∧ next.allset = server.allset ∧
      next.maxfd = server.maxfd ∧ next.maxi = server.maxi
  | .returns _ => True
  | .undefined => False

/-- An iteration leaves the tables alone when a call fails: nothing is done after a failed
`select`, and after a failed `accept` the tables are as before and no negative descriptor has been
given to `FD_SET`. -/
structure FailsSafely (listenfd : Int) (server : Server fdSetSize) (round : Round fdSetSize) :
    Prop where
  select : round.nready = -1 → ∀ call ∈ (server.iterate listenfd round).1, ¬ call.Acts
  tables : Call.accept (-1) ∈ (server.iterate listenfd round).1 →
    (server.iterate listenfd round).2.SameTables server
  fdSet : Call.accept (-1) ∈ (server.iterate listenfd round).1 →
    ∀ fd, Call.fdSet fd ∈ (server.iterate listenfd round).1 → 0 ≤ fd

/-- `select` does not fail, and `accept` does not fail while a slot is free. -/
def Spared (listenfd : Int) (server : Server fdSetSize) (round : Round fdSetSize) : Prop :=
  round.nready ≠ -1 ∧
    (listenfd ∈ round.rset.fds → round.connfd = -1 → server.free? = none)

section Failures

variable {listenfd : Int} {history : List Call} {server : Server fdSetSize}
  {round : Round fdSetSize}

theorem accept_notMem_serve (server : Server fdSetSize) (i : Fin fdSetSize)
    (outcome : ReadOutcome) (connfd : Int) :
    Call.accept connfd ∉ (server.serve i outcome).1 := by
  unfold Server.serve
  dsimp only
  split_ifs <;> simp

/-- The second `for` accepts nothing. -/
theorem accept_notMem_scan (round : Round fdSetSize) (slots : List (Fin fdSetSize)) (nready : Int)
    (server : Server fdSetSize) (connfd : Int) :
    Call.accept connfd ∉ (scan round slots nready server).1 := by
  induction slots generalizing nready server with
  | nil => exact List.not_mem_nil
  | cons i slots inductionHypothesis =>
    rw [scan]
    split_ifs with free ready last
    · exact inductionHypothesis nready server
    · exact accept_notMem_serve server i _ connfd
    · rw [List.mem_append, not_or]
      exact ⟨accept_notMem_serve server i _ connfd, inductionHypothesis _ _⟩
    · exact inductionHypothesis nready server

/-- Where the listening socket is ready, `accept` is called. -/
theorem accept_mem_iterate (listening : listenfd ∈ round.rset.fds) :
    Call.accept round.connfd ∈ (server.iterate listenfd round).1 := by
  have ways := iterates listenfd server round
  generalize calls : (server.iterate listenfd round).1 = made at ways
  generalize ends : (server.iterate listenfd round).2 = outcome at ways
  cases ways with
  | scanned quiet => exact absurd listening quiet
  | full => simp
  | undefined => simp
  | accepted => simp
  | both => simp

/-- An accepted connection whose descriptor is in range cannot be a failed one. -/
theorem connfd_ne_of_set? {allset : FdSet fdSetSize}
    (isSet : server.allset.set? round.connfd = some allset) : round.connfd ≠ -1 := by
  obtain ⟨range, -⟩ := FdSet.set?_eq_some isSet
  omega

/-- What an iteration does that has called `accept` in vain: a server that is full returns, and
every other gives -1 to `FD_SET`. -/
theorem failed_accept (failed : Call.accept (-1) ∈ (server.iterate listenfd round).1) :
    listenfd ∈ round.rset.fds ∧ round.connfd = -1 ∧
      (server.free? = none ∧ server.iterate listenfd round =
          ([.select (server.maxfd + 1) round.nready, .accept round.connfd,
            .printf "too many clients\n"], .returns (-1)) ∨
        server.free? ≠ none ∧ server.iterate listenfd round =
          ([.select (server.maxfd + 1) round.nready, .accept round.connfd,
            .fdSet round.connfd], .undefined)) := by
  have ways := iterates listenfd server round
  generalize made : server.iterate listenfd round = iterated at ways failed ⊢
  obtain ⟨calls, outcome⟩ := iterated
  dsimp only at ways failed
  cases ways with
  | scanned quiet =>
    have absent := accept_notMem_scan round (slotsBelow server.maxi) round.nready server (-1)
    simp [absent] at failed
  | full listening full =>
    have same : -1 = round.connfd := by simpa using failed
    exact ⟨listening, same.symm, .inl ⟨full, rfl⟩⟩
  | undefined listening free outside =>
    have same : -1 = round.connfd := by simpa using failed
    exact ⟨listening, same.symm, .inr ⟨by rw [free]; exact Option.some_ne_none _, rfl⟩⟩
  | accepted listening free isSet last =>
    have same : -1 = round.connfd := by simpa using failed
    exact absurd same.symm (connfd_ne_of_set? isSet)
  | @both listening i allset free isSet more =>
    have absent := accept_notMem_scan round
      (slotsBelow (server.addClient i round.connfd allset).maxi) (round.nready - 1)
      (server.addClient i round.connfd allset) (-1)
    have same : -1 = round.connfd := by simpa [absent] using failed
    exact absurd same.symm (connfd_ne_of_set? isSet)

/-- A failed `select` is followed by `accept`, and a failed `accept` by an `FD_SET` unless no slot
is free. -/
theorem spared_of_failsSafely (run : Run (selectServer fdSetSize listenfd) history server)
    (asPassed : round.nready = -1 → round.rset = server.allset)
    (safe : FailsSafely listenfd server round) : Spared listenfd server round := by
  constructor
  · intro failed
    have listening : listenfd ∈ round.rset.fds := by
      rw [asPassed failed, (table_of_run run).allset]
      exact Finset.mem_insert_self _ _
    exact safe.select failed _ (accept_mem_iterate listening) trivial
  · intro listening failed
    have called : Call.accept (-1) ∈ (server.iterate listenfd round).1 :=
      failed ▸ accept_mem_iterate listening
    obtain ⟨-, -, ⟨full, -⟩ | ⟨-, undefined⟩⟩ := failed_accept called
    · exact full
    · have same := safe.tables called
      rw [undefined] at same
      exact same.elim

/-- In every state a run reaches, the iteration leaves the tables alone when calls fail, if and only
if `select` does not fail, and `accept` does not fail while a slot is free. -/
theorem failsSafely_iff (run : Run (selectServer fdSetSize listenfd) history server)
    (asPassed : round.nready = -1 → round.rset = server.allset) :
    FailsSafely listenfd server round ↔ Spared listenfd server round := by
  refine ⟨spared_of_failsSafely run asPassed, ?_⟩
  rintro ⟨succeeds, full⟩
  refine ⟨fun failed => absurd failed succeeds, ?_, ?_⟩
  · intro called
    obtain ⟨listening, failed, ⟨-, returns⟩ | ⟨free, -⟩⟩ := failed_accept called
    · rw [returns]
      exact trivial
    · exact absurd (full listening failed) free
  · intro called fd given
    obtain ⟨listening, failed, ⟨-, returns⟩ | ⟨free, -⟩⟩ := failed_accept called
    · rw [returns] at given
      simp at given
    · exact absurd (full listening failed) free

/-- A `select` that fails, with nobody to accept. -/
def selectFails (server : Server fdSetSize) : Round fdSetSize where
  nready := -1
  rset := server.allset
  connfd := -1
  read _ := .error .ewouldblock

/-- A client that can be read from does not disturb the tables. -/
theorem failsSafely_iff_clientReady : FailsSafely 3 oneClient clientReady :=
  (failsSafely_iff run_oneClient fun failed => absurd failed (by decide)).mpr
    ⟨by decide, fun listening => absurd listening (by decide)⟩

/-- With a single client connected, either failure disturbs them. -/
theorem not_failsSafely_oneClient : ∃ history, Run (selectServer 1024 3) history oneClient ∧
    ¬ FailsSafely 3 oneClient (selectFails oneClient) ∧
      ∃ listening : 3 ∈ oneClient.allset.fds,
        ¬ FailsSafely 3 oneClient (.accepting listening (-1)) := by
  refine ⟨_, run_oneClient, fun safe => ?_, by decide, fun safe => ?_⟩
  · exact (spared_of_failsSafely run_oneClient (fun _ => rfl) safe).1 rfl
  · have spared :=
      spared_of_failsSafely run_oneClient (fun failed => absurd failed (by decide)) safe
    have full := spared.2 (Finset.mem_singleton_self 3) rfl
    rw [free?_oneClient] at full
    cases full

end Failures

end SocketProgram.SelectServer
