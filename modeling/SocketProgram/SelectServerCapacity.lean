/-
This file is about how many clients the server of `tcpservselect01.c` can take. Two things
bound them: `client` has `FD_SETSIZE` slots, and an `fd_set` holds the descriptors below
`FD_SETSIZE`. The server looks at the first only: it stops when no slot is free.

The descriptors run out before. A process starts with the descriptors 0, 1 and 2, one more is
the listening socket, and `accept` returns the lowest that is unused. So the connection that
`accept` makes with `FD_SETSIZE`-4 clients connected has the descriptor `FD_SETSIZE`, which is
passed to `FD_SET` although it is out of range. There is a free slot for it, and there always
is one: the message `too many clients` is never printed.
-/

import SocketProgram.SelectServer

namespace SocketProgram.SelectServer

open Memory Runs FirstFit

/-! ### The descriptors of the process -/

/-- The server and the descriptors that are open in its process. -/
structure Process (fdSetSize : Nat) where
  server : Server fdSetSize
  fds : Finset Int

/-- What a call does to the open descriptors. -/
def Call.descriptors (fds : Finset Int) : Call → Finset Int
  | .accept connfd => insert connfd fds
  | .close fd => fds.erase fd
  | .select _ _ => fds
  | .fdSet _ => fds
  | .printf _ => fds
  | .read _ _ => fds
  | .fdClr _ => fds
  | .written _ _ _ => fds

variable {fdSetSize : Nat}

/-- What the environment can answer: `select` leaves some of the descriptors it was given,
`accept` returns the lowest that is not open, and `read` stores no more than it was asked for. -/
structure Round.Lowest (listenfd : Int) (process : Process fdSetSize)
    (round : Round fdSetSize) : Prop where
  rset : round.rset.fds ⊆ process.server.allset.fds
  connfd : listenfd ∈ round.rset.fds → IsLeast (unused process.fds) round.connfd
  read : ∀ i, (round.read i).Fits maxline

/-- The server in a process that has the descriptors 0, 1 and 2 and its listening socket. -/
def lowestServer (fdSetSize : Nat) (listenfd : Int) : System (Process fdSetSize) Call where
  start history process := history = [.fdSet listenfd] ∧ process.fds = {0, 1, 2, listenfd} ∧
    ∃ allset buf, FdSet.zero.set? listenfd = some allset ∧
      process.server = Server.initial listenfd allset buf
  step process calls next := ∃ round : Round fdSetSize, round.Lowest listenfd process ∧
    process.server.iterate listenfd round = (calls, .continues next.server) ∧
      next.fds = calls.foldl Call.descriptors process.fds

/-! ### What is passed to `FD_ISSET` and `FD_SET` -/

/-- The descriptors that the second `for` passes to `FD_ISSET`. -/
def tested (round : Round fdSetSize) : List (Fin fdSetSize) → Int → Server fdSetSize → List Int
  | [], _, _ => []
  | i :: slots, nready, server =>
    if server.client i < 0 then tested round slots nready server
    else
      server.client i ::
        if server.client i ∈ round.rset.fds then
          if nready - 1 ≤ 0 then []
          else tested round slots (nready - 1) (server.serve i (round.read i)).2
        else tested round slots nready server

/-- The descriptors that an iteration passes to `FD_ISSET` and `FD_SET`. -/
def Server.passed (listenfd : Int) (server : Server fdSetSize) (round : Round fdSetSize) :
    List Int :=
  if listenfd ∈ round.rset.fds then
    match server.free? with
    | none => [listenfd]
    | some i =>
      match server.allset.set? round.connfd with
      | none => [listenfd, round.connfd]
      | some allset =>
        let server := server.addClient i round.connfd allset
        if round.nready - 1 ≤ 0 then [listenfd, round.connfd]
        else
          [listenfd, round.connfd] ++
            tested round (slotsBelow server.maxi) (round.nready - 1) server
  else [listenfd] ++ tested round (slotsBelow server.maxi) round.nready server

section Table

variable {listenfd : Int} {history : List Call} {server : Server fdSetSize}

/-- A client that is connected is in `allset`. -/
theorem Table.mem_allset (table : Table listenfd history server) {i : Fin fdSetSize}
    (valid : 0 ≤ server.client i) : server.client i ∈ server.allset.fds := by
  rw [table.allset]
  exact Finset.mem_insert_of_mem (Finset.mem_image_of_mem _ (mem_occupied.mpr valid))

/-- What the second `for` tests is in range, since it is in `allset`. -/
theorem Table.tested_inRange (round : Round fdSetSize) (slots : List (Fin fdSetSize))
    (nready : Int) (table : Table listenfd history server) :
    ∀ fd ∈ tested round slots nready server, fd < fdSetSize := by
  induction slots generalizing history nready server with
  | nil => exact fun fd member => absurd member List.not_mem_nil
  | cons i slots inductionHypothesis =>
    rw [tested]
    split_ifs with free ready last
    · exact inductionHypothesis nready table
    · refine List.forall_mem_singleton.mpr ?_
      exact (server.allset.inRange _ (table.mem_allset (Int.not_lt.mp free))).2
    · refine List.forall_mem_cons.mpr ⟨?_, ?_⟩
      · exact (server.allset.inRange _ (table.mem_allset (Int.not_lt.mp free))).2
      · exact inductionHypothesis (nready - 1) (table.serve (Int.not_lt.mp free) (round.read i))
    · refine List.forall_mem_cons.mpr ⟨?_, inductionHypothesis nready table⟩
      exact (server.allset.inRange _ (table.mem_allset (Int.not_lt.mp free))).2

/-- There are as many clients as the history has accepted and not closed. -/
theorem Table.card_allset (table : Table listenfd history server) :
    (server.allset.fds.card : Int) = FirstFit.level Call.connections history + 1 := by
  have notClient : listenfd ∉ (occupied server.client).image server.client := by
    intro member
    obtain ⟨i, -, same⟩ := Finset.mem_image.mp member
    exact table.listening i same
  rw [table.allset, Finset.card_insert_of_notMem notClient,
    Finset.card_image_of_injOn table.distinct, table.level]
  norm_cast

end Table

/-! ### Open descriptors -/

/-- The open descriptors are the standard ones and those of `allset`. -/
structure Open (process : Process fdSetSize) : Prop where
  fds : process.fds = {0, 1, 2} ∪ process.server.allset.fds
  above : ∀ fd ∈ process.server.allset.fds, 2 < fd

section Open

variable {listenfd : Int} {history : List Call} {server : Server fdSetSize} {fds : Finset Int}

/-- A client that is ready is served. If its connection is closed, its descriptor is not open any
more. -/
theorem Open.serve (isOpen : Open ⟨server, fds⟩) {i : Fin fdSetSize}
    (member : server.client i ∈ server.allset.fds) (outcome : ReadOutcome) :
    Open ⟨(server.serve i outcome).2, (server.serve i outcome).1.foldl Call.descriptors fds⟩ := by
  unfold Server.serve
  dsimp only
  split_ifs with ended
  · refine ⟨?_, fun fd member' => isOpen.above fd (Finset.mem_of_mem_erase member')⟩
    have notStandard : server.client i ∉ ({0, 1, 2} : Finset Int) := by
      have above := isOpen.above _ member
      simp only [Finset.mem_insert, Finset.mem_singleton]
      omega
    show fds.erase (server.client i) = {0, 1, 2} ∪ server.allset.fds.erase (server.client i)
    rw [show fds = {0, 1, 2} ∪ server.allset.fds from isOpen.fds, Finset.erase_union_distrib,
      Finset.erase_eq_of_notMem notStandard]
  · exact ⟨isOpen.fds, isOpen.above⟩

theorem Open.scan (round : Round fdSetSize) (slots : List (Fin fdSetSize)) (nready : Int)
    (table : Table listenfd history server) (isOpen : Open ⟨server, fds⟩) :
    Open ⟨(scan round slots nready server).2,
      (scan round slots nready server).1.foldl Call.descriptors fds⟩ := by
  induction slots generalizing history nready server fds with
  | nil => exact isOpen
  | cons i slots inductionHypothesis =>
    rw [SelectServer.scan]
    split_ifs with free ready last
    · exact inductionHypothesis nready table isOpen
    · exact isOpen.serve (table.mem_allset (Int.not_lt.mp free)) (round.read i)
    · rw [List.foldl_append]
      have valid := Int.not_lt.mp free
      exact inductionHypothesis (nready - 1) (table.serve valid (round.read i))
        (isOpen.serve (table.mem_allset valid) (round.read i))
    · exact inductionHypothesis nready table isOpen

/-- A connection that is accepted has a descriptor above the standard ones. -/
theorem Open.addClient (isOpen : Open ⟨server, fds⟩) {i : Fin fdSetSize} {connfd : Int}
    {allset : FdSet fdSetSize} (isSet : server.allset.set? connfd = some allset)
    (least : IsLeast (unused fds) connfd) :
    Open ⟨server.addClient i connfd allset, insert connfd fds⟩ := by
  obtain ⟨-, same⟩ := FdSet.set?_eq_some isSet
  have fdsEq : fds = {0, 1, 2} ∪ server.allset.fds := isOpen.fds
  refine ⟨?_, ?_⟩
  · show insert connfd fds = {0, 1, 2} ∪ allset.fds
    rw [same, fdsEq, Finset.union_insert]
  · show ∀ fd ∈ allset.fds, 2 < fd
    rw [same]
    refine Finset.forall_mem_insert _ _ _ |>.mpr ⟨?_, isOpen.above⟩
    obtain ⟨nonnegative, notOpen⟩ := least.1
    simp only [fdsEq, Finset.mem_union, Finset.mem_insert, Finset.mem_singleton] at notOpen
    omega

/-- The lowest unused descriptor is one that `allset` does not have. -/
theorem Round.Lowest.possible {round : Round fdSetSize}
    (lowest : round.Lowest listenfd ⟨server, fds⟩) (isOpen : Open ⟨server, fds⟩) :
    round.Possible listenfd server := by
  refine ⟨lowest.rset, fun listening member => ?_, lowest.read⟩
  have notOpen : round.connfd ∉ fds := (lowest.connfd listening).1.2
  have fdsEq : fds = {0, 1, 2} ∪ server.allset.fds := isOpen.fds
  rw [fdsEq] at notOpen
  exact notOpen (Finset.mem_union_right _ member)

theorem Open.iterate (table : Table listenfd history server) (isOpen : Open ⟨server, fds⟩)
    {round : Round fdSetSize} (lowest : round.Lowest listenfd ⟨server, fds⟩) {calls : List Call}
    {next : Server fdSetSize}
    (iterate : server.iterate listenfd round = (calls, .continues next)) :
    Open ⟨next, calls.foldl Call.descriptors fds⟩ := by
  have ways := iterates listenfd server round
  rw [iterate] at ways
  cases ways with
  | scanned quiet => exact isOpen.scan round _ _ table
  | accepted listening free isSet last =>
    exact isOpen.addClient isSet (lowest.connfd listening)
  | @both listening i allset free isSet more =>
    have fresh := (lowest.possible isOpen).connfd listening
    exact (isOpen.addClient isSet (lowest.connfd listening)).scan round _ _
      (table.addClient free isSet fresh)

theorem open_of_run {process : Process fdSetSize} (standard : 2 < listenfd)
    (run : Run (lowestServer fdSetSize listenfd) history process) :
    Table listenfd history process.server ∧ Open process := by
  refine run.invariant
    (fun history process => Table listenfd history process.server ∧ Open process) ?_ ?_
  · rintro _ ⟨_, _⟩ ⟨rfl, rfl, allset, buf, isSet, rfl⟩
    obtain ⟨-, fds⟩ := FdSet.set?_eq_some isSet
    have only : allset.fds = {listenfd} := fds
    refine ⟨table_initial buf isSet, ?_, ?_⟩
    · show ({0, 1, 2, listenfd} : Finset Int) = {0, 1, 2} ∪ allset.fds
      rw [only]
      rfl
    · show ∀ fd ∈ allset.fds, 2 < fd
      rw [only]
      exact fun fd member => (Finset.mem_singleton.mp member).symm ▸ standard
  · rintro history ⟨server, fds⟩ calls ⟨next, nextFds⟩ ⟨table, isOpen⟩
      ⟨round, lowest, iterate, rfl⟩
    have possible := lowest.possible isOpen
    exact ⟨table.iterate possible iterate, isOpen.iterate table lowest iterate⟩

/-- All the descriptors below `FD_SETSIZE` are open when there are only four fewer clients. -/
theorem outside_iff (table : Table listenfd history server) (isOpen : Open ⟨server, fds⟩)
    {connfd : Int} (least : IsLeast (unused fds) connfd) :
    fdSetSize ≤ connfd ↔ fdSetSize ≤ level Call.connections history + 4 := by
  have fdsEq : fds = {0, 1, 2} ∪ server.allset.fds := isOpen.fds
  have listening : listenfd ∈ server.allset.fds := by
    rw [table.allset]
    exact Finset.mem_insert_self _ _
  have range := (server.allset.inRange _ listening).2
  have aboveStandard := isOpen.above _ listening
  have inside : ∀ fd ∈ fds, 0 ≤ fd ∧ fd < fdSetSize := by
    rw [fdsEq]
    intro fd member
    rcases Finset.mem_union.mp member with standard | connected
    · simp only [Finset.mem_insert, Finset.mem_singleton] at standard
      omega
    · exact server.allset.inRange fd connected
  have apart : Disjoint ({0, 1, 2} : Finset Int) server.allset.fds := by
    refine Finset.disjoint_left.mpr fun fd standard connected => ?_
    have above := isOpen.above fd connected
    simp only [Finset.mem_insert, Finset.mem_singleton] at standard
    omega
  have few := card_le_size inside
  have cards := table.card_allset
  have three : fds.card = 3 + server.allset.fds.card := by
    rw [fdsEq, Finset.card_union_of_disjoint apart]
    rfl
  rw [size_le_lowest_iff inside least]
  omega

end Open

/-! ### The capacity -/

section Capacity

variable {listenfd : Int} {history : List Call} {process : Process fdSetSize}

/-- There are fewer clients than slots, so that one is free. -/
theorem exists_free (table : Table listenfd history process.server) (isOpen : Open process) :
    ∃ i, process.server.free? = some i := by
  cases free : process.server.free? with
  | some i => exact ⟨i, rfl⟩
  | none =>
    have every : ∀ i, i ∈ occupied process.server.client := by
      intro i
      refine mem_occupied.mpr (Int.not_lt.mp ?_)
      exact of_decide_eq_false (Fin.find?_eq_none_iff.mp free i)
    have full : (occupied process.server.client).card = fdSetSize := by
      rw [Finset.eq_univ_iff_forall.mpr every, Finset.card_univ, Fintype.card_fin]
    have range : process.server.allset.fds ⊆ Finset.Ico 3 (fdSetSize : Int) := fun fd member =>
      Finset.mem_Ico.mpr ⟨isOpen.above fd member, (process.server.allset.inRange fd member).2⟩
    have few := Finset.card_le_card range
    have cards := table.card_allset
    rw [table.level, full] at cards
    rw [Int.card_Ico] at few
    omega

theorem passed_inRange (table : Table listenfd history process.server) (isOpen : Open process)
    {round : Round fdSetSize} (lowest : round.Lowest listenfd process) :
    (∀ fd ∈ process.server.passed listenfd round, fd < fdSetSize) ↔
      (listenfd ∈ round.rset.fds → level Call.connections history + 4 < fdSetSize) := by
  obtain ⟨i, free⟩ := exists_free table isOpen
  obtain ⟨server, fds⟩ := process
  have listenfdInRange : listenfd < fdSetSize :=
    (server.allset.inRange _ (table.allset ▸ Finset.mem_insert_self _ _)).2
  by_cases listening : listenfd ∈ round.rset.fds
  · have least := lowest.connfd listening
    have outside := outside_iff table isOpen least
    cases isSet : server.allset.set? round.connfd with
    | none =>
      have range := FdSet.set?_eq_none isSet
      have nonnegative : 0 ≤ round.connfd := least.1.1
      simp only [Server.passed, if_pos listening, free, isSet]
      constructor
      · intro inRange
        exact absurd ⟨nonnegative, inRange round.connfd (by simp)⟩ range
      · intro fewer
        have few := fewer listening
        omega
    | some allset =>
      obtain ⟨⟨-, inRange⟩, -⟩ := FdSet.set?_eq_some isSet
      have fresh := (lowest.possible isOpen).connfd listening
      have both : ∀ fd ∈ [listenfd, round.connfd], fd < fdSetSize :=
        List.forall_mem_cons.mpr ⟨listenfdInRange, List.forall_mem_singleton.mpr inRange⟩
      simp only [Server.passed, if_pos listening, free, isSet]
      refine iff_of_true ?_ fun _ => by omega
      split_ifs with last
      · exact both
      · refine List.forall_mem_append.mpr ⟨both, ?_⟩
        exact (table.addClient free isSet fresh).tested_inRange round _ _
  · simp only [Server.passed, if_neg listening]
    refine iff_of_true ?_ fun ready => absurd ready listening
    exact List.forall_mem_cons.mpr ⟨listenfdInRange, table.tested_inRange round _ _⟩

/-- Whatever the clients do and whatever `select` reports: the descriptors an iteration passes to
`FD_ISSET` and `FD_SET` are all in range if and only if no connection is accepted in it when there
are `FD_SETSIZE`-4 clients. The server never stops with `too many clients`. -/
theorem passed_inRange_iff (standard : 2 < listenfd)
    (run : Run (lowestServer fdSetSize listenfd) history process) {round : Round fdSetSize}
    (lowest : round.Lowest listenfd process) :
    ((∀ fd ∈ process.server.passed listenfd round, fd < fdSetSize) ↔
      (listenfd ∈ round.rset.fds → level Call.connections history + 4 < fdSetSize)) ∧
    ∀ status, (process.server.iterate listenfd round).2 ≠ .returns status := by
  obtain ⟨table, isOpen⟩ := open_of_run standard run
  refine ⟨passed_inRange table isOpen lowest, fun status returns => ?_⟩
  have ways := iterates listenfd process.server round
  generalize process.server.iterate listenfd round = result at ways returns
  obtain ⟨calls, outcome⟩ := result
  cases returns
  cases ways with
  | full listening full =>
    obtain ⟨i, free⟩ := exists_free table isOpen
    rw [free] at full
    cases full

/-! ### As many clients as fit -/

theorem lowest_accepting (listening : listenfd ∈ process.server.allset.fds) {connfd : Int}
    (least : IsLeast (unused process.fds) connfd) :
    (Round.accepting listening connfd).Lowest listenfd process :=
  ⟨Finset.singleton_subset_iff.mpr listening, fun _ => least, fun _ => Nat.zero_le _⟩

/-- A connection can always come, and `accept` returns the lowest descriptor that is not open. -/
theorem exists_accepting (table : Table listenfd history process.server) :
    ∃ (listening : listenfd ∈ process.server.allset.fds) (connfd : Int),
      IsLeast (unused process.fds) connfd ∧
        (Round.accepting listening connfd).Lowest listenfd process := by
  obtain ⟨connfd, least⟩ := exists_lowest process.fds
  have listening : listenfd ∈ process.server.allset.fds := table.allset ▸ Finset.mem_insert_self _ _
  exact ⟨listening, connfd, least, lowest_accepting listening least⟩

/-- Clients that connect one after the other and stay. -/
theorem exists_run (standard : 2 < listenfd) (inRange : listenfd < fdSetSize) (clients : Nat)
    (fit : clients + 4 ≤ fdSetSize) :
    ∃ history process, Run (lowestServer fdSetSize listenfd) history process ∧
      level Call.connections history = clients := by
  induction clients with
  | zero =>
    cases isSet : (FdSet.zero : FdSet fdSetSize).set? listenfd with
    | none => exact absurd ⟨by omega, inRange⟩ (FdSet.set?_eq_none isSet)
    | some allset =>
      exact ⟨_, ⟨.initial listenfd allset [], {0, 1, 2, listenfd}⟩,
        .start ⟨rfl, rfl, allset, [], isSet, rfl⟩, rfl⟩
  | succ clients inductionHypothesis =>
    obtain ⟨history, process, run, connected⟩ := inductionHypothesis (by omega)
    obtain ⟨table, isOpen⟩ := open_of_run standard run
    obtain ⟨i, free⟩ := exists_free table isOpen
    obtain ⟨listening, connfd, least, lowest⟩ := exists_accepting table
    have outside := outside_iff table isOpen least
    cases isSet : process.server.allset.set? connfd with
    | none =>
      exact absurd ⟨least.1.1, by omega⟩ (FdSet.set?_eq_none isSet)
    | some allset =>
      refine ⟨_, ⟨process.server.addClient i connfd allset, insert connfd process.fds⟩, run.step
        ⟨.accepting listening connfd, lowest, iterate_accepting listening free isSet, rfl⟩, ?_⟩
      rw [level, List.map_append, List.sum_append]
      show level Call.connections history + 1 = _
      rw [connected]
      rfl

/-- With 1019 clients there is still a descriptor in range for another. -/
theorem passed_inRange_iff_another : ∃ history process,
    Run (lowestServer 1024 3) history process ∧ level Call.connections history = 1019 ∧
      ∃ (listening : 3 ∈ process.server.allset.fds) (connfd : Int),
        (∀ fd ∈ process.server.passed 3 (.accepting listening connfd), fd < (1024 : Nat)) ∧
        ∀ status, (process.server.iterate 3 (.accepting listening connfd)).2 ≠
          .returns status := by
  have standard : (2 : Int) < 3 := by decide
  have inRange : (3 : Int) < (1024 : Nat) := by decide
  obtain ⟨history, process, run, connected⟩ := exists_run standard inRange 1019 (by decide)
  obtain ⟨table, isOpen⟩ := open_of_run standard run
  obtain ⟨listening, connfd, -, lowest⟩ := exists_accepting table
  obtain ⟨passed, returns⟩ := passed_inRange_iff standard run lowest
  exact ⟨history, process, run, connected, listening, connfd,
    passed.mpr fun _ => by rw [connected]; decide, returns⟩

/-- With 1020 clients the descriptors up to 1023 are open, and the next connection gets 1024. -/
theorem not_passed_inRange : ¬ ∀ history (process : Process 1024),
    Run (lowestServer 1024 3) history process →
      ∀ round : Round 1024, round.Lowest 3 process →
        ∀ fd ∈ process.server.passed 3 round, fd < (1024 : Nat) := by
  intro inRange
  have standard : (2 : Int) < 3 := by decide
  have three : (3 : Int) < (1024 : Nat) := by decide
  obtain ⟨history, process, run, connected⟩ := exists_run standard three 1020 (by decide)
  obtain ⟨table, isOpen⟩ := open_of_run standard run
  obtain ⟨listening, connfd, -, lowest⟩ := exists_accepting table
  have all := inRange history process run _ lowest
  have fewer := (passed_inRange table isOpen lowest).mp all (Finset.mem_singleton_self 3)
  omega

end Capacity

end SocketProgram.SelectServer
