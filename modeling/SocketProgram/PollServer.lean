/-
This file models the echo server of `tcpcliservpoll01.c` and what it does with its table
of clients. One process serves all its clients: it waits in `poll` for the slots up to
`maxi`, accepts a connection into the first free slot, and goes through the slots.

The search for the free slot leaves its loop by `break` as soon as it has stored the
descriptor, so the rest of its body, which was meant for the new slot, runs for the slots
it has passed instead. The new slot gets no events and `maxi` stays below it. Therefore,
once something has been accepted, there is a client above `maxi` in every state, or one
that found no slot and was dropped, for which nothing is printed either.
-/

import Mathlib.Algebra.Group.Int.Defs
import Mathlib.Data.Finset.Basic
import SocketProgram.Kernel
import SocketProgram.Library.Runs

namespace SocketProgram.PollServer

open Memory Runs

/-! ### The source -/

/-- `POLLRDNORM`. -/
def pollrdnorm : Nat := 0x040

/-- `POLLERR`. -/
def pollerr : Nat := 0x008

/-- `ECONNRESET`. -/
def econnreset : Errno := .other 104

/-- An `int` and a mask of bits, with `&`. -/
def band (value : Int) (mask : Nat) : Nat := (value % 2 ^ 32).toNat &&& mask

/-- `struct pollfd`, without what `poll` returns in it. -/
structure Pollfd where
  fd : Int
  events : Nat
  deriving DecidableEq, Repr

/-- The calls the server makes, with what the environment answered. -/
inductive Call
  | poll (nfds : Nat) (nready : Int)
  | accept (connfd : Int)
  | printf (text : String)
  | read (fd : Int) (outcome : ReadOutcome)
  | close (fd : Int)
  | written (fd : Int) (buf : List Byte) (n : Nat)
  deriving DecidableEq, Repr

/-- The variables of `main` that live across iterations. -/
structure Server where
  client : Nat → Pollfd
  maxi : Nat
  buf : List Byte

/-- What the system calls of one iteration return: `nready` and the `revents` of every slot after
`poll`, `connfd` from `accept`, and what `read` gives on the descriptor in each slot. -/
structure Round where
  nready : Int
  revents : Nat → Nat
  connfd : Int
  read : Nat → ReadOutcome

/-- How the body of the loop ends. -/
inductive Outcome
  | continues (server : Server)
  | returns (status : Int)

/-- A descriptor is stored in a slot. -/
def Server.setFd (server : Server) (i : Nat) (fd : Int) : Server :=
  { server with
    client := Function.update server.client i { server.client i with fd := fd } }

/-- The rest of the body of the first `for`, for a slot that is not free. -/
def Server.pass (server : Server) (i : Nat) : Server :=
  { server with
    client := Function.update server.client i { server.client i with events := pollrdnorm }
    maxi := if server.maxi < i then i else server.maxi }

/-- The first `for`, over the slots it has still to visit: the table and `nready` it leaves.
`none` when it has found too many clients. -/
def search (openMax : Nat) (connfd : Int) : List Nat → Int → Server → Option (Server × Int)
  | [], nready, server => some (server, nready)
  | i :: slots, nready, server =>
    if (server.client i).fd < 0 then some (server.setFd i connfd, nready)
    else if i = openMax then none
    else search openMax connfd slots (nready - 1) (server.pass i)

/-- The body of the second `for`, for a slot that is ready. -/
def Server.serve (server : Server) (i : Nat) (outcome : ReadOutcome) : List Call × Outcome :=
  let sockfd := (server.client i).fd
  let server := { server with buf := overwrite server.buf 0 outcome.bytes }
  if outcome.value < 0 then
    if outcome.errno? = some econnreset then
      ([.read sockfd outcome, .close sockfd], .continues (server.setFd i (-1)))
    else ([.read sockfd outcome, .printf "read error \n"], .returns (-1))
  else if outcome.value = 0 then
    ([.read sockfd outcome, .close sockfd], .continues (server.setFd i (-1)))
  else ([.read sockfd outcome, .written sockfd server.buf outcome.value.toNat], .continues server)

/-- The second `for`, over the slots it has still to visit. -/
def scan (round : Round) : List Nat → Int → Server → List Call × Outcome
  | [], _, server => ([], .continues server)
  | i :: slots, nready, server =>
    if (server.client i).fd < 0 then scan round slots nready server
    else if round.revents i &&& (pollrdnorm ||| pollerr) ≠ 0 then
      match server.serve i (round.read i) with
      | (calls, .returns status) => (calls, .returns status)
      | (calls, .continues next) =>
        if nready - 1 ≤ 0 then (calls, .continues next)
        else (calls ++ (scan round slots (nready - 1) next).1,
          (scan round slots (nready - 1) next).2)
    else scan round slots nready server

/-- The slots of `for(i=1;i<OPEN_MAX;i++)`. -/
def clientSlots (openMax : Nat) : List Nat := List.range' 1 (openMax - 1)

/-- The slots of `for(i=1;i<=maxi;i++)`. -/
def Server.slots (server : Server) : List Nat := List.range' 1 server.maxi

/-- The body of `for(;;)`. -/
def Server.iterate (openMax : Nat) (server : Server) (round : Round) : List Call × Outcome :=
  let poll := Call.poll (server.maxi + 1) round.nready
  if band (server.client 0).fd pollrdnorm ≠ 0 then
    match search openMax round.connfd (clientSlots openMax) round.nready server with
    | none => ([poll, .accept round.connfd, .printf "too many clients \n"], .returns (-1))
    | some (server, nready) =>
      ([poll, .accept round.connfd] ++ (scan round server.slots nready server).1,
        (scan round server.slots nready server).2)
  else ([poll], .continues server)

/-! ### The first loop -/

/-- How many of some slots are not free before the first that is. -/
def passed (client : Nat → Pollfd) (slots : List Nat) : Nat :=
  (slots.takeWhile fun i => decide (0 ≤ (client i).fd)).length

@[simp]
theorem setFd_fd (server : Server) (i : Nat) (fd : Int) (j : Nat) :
    ((server.setFd i fd).client j).fd = if j = i then fd else (server.client j).fd := by
  show (Function.update server.client i _ j).fd = _
  rw [Function.update_apply]
  split_ifs <;> rfl

@[simp]
theorem pass_fd (server : Server) (i j : Nat) :
    ((server.pass i).client j).fd = (server.client j).fd := by
  show (Function.update server.client i _ j).fd = _
  rw [Function.update_apply]
  split_ifs with same
  · rw [same]
  · rfl

theorem passed_nil (client : Nat → Pollfd) : passed client [] = 0 := rfl

theorem passed_free {client : Nat → Pollfd} {i : Nat} (free : (client i).fd < 0)
    (slots : List Nat) : passed client (i :: slots) = 0 := by
  rw [passed, List.takeWhile_cons_of_neg (by simpa using free)]
  rfl

theorem passed_filled {client : Nat → Pollfd} {i : Nat} (filled : ¬ (client i).fd < 0)
    (slots : List Nat) : passed client (i :: slots) = passed client slots + 1 := by
  rw [passed, List.takeWhile_cons_of_pos (by simpa using filled)]
  rfl

/-- Passing a slot does not fill or free any. -/
theorem passed_pass (server : Server) (i : Nat) (slots : List Nat) :
    passed (server.pass i).client slots = passed server.client slots := by
  unfold passed
  refine congrArg (fun free => (slots.takeWhile free).length) (funext fun j => ?_)
  rw [pass_fd]

/-- What the first loop leaves, when it started with slot `i` and had `left` slots to visit. -/
structure Searched (connfd : Int) (i left : Nat) (server next : Server) : Prop where
  fd : ∀ j, (next.client j).fd =
    if j = i + passed server.client (List.range' i left) ∧
      passed server.client (List.range' i left) < left then connfd else (server.client j).fd
  maxi : next.maxi =
    if passed server.client (List.range' i left) = 0 then server.maxi
    else max server.maxi (i + passed server.client (List.range' i left) - 1)

/-- The first loop always comes to its end, stores the descriptor in the first free slot if
there is one, and counts the slots it has passed. -/
theorem search_eq (openMax : Nat) (connfd : Int) (i left : Nat) (nready : Int) (server : Server)
    (inside : i + left = openMax) :
    ∃ next, search openMax connfd (List.range' i left) nready server =
        some (next, nready - passed server.client (List.range' i left)) ∧
      Searched connfd i left server next := by
  induction left generalizing i nready server with
  | zero =>
    refine ⟨server, ?_, ?_, ?_⟩
    · show some (server, nready) = some (server, nready - 0)
      rw [Int.sub_zero]
    · intro j
      rw [if_neg (fun both => Nat.not_lt_zero _ both.2)]
    · rfl
  | succ left inductionHypothesis =>
    rw [List.range'_succ, search]
    by_cases free : (server.client i).fd < 0
    · rw [if_pos free, passed_free free]
      refine ⟨server.setFd i connfd, by rw [Int.natCast_zero, Int.sub_zero], ?_, ?_⟩
      · intro j
        rw [List.range'_succ, passed_free free, setFd_fd]
        simp only [Nat.add_zero, Nat.zero_lt_succ, and_true]
      · rw [List.range'_succ, passed_free free]
        rfl
    · rw [if_neg free, if_neg (by omega), passed_filled free]
      obtain ⟨next, searched, fd, maxi⟩ := inductionHypothesis (i + 1) (nready - 1)
        (server.pass i) (by omega)
      rw [passed_pass] at searched fd maxi
      refine ⟨next, ?_, ?_, ?_⟩
      · rw [searched, Int.natCast_add, Int.natCast_one]
        refine congrArg (fun left => some (next, left)) ?_
        omega
      · intro j
        rw [fd j, List.range'_succ, passed_filled free, pass_fd]
        refine if_congr ?_ rfl rfl
        omega
      · rw [maxi, List.range'_succ, passed_filled free]
        have raised : (server.pass i).maxi = max server.maxi i := by
          show (if server.maxi < i then i else server.maxi) = _
          split_ifs <;> omega
        rw [raised]
        generalize passed server.client (List.range' (i + 1) left) = count
        rw [if_neg (Nat.succ_ne_zero count)]
        split_ifs <;> omega

/-- The slots the first loop passes are not free, and the one it stops at is. -/
theorem passed_spec (client : Nat → Pollfd) (i left : Nat) :
    passed client (List.range' i left) ≤ left ∧
    (∀ j, i ≤ j → j < i + passed client (List.range' i left) → ¬ (client j).fd < 0) ∧
    (passed client (List.range' i left) < left →
      (client (i + passed client (List.range' i left))).fd < 0) := by
  induction left generalizing i with
  | zero =>
    rw [List.range'_zero, passed_nil]
    refine ⟨Nat.le_refl 0, fun j from_ below => ?_, fun below => absurd below (Nat.lt_irrefl 0)⟩
    omega
  | succ left inductionHypothesis =>
    rw [List.range'_succ]
    by_cases free : (client i).fd < 0
    · rw [passed_free free]
      exact ⟨Nat.zero_le _, fun j from_ below => by omega, fun _ => free⟩
    · rw [passed_filled free]
      obtain ⟨bound, filled, stops⟩ := inductionHypothesis (i + 1)
      generalize passed client (List.range' (i + 1) left) = count at bound filled stops ⊢
      refine ⟨Nat.succ_le_succ bound, fun j from_ below => ?_, fun below => ?_⟩
      · by_cases first : j = i
        · rw [first]
          exact free
        · exact filled j (by omega) (by omega)
      · rw [show i + (count + 1) = i + 1 + count by omega]
        exact stops (Nat.lt_of_succ_lt_succ below)

/-! ### The second loop -/

/-- Serving a slot fills none, and leaves the marks as they are. -/
structure Served (server next : Server) : Prop where
  fd : ∀ j, (next.client j).fd = (server.client j).fd ∨ (next.client j).fd < 0
  maxi : next.maxi = server.maxi

theorem Served.trans {server middle next : Server} (first : Served server middle)
    (second : Served middle next) : Served server next where
  fd j := by
    rcases second.fd j with same | free
    · rw [same]
      exact first.fd j
    · exact .inr free
  maxi := second.maxi.trans first.maxi

/-- A slot that was free stays free. -/
theorem Served.free {server next : Server} (served : Served server next) {j : Nat}
    (free : (server.client j).fd < 0) : (next.client j).fd < 0 := by
  rcases served.fd j with same | freed
  · rw [same]
    exact free
  · exact freed

theorem served_setFd (server : Server) (buf : List Byte) (i : Nat) :
    Served server (Server.setFd { server with buf := buf } i (-1)) where
  fd j := by
    rw [setFd_fd]
    split_ifs
    · exact .inr (Int.negSucc_lt_zero 0)
    · exact .inl rfl
  maxi := rfl

theorem serve_served {server next : Server} {i : Nat} {outcome : ReadOutcome} {calls : List Call}
    (serves : server.serve i outcome = (calls, .continues next)) : Served server next := by
  unfold Server.serve at serves
  dsimp only at serves
  split_ifs at serves
  · cases serves
    exact served_setFd server _ i
  · cases serves
  · cases serves
    exact served_setFd server _ i
  · cases serves
    exact ⟨fun j => .inl rfl, rfl⟩

theorem scan_served {round : Round} {slots : List Nat} {nready : Int} {server next : Server}
    {calls : List Call} (scans : scan round slots nready server = (calls, .continues next)) :
    Served server next := by
  induction slots generalizing nready server calls with
  | nil =>
    cases scans
    exact ⟨fun j => .inl rfl, rfl⟩
  | cons i slots inductionHypothesis =>
    rw [scan] at scans
    by_cases free : (server.client i).fd < 0
    · rw [if_pos free] at scans
      exact inductionHypothesis scans
    rw [if_neg free] at scans
    by_cases ready : round.revents i &&& (pollrdnorm ||| pollerr) = 0
    · rw [if_neg (not_not.mpr ready)] at scans
      exact inductionHypothesis scans
    rw [if_pos ready] at scans
    cases serves : server.serve i (round.read i) with
    | mk before outcome =>
      rw [serves] at scans
      cases outcome with
      | returns status => cases scans
      | continues middle =>
        have first : Served server middle := serve_served serves
        dsimp only at scans
        by_cases last : nready - 1 ≤ 0
        · rw [if_pos last] at scans
          cases scans
          exact first
        · rw [if_neg last] at scans
          obtain ⟨-, rest⟩ := Prod.mk.inj scans
          exact first.trans (inductionHypothesis (Prod.ext rfl rest))

/-! ### One iteration -/

/-- The ways an iteration can go on. -/
inductive Iterates (openMax : Nat) (server : Server) (round : Round) : List Call → Server → Prop
  | quiet (idle : band (server.client 0).fd pollrdnorm = 0) :
      Iterates openMax server round [.poll (server.maxi + 1) round.nready] server
  | accepted {searched next : Server} {calls : List Call}
      (listening : band (server.client 0).fd pollrdnorm ≠ 0)
      (found : Searched round.connfd 1 (openMax - 1) server searched)
      (scans : scan round searched.slots
        (round.nready - passed server.client (clientSlots openMax)) searched =
          (calls, .continues next)) :
      Iterates openMax server round
        ([.poll (server.maxi + 1) round.nready, .accept round.connfd] ++ calls) next

/-- Without the bit in the descriptor of the listening socket the iteration does nothing. -/
theorem iterate_quiet {openMax : Nat} {server : Server} {round : Round}
    (idle : band (server.client 0).fd pollrdnorm = 0) :
    server.iterate openMax round =
      ([.poll (server.maxi + 1) round.nready], .continues server) := by
  rw [Server.iterate, if_neg (not_not.mpr idle)]

/-- With it the iteration accepts, searches and goes through the slots. -/
theorem iterate_accepting {openMax : Nat} (positive : 0 < openMax) {server : Server}
    (round : Round) (listening : band (server.client 0).fd pollrdnorm ≠ 0) :
    ∃ searched, Searched round.connfd 1 (openMax - 1) server searched ∧
      server.iterate openMax round =
        ([.poll (server.maxi + 1) round.nready, .accept round.connfd] ++
          (scan round searched.slots
            (round.nready - passed server.client (clientSlots openMax)) searched).1,
          (scan round searched.slots
            (round.nready - passed server.client (clientSlots openMax)) searched).2) := by
  obtain ⟨searched, finds, found⟩ :=
    search_eq openMax round.connfd 1 (openMax - 1) round.nready server (by omega)
  refine ⟨searched, found, ?_⟩
  rw [Server.iterate, if_pos listening, clientSlots, finds]

theorem iterates {openMax : Nat} (positive : 0 < openMax) {server next : Server} {round : Round}
    {calls : List Call} (steps : server.iterate openMax round = (calls, .continues next)) :
    Iterates openMax server round calls next := by
  by_cases listening : band (server.client 0).fd pollrdnorm = 0
  · rw [iterate_quiet listening] at steps
    cases steps
    exact .quiet listening
  · obtain ⟨searched, found, iterate⟩ := iterate_accepting positive round listening
    rw [iterate] at steps
    obtain ⟨rfl, ends⟩ := Prod.mk.inj steps
    exact .accepted listening found (Prod.ext rfl ends)

/-! ### Runs -/

/-- What the environment can answer: `poll` has nothing to say of a free slot, `accept` does not
return a descriptor that is in the table, and `read` stores no more than it was asked for. -/
structure Round.Possible (openMax : Nat) (server : Server) (round : Round) : Prop where
  revents : ∀ i, i ≤ server.maxi → (server.client i).fd < 0 → round.revents i = 0
  connfd : ∀ i, i < openMax → 0 ≤ round.connfd → (server.client i).fd ≠ round.connfd
  read : ∀ i, (round.read i).Fits maxline

/-- The variables at the first iteration. -/
structure Server.Initial (openMax : Nat) (listenfd : Int) (server : Server) : Prop where
  listening : server.client 0 = ⟨listenfd, pollrdnorm⟩
  available : ∀ i, 1 ≤ i → i < openMax → (server.client i).fd = -1
  maxi : server.maxi = 0

/-- The server on this listening socket, from one iteration to the next. -/
def pollServer (openMax : Nat) (listenfd : Int) : System Server Call where
  start history server := history = [] ∧ server.Initial openMax listenfd
  step server calls next := ∃ round : Round, round.Possible openMax server ∧
    server.iterate openMax round = (calls, .continues next)

/-- What one call does to the connections that are accepted and not closed. -/
def connect (connected : Finset Int) : Call → Finset Int
  | .accept connfd => if connfd < 0 then connected else insert connfd connected
  | .close fd => connected.erase fd
  | _ => connected

/-- The connections that are accepted and not closed. -/
def connections (history : List Call) : Finset Int := history.foldl connect ∅

/-- What the comments of the source say of the table: every connection has one slot, which is
polled, and `maxi` is the highest that is used. A connection without a slot is reported. -/
structure Registered (openMax : Nat) (history : List Call) (server : Server) : Prop where
  slot : .printf "too many clients \n" ∈ history ∨ ∀ fd ∈ connections history,
    ∃ i, 1 ≤ i ∧ i ≤ server.maxi ∧ server.client i = ⟨fd, pollrdnorm⟩ ∧
      ∀ j, 1 ≤ j → j < openMax → (server.client j).fd = fd → j = i
  maxi : server.maxi < openMax
  above : ∀ i, server.maxi < i → i < openMax → (server.client i).fd < 0

/-! ### Registration -/

/-- The calls of an iteration in which nothing is accepted and nothing is read. -/
def Call.Idle : Call → Prop
  | .poll _ _ => True
  | .accept connfd => connfd < 0
  | _ => False

theorem connect_idle {call : Call} (idle : call.Idle) (connected : Finset Int) :
    connect connected call = connected := by
  cases call with
  | poll nfds nready => rfl
  | accept connfd => exact if_pos idle
  | printf text => exact idle.elim
  | read fd outcome => exact idle.elim
  | close fd => exact idle.elim
  | written fd buf n => exact idle.elim

theorem connections_idle {history : List Call} (idle : ∀ call ∈ history, call.Idle) :
    connections history = ∅ := by
  induction history using List.reverseRecOn with
  | nil => rfl
  | append_singleton history call inductionHypothesis =>
    rw [connections, List.foldl_append]
    have before : history.foldl connect ∅ = ∅ :=
      inductionHypothesis fun earlier member => idle earlier (List.mem_append_left _ member)
    rw [before]
    exact connect_idle (idle call List.mem_concat_self) ∅

/-- The state of the server as long as it has accepted nothing. -/
structure Vacant (openMax : Nat) (history : List Call) (server : Server) : Prop where
  idle : ∀ call ∈ history, call.Idle
  available : ∀ i, 1 ≤ i → i < openMax → (server.client i).fd < 0
  maxi : server.maxi = 0

/-- While nothing has been accepted, every connection there is has its slot. -/
theorem Vacant.registered {openMax : Nat} (positive : 0 < openMax) {history : List Call}
    {server : Server} (vacant : Vacant openMax history server) :
    Registered openMax history server where
  slot := by
    refine .inr fun fd member => ?_
    rw [connections_idle vacant.idle] at member
    exact absurd member (Finset.notMem_empty fd)
  maxi := by
    rw [vacant.maxi]
    exact positive
  above i above below := by
    rw [vacant.maxi] at above
    exact vacant.available i above below

/-- The first connection is stored in the first slot and `maxi` stays below it. -/
theorem Vacant.iterates {openMax : Nat} {history calls : List Call} {server next : Server}
    {round : Round} (vacant : Vacant openMax history server)
    (iterates : Iterates openMax server round calls next) :
    next.maxi = 0 ∧
    ((calls = [.poll 1 round.nready] ∧ ∀ i, (next.client i).fd = (server.client i).fd) ∨
      (calls = [.poll 1 round.nready, .accept round.connfd] ∧
        ∀ i, (next.client i).fd = round.connfd ∨ (next.client i).fd = (server.client i).fd)) := by
  cases iterates with
  | quiet idle =>
    rw [vacant.maxi]
    exact ⟨rfl, .inl ⟨rfl, fun i => rfl⟩⟩
  | @accepted searched _ calls listening found scans =>
    have none_passed : passed server.client (List.range' 1 (openMax - 1)) = 0 := by
      obtain ⟨bound, filled, -⟩ := passed_spec server.client 1 (openMax - 1)
      generalize passed server.client (List.range' 1 (openMax - 1)) = count at bound filled
      rcases Nat.eq_zero_or_pos count with zero | some
      · exact zero
      · exact absurd (vacant.available 1 (Nat.le_refl 1) (by omega))
          (filled 1 (Nat.le_refl 1) (by omega))
    have unmoved : searched.maxi = 0 := by
      rw [found.maxi, if_pos none_passed]
      exact vacant.maxi
    rw [Server.slots, unmoved, List.range'_zero] at scans
    cases scans
    rw [vacant.maxi]
    refine ⟨unmoved, .inr ⟨rfl, fun i => ?_⟩⟩
    rw [found.fd i]
    split_ifs
    · exact .inl rfl
    · exact .inr rfl

theorem Vacant.step {openMax : Nat} {history calls : List Call} {server next : Server}
    {round : Round} (vacant : Vacant openMax history server)
    (iterates : Iterates openMax server round calls next)
    (refused : ∀ connfd, Call.accept connfd ∈ calls → connfd < 0) :
    Vacant openMax (history ++ calls) next := by
  obtain ⟨maxi, ⟨rfl, kept⟩ | ⟨rfl, kept⟩⟩ := vacant.iterates iterates
  · refine ⟨fun call member => ?_, fun i above below => ?_, maxi⟩
    · rcases List.mem_append.mp member with earlier | last
      · exact vacant.idle call earlier
      · rw [List.mem_singleton.mp last]
        exact True.intro
    · rw [kept i]
      exact vacant.available i above below
  · have failed : round.connfd < 0 :=
      refused _ (List.mem_cons_of_mem _ List.mem_cons_self)
    refine ⟨fun call member => ?_, fun i above below => ?_, maxi⟩
    · rcases List.mem_append.mp member with earlier | last
      · exact vacant.idle call earlier
      · rcases List.mem_cons.mp last with rfl | accept
        · exact True.intro
        · rw [List.mem_singleton.mp accept]
          exact failed
    · rcases kept i with new | same
      · rw [new]
        exact failed
      · rw [same]
        exact vacant.available i above below

theorem vacant_start {openMax : Nat} {listenfd : Int} {history : List Call} {server : Server}
    (starts : (pollServer openMax listenfd).start history server) :
    Vacant openMax history server := by
  obtain ⟨rfl, initial⟩ := starts
  refine ⟨fun call member => absurd member List.not_mem_nil, fun i above below => ?_,
    initial.maxi⟩
  rw [initial.available i above below]
  exact Int.negSucc_lt_zero 0

/-- The first connection that is accepted has no slot up to `maxi`, and nothing is printed. -/
theorem Vacant.not_registered {openMax : Nat} {history calls : List Call} {server next : Server}
    {round : Round} (vacant : Vacant openMax history server)
    (iterates : Iterates openMax server round calls next)
    (registered : Registered openMax (history ++ calls) next) {connfd : Int}
    (accept : Call.accept connfd ∈ calls) : connfd < 0 := by
  by_contra succeeded
  obtain ⟨maxi, ⟨rfl, -⟩ | ⟨rfl, -⟩⟩ := vacant.iterates iterates
  · rcases List.mem_singleton.mp accept
  · obtain rfl : connfd = round.connfd := by
      rcases List.mem_cons.mp accept with poll | accept
      · cases poll
      · exact Call.accept.inj (List.mem_singleton.mp accept)
    rcases registered.slot with reported | slot
    · rcases List.mem_append.mp reported with earlier | last
      · exact vacant.idle _ earlier
      · rcases List.mem_cons.mp last with poll | accept
        · cases poll
        · cases List.mem_singleton.mp accept
    · have connected : round.connfd ∈ connections
          (history ++ [.poll 1 round.nready, .accept round.connfd]) := by
        rw [connections, List.foldl_append]
        show round.connfd ∈ connect _ (.accept round.connfd)
        rw [connect, if_neg succeeded]
        exact Finset.mem_insert_self _ _
      obtain ⟨i, first, last, -, -⟩ := slot _ connected
      omega

/-- Every connection is registered at every moment of a run exactly when none has ever been
accepted in it: the first that is accepted is not. -/
theorem always_registered_iff {openMax : Nat} (positive : 0 < openMax) {listenfd : Int}
    {history : List Call} {server : Server} :
    Always (pollServer openMax listenfd) (Registered openMax) history server ↔
      Run (pollServer openMax listenfd) history server ∧
        ∀ connfd, .accept connfd ∈ history → connfd < 0 := by
  -- As long as none has been accepted the table is vacant, and then a step decides.
  refine always_iff_meets (fun history => ∀ connfd, .accept connfd ∈ history → connfd < 0)
    (fun history server => (∀ connfd, .accept connfd ∈ history → connfd < 0) →
      Vacant openMax history server) ?_ ?_ ?_ ?_
  · intro history server starts
    have vacant := vacant_start starts
    exact ⟨fun _ => vacant, vacant.registered positive, fun connfd accept => vacant.idle _ accept⟩
  · rintro history server calls next inv ⟨round, -, iterate⟩ refused
    have vacant := inv fun connfd accept => refused connfd (List.mem_append_left _ accept)
    exact vacant.step (iterates positive iterate) fun connfd accept =>
      refused connfd (List.mem_append_right _ accept)
  · rintro history server calls next inv - refused ⟨round, -, iterate⟩
    have iterates := iterates positive iterate
    constructor
    · intro registered connfd accept
      rcases List.mem_append.mp accept with earlier | now
      · exact refused connfd earlier
      · exact (inv refused).not_registered iterates registered now
    · intro refused'
      have vacant := (inv refused).step iterates fun connfd accept =>
        refused' connfd (List.mem_append_right _ accept)
      exact vacant.registered positive
  · exact fun history calls refused connfd accept =>
      refused connfd (List.mem_append_left _ accept)

/-! ### A run that accepts a connection -/

/-- The table at the first iteration, and what `client[1]` holds after the first connection. -/
def firstTable (fd : Int) : Nat → Pollfd
  | 0 => ⟨64, pollrdnorm⟩
  | 1 => ⟨fd, 0⟩
  | _ => ⟨-1, 0⟩

/-- A listening socket that is descriptor 64, and a client. -/
def firstRound : Round where
  nready := 1
  revents i := if i = 0 then pollrdnorm else 0
  connfd := 65
  read _ := .data []

theorem run_firstRound : Run (pollServer 1024 64) ([] ++ [.poll 1 1, .accept 65])
    ⟨firstTable 65, 0, []⟩ := by
  have start : Run (pollServer 1024 64) [] ⟨firstTable (-1), 0, []⟩ := by
    refine .start ⟨rfl, rfl, fun i above below => ?_, rfl⟩
    rcases i with _ | _ | i
    · cases above
    · rfl
    · rfl
  refine start.step ⟨firstRound, ⟨fun i last free => ?_, fun i below new => ?_,
    fun i => Nat.zero_le _⟩, ?_⟩
  · obtain rfl : i = 0 := Nat.le_zero.mp last
    cases free
  · rcases i with _ | _ | i
    · show (64 : Int) ≠ 65
      decide
    · show (-1 : Int) ≠ 65
      decide
    · show (-1 : Int) ≠ 65
      decide
  · refine Prod.ext rfl (congrArg (fun client => Outcome.continues ⟨client, 0, []⟩) ?_)
    funext i
    rcases i with _ | _ | i <;> rfl

/-- The client of this run has no slot up to `maxi`. -/
theorem not_registered_of_run : ¬ ∀ history server,
    Run (pollServer 1024 64) history server → Registered 1024 history server := by
  intro registered
  rcases (registered _ _ run_firstRound).slot with reported | slot
  · simp at reported
  · obtain ⟨i, first, last, -, -⟩ := slot 65 (Finset.mem_insert_self _ _)
    cases first.trans last

theorem always_registered_iff_firstRound :
    ¬ Always (pollServer 1024 64) (Registered 1024) ([] ++ [.poll 1 1, .accept 65])
      ⟨firstTable 65, 0, []⟩ := by
  intro always
  have refused := ((always_registered_iff (by decide)).mp always).2 65
    (List.mem_cons_of_mem _ List.mem_cons_self)
  cases refused

end SocketProgram.PollServer
