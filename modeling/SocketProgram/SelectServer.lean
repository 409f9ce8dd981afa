/-
This file models the echo server of `tcpservselect01.c`. One process serves all its
clients: it waits in `select` for the descriptors of `allset`, accepts a connection
into the first free slot of `client`, and then goes through the slots below `maxi` and
reads from those that are ready.

Every iteration of its loop is a function of the tables it starts from and of what the
system calls return in it. What a run keeps is that the tables agree: `allset` is the
listening socket and the descriptors in `client`, these are distinct, `maxi` is above
all of them, and both `maxi` and `maxfd` are the high-water marks of the history.
-/

import Mathlib.Data.Fin.Basic
import Mathlib.Data.Finset.Image
import SocketProgram.Kernel
import SocketProgram.Library.FirstFit
import SocketProgram.Library.Runs

namespace SocketProgram

open Memory Runs FirstFit

/-! ### Sets of descriptors -/

/-- An `fd_set`: descriptors below `FD_SETSIZE`. -/
structure FdSet (fdSetSize : Nat) where
  fds : Finset Int
  inRange : ∀ fd ∈ fds, 0 ≤ fd ∧ fd < fdSetSize

namespace FdSet

variable {fdSetSize : Nat}

/-- `FD_ZERO`. -/
def zero : FdSet fdSetSize := ⟨∅, fun _ member => by simp at member⟩

/-- `FD_SET`. `none` when the descriptor is out of range, which is undefined behaviour. -/
def set? (set : FdSet fdSetSize) (fd : Int) : Option (FdSet fdSetSize) :=
  if range : 0 ≤ fd ∧ fd < fdSetSize then
    some
      { fds := insert fd set.fds
        inRange := fun other member => by
          rcases Finset.mem_insert.mp member with rfl | member'
          · exact range
          · exact set.inRange other member' }
  else none

/-- `FD_CLR`. -/
def clr (set : FdSet fdSetSize) (fd : Int) : FdSet fdSetSize where
  fds := set.fds.erase fd
  inRange other member := set.inRange other (Finset.mem_of_mem_erase member)

theorem set?_eq_some {set next : FdSet fdSetSize} {fd : Int}
    (isSet : set.set? fd = some next) :
    (0 ≤ fd ∧ fd < fdSetSize) ∧ next.fds = insert fd set.fds := by
  unfold set? at isSet
  split_ifs at isSet with range
  exact ⟨range, (congrArg fds (Option.some.inj isSet)).symm⟩

theorem set?_eq_none {set : FdSet fdSetSize} {fd : Int} (outside : set.set? fd = none) :
    ¬ (0 ≤ fd ∧ fd < fdSetSize) := by
  intro range
  rw [set?, dif_pos range] at outside
  cases outside

end FdSet

namespace SelectServer

/-! ### One iteration of the loop -/

/-- The calls the server makes, with what the environment answered. -/
inductive Call
  | select (maxfdp1 nready : Int)
  | accept (connfd : Int)
  | fdSet (fd : Int)
  | printf (text : String)
  | read (fd : Int) (outcome : ReadOutcome)
  | close (fd : Int)
  | fdClr (fd : Int)
  | written (fd : Int) (buf : List Byte) (n : Nat)
  deriving DecidableEq, Repr

/-- The variables of `main` that live across iterations. -/
structure Server (fdSetSize : Nat) where
  client : Fin fdSetSize → Int
  maxi : Int
  maxfd : Int
  allset : FdSet fdSetSize
  buf : List Byte

/-- What the system calls of one iteration return: `nready` and `rset` from `select`, `connfd`
from `accept`, and what `read` gives on the descriptor in each slot. -/
structure Round (fdSetSize : Nat) where
  nready : Int
  rset : FdSet fdSetSize
  connfd : Int
  read : Fin fdSetSize → ReadOutcome

/-- How the body of the loop ends. `undefined` is the undefined behaviour of an `FD_SET` out of
range. -/
inductive Outcome (fdSetSize : Nat)
  | continues (server : Server fdSetSize)
  | returns (status : Int)
  | undefined

variable {fdSetSize : Nat}

/-- A `ssize_t` where a `size_t` is expected. -/
def sizeOfSsize (n : Int) : Nat := (n % 2 ^ 64).toNat

/-- The body of the second `for`, for a descriptor in `rset`. -/
def Server.serve (server : Server fdSetSize) (i : Fin fdSetSize) (outcome : ReadOutcome) :
    List Call × Server fdSetSize :=
  let sockfd := server.client i
  let buf := overwrite server.buf 0 outcome.bytes
  if outcome.value = 0 then
    ([.read sockfd outcome, .close sockfd, .fdClr sockfd],
      { server with
        buf := buf
        allset := server.allset.clr sockfd
        client := Function.update server.client i (-1) })
  else
    ([.read sockfd outcome, .written sockfd buf (sizeOfSsize outcome.value)],
      { server with buf := buf })

/-- The second `for`, over the slots it has still to visit. -/
def scan (round : Round fdSetSize) :
    List (Fin fdSetSize) → Int → Server fdSetSize → List Call × Server fdSetSize
  | [], _, server => ([], server)
  | i :: slots, nready, server =>
    if server.client i < 0 then scan round slots nready server
    else if server.client i ∈ round.rset.fds then
      if nready - 1 ≤ 0 then server.serve i (round.read i)
      else
        ((server.serve i (round.read i)).1 ++
            (scan round slots (nready - 1) (server.serve i (round.read i)).2).1,
          (scan round slots (nready - 1) (server.serve i (round.read i)).2).2)
    else scan round slots nready server

/-- The slots of `for(i=0;i<maxi;i++)`. -/
def slotsBelow (maxi : Int) : List (Fin fdSetSize) :=
  (List.finRange fdSetSize).filter fun i => decide ((i : Int) < maxi)

/-- The first free slot. -/
def Server.free? (server : Server fdSetSize) : Option (Fin fdSetSize) :=
  Fin.find? fun i => decide (server.client i < 0)

/-- The server with a new descriptor in this slot, after its `FD_SET`. -/
def Server.addClient (server : Server fdSetSize) (i : Fin fdSetSize) (connfd : Int)
    (allset : FdSet fdSetSize) : Server fdSetSize :=
  { server with
    client := Function.update server.client i connfd
    allset := allset
    maxfd := if connfd > server.maxfd then connfd else server.maxfd
    maxi := if (i : Int) > server.maxi then i else server.maxi }

/-- The body of `for(;;)`. -/
def Server.iterate (listenfd : Int) (server : Server fdSetSize) (round : Round fdSetSize) :
    List Call × Outcome fdSetSize :=
  let select := Call.select (server.maxfd + 1) round.nready
  if listenfd ∈ round.rset.fds then
    match server.free? with
    | none => ([select, .accept round.connfd, .printf "too many clients\n"], .returns (-1))
    | some i =>
      match server.allset.set? round.connfd with
      | none => ([select, .accept round.connfd, .fdSet round.connfd], .undefined)
      | some allset =>
        let server := server.addClient i round.connfd allset
        if round.nready - 1 ≤ 0 then
          ([select, .accept round.connfd, .fdSet round.connfd], .continues server)
        else
          let scanned := scan round (slotsBelow server.maxi) (round.nready - 1) server
          ([select, .accept round.connfd, .fdSet round.connfd] ++ scanned.1,
            .continues scanned.2)
  else
    let scanned := scan round (slotsBelow server.maxi) round.nready server
    ([select] ++ scanned.1, .continues scanned.2)

/-- The ways the body of the loop can go. -/
inductive Iterates (listenfd : Int) (server : Server fdSetSize) (round : Round fdSetSize) :
    List Call → Outcome fdSetSize → Prop
  | scanned (quiet : listenfd ∉ round.rset.fds) :
      Iterates listenfd server round
        ([.select (server.maxfd + 1) round.nready] ++
          (scan round (slotsBelow server.maxi) round.nready server).1)
        (.continues (scan round (slotsBelow server.maxi) round.nready server).2)
  | full (listening : listenfd ∈ round.rset.fds) (full : server.free? = none) :
      Iterates listenfd server round
        [.select (server.maxfd + 1) round.nready, .accept round.connfd,
          .printf "too many clients\n"] (.returns (-1))
  | undefined (listening : listenfd ∈ round.rset.fds) {i : Fin fdSetSize}
      (free : server.free? = some i) (outside : server.allset.set? round.connfd = none) :
      Iterates listenfd server round
        [.select (server.maxfd + 1) round.nready, .accept round.connfd, .fdSet round.connfd]
        .undefined
  | accepted (listening : listenfd ∈ round.rset.fds) {i : Fin fdSetSize}
      {allset : FdSet fdSetSize} (free : server.free? = some i)
      (isSet : server.allset.set? round.connfd = some allset) (last : round.nready - 1 ≤ 0) :
      Iterates listenfd server round
        [.select (server.maxfd + 1) round.nready, .accept round.connfd, .fdSet round.connfd]
        (.continues (server.addClient i round.connfd allset))
  | both (listening : listenfd ∈ round.rset.fds) {i : Fin fdSetSize}
      {allset : FdSet fdSetSize} (free : server.free? = some i)
      (isSet : server.allset.set? round.connfd = some allset) (more : ¬ round.nready - 1 ≤ 0) :
      Iterates listenfd server round
        ([.select (server.maxfd + 1) round.nready, .accept round.connfd, .fdSet round.connfd] ++
          (scan round (slotsBelow (server.addClient i round.connfd allset).maxi) (round.nready - 1)
            (server.addClient i round.connfd allset)).1)
        (.continues (scan round (slotsBelow (server.addClient i round.connfd allset).maxi)
          (round.nready - 1) (server.addClient i round.connfd allset)).2)

theorem iterates (listenfd : Int) (server : Server fdSetSize) (round : Round fdSetSize) :
    Iterates listenfd server round (server.iterate listenfd round).1
      (server.iterate listenfd round).2 := by
  by_cases listening : listenfd ∈ round.rset.fds
  · cases free : server.free? with
    | none =>
      simp only [Server.iterate, if_pos listening, free]
      exact .full listening free
    | some i =>
      cases isSet : server.allset.set? round.connfd with
      | none =>
        simp only [Server.iterate, if_pos listening, free, isSet]
        exact .undefined listening free isSet
      | some allset =>
        by_cases last : round.nready - 1 ≤ 0
        · simp only [Server.iterate, if_pos listening, free, isSet, if_pos last]
          exact .accepted listening free isSet last
        · simp only [Server.iterate, if_pos listening, free, isSet, if_neg last]
          exact .both listening free isSet last
  · simp only [Server.iterate, if_neg listening]
    exact .scanned listening

/-! ### Runs -/

/-- What the environment can answer: `select` leaves some of the descriptors it was given,
`accept` does not return one that is open, and `read` stores no more than it was asked for. -/
structure Round.Possible (listenfd : Int) (server : Server fdSetSize)
    (round : Round fdSetSize) : Prop where
  rset : round.rset.fds ⊆ server.allset.fds
  connfd : listenfd ∈ round.rset.fds → round.connfd ∉ server.allset.fds
  read : ∀ i, (round.read i).Fits maxline

/-- The variables at the first iteration. -/
def Server.initial (listenfd : Int) (allset : FdSet fdSetSize) (buf : List Byte) :
    Server fdSetSize where
  client _ := -1
  maxi := -1
  maxfd := listenfd
  allset := allset
  buf := buf

/-- The server on this listening socket, from one iteration to the next. -/
def selectServer (fdSetSize : Nat) (listenfd : Int) : System (Server fdSetSize) Call where
  start history server := history = [.fdSet listenfd] ∧
    ∃ allset buf, FdSet.zero.set? listenfd = some allset ∧
      server = Server.initial listenfd allset buf
  step server calls next := ∃ round : Round fdSetSize, round.Possible listenfd server ∧
    server.iterate listenfd round = (calls, .continues next)

/-! ### The tables -/

/-- The slots that hold a descriptor. -/
def occupied (client : Fin fdSetSize → Int) : Finset (Fin fdSetSize) :=
  Finset.univ.filter fun i => 0 ≤ client i

theorem mem_occupied {client : Fin fdSetSize → Int} {i : Fin fdSetSize} :
    i ∈ occupied client ↔ 0 ≤ client i := by
  simp [occupied]

theorem occupied_update_fd {client : Fin fdSetSize → Int} (i : Fin fdSetSize) {fd : Int}
    (valid : 0 ≤ fd) : occupied (Function.update client i fd) = insert i (occupied client) := by
  ext j
  rw [Finset.mem_insert, mem_occupied, mem_occupied]
  by_cases same : j = i
  · subst same
    simp [valid]
  · simp [same]

theorem occupied_update_free (client : Fin fdSetSize → Int) (i : Fin fdSetSize) :
    occupied (Function.update client i (-1)) = (occupied client).erase i := by
  ext j
  rw [Finset.mem_erase, mem_occupied, mem_occupied]
  by_cases same : j = i
  · subst same
    simp
  · simp [same]

section Slots

variable {client : Fin fdSetSize → Int} {i : Fin fdSetSize} {fd : Int}

theorem update_of_mem (client : Fin fdSetSize → Int) (fd : Int) {slots : Finset (Fin fdSetSize)}
    (notMem : i ∉ slots) : ∀ j ∈ slots, Function.update client i fd j = client j :=
  fun _ member => Function.update_of_ne (ne_of_mem_of_not_mem member notMem) _ _

/-- A free slot that takes a descriptor adds it to the descriptors in the table. -/
theorem image_update_fd (isFree : i ∉ occupied client) (valid : 0 ≤ fd) :
    (occupied (Function.update client i fd)).image (Function.update client i fd) =
      insert fd ((occupied client).image client) := by
  rw [occupied_update_fd i valid, Finset.image_insert, Function.update_self]
  exact congrArg (insert fd) (Finset.image_congr (update_of_mem client fd isFree))

theorem injOn_update_fd (isFree : i ∉ occupied client) (valid : 0 ≤ fd)
    (distinct : Set.InjOn client (occupied client)) (new : fd ∉ (occupied client).image client) :
    Set.InjOn (Function.update client i fd) (occupied (Function.update client i fd)) := by
  have kept := update_of_mem client fd isFree
  rw [occupied_update_fd i valid, Finset.coe_insert,
    Set.injOn_insert (by exact_mod_cast isFree), Function.update_self]
  refine ⟨distinct.congr fun j member => (kept j member).symm, ?_⟩
  rintro ⟨j, member, same⟩
  exact new (Finset.mem_image.mpr ⟨j, member, (kept j member).symm.trans same⟩)

/-- A slot that is freed takes its descriptor out of them. -/
theorem image_update_free (distinct : Set.InjOn client (occupied client))
    (member : i ∈ occupied client) :
    (occupied (Function.update client i (-1))).image (Function.update client i (-1)) =
      ((occupied client).image client).erase (client i) := by
  have single : {i} ⊆ occupied client := Finset.singleton_subset_iff.mpr member
  rw [occupied_update_free,
    Finset.image_congr (update_of_mem client (-1) (Finset.notMem_erase i _)),
    ← Finset.sdiff_singleton_eq_erase, Finset.image_sdiff_of_injOn distinct single,
    Finset.image_singleton, Finset.sdiff_singleton_eq_erase]

theorem injOn_update_free (distinct : Set.InjOn client (occupied client)) :
    Set.InjOn (Function.update client i (-1)) (occupied (Function.update client i (-1))) := by
  have kept := update_of_mem client (-1) (Finset.notMem_erase i (occupied client))
  rw [occupied_update_free]
  exact (distinct.mono (by exact_mod_cast Finset.erase_subset _ _)).congr
    fun j member => (kept j member).symm

end Slots

/-- What a call adds to the number of clients that are connected. -/
def Call.connections : Call → Int
  | .accept _ => 1
  | .close _ => -1
  | _ => 0

/-- What the tables of a server that has this history have in common. -/
structure Table (listenfd : Int) (history : List Call) (server : Server fdSetSize) : Prop where
  allset : server.allset.fds =
    insert listenfd ((occupied server.client).image server.client)
  distinct : Set.InjOn server.client (occupied server.client)
  listening : ∀ i, server.client i ≠ listenfd
  vacant : ∀ i, server.client i < 0 → server.client i = -1
  maxi : -1 ≤ server.maxi
  below : ∀ i ∈ occupied server.client, (i : Int) ≤ server.maxi
  maxfd : IsGreatest {fd | Call.fdSet fd ∈ history} server.maxfd
  level : level Call.connections history = (occupied server.client).card
  peak : IsGreatest (levels Call.connections history) (server.maxi + 1)

/-- What the tables of a server agree on whatever its history: `allset` is the listening socket and
the descriptors in `client`, and these are distinct. -/
structure Tables (listenfd : Int) (server : Server fdSetSize) : Prop where
  allset : server.allset.fds =
    insert listenfd ((occupied server.client).image server.client)
  distinct : Set.InjOn server.client (occupied server.client)
  listening : ∀ i, server.client i ≠ listenfd

section Table

variable {listenfd : Int} {history : List Call} {server : Server fdSetSize}

theorem Table.tables (table : Table listenfd history server) : Tables listenfd server :=
  ⟨table.allset, table.distinct, table.listening⟩

/-- The level a history ends at is one it has passed. -/
theorem Table.level_le (table : Table listenfd history server) :
    FirstFit.level Call.connections history ≤ server.maxi + 1 :=
  table.peak.2 level_mem_levels

/-- A call that opens and closes nothing. -/
theorem Table.quiet (table : Table listenfd history server) (call : Call)
    (nothing : call.connections = 0) (noSet : ∀ fd, Call.fdSet fd ≠ call) :
    Table listenfd (history ++ [call]) server := by
  have level : FirstFit.level Call.connections (history ++ [call]) =
      FirstFit.level Call.connections history := by
    rw [level_concat, nothing, Int.add_zero]
  refine { table with maxfd := ?_, level := ?_, peak := ?_ }
  · have same : {fd | Call.fdSet fd ∈ history ++ [call]} = {fd | Call.fdSet fd ∈ history} := by
      ext fd
      simp [noSet fd]
    rw [same]
    exact table.maxfd
  · rw [level]
    exact table.level
  · exact isGreatest_levels_below table.peak (level ▸ table.level_le)

/-- The contents of `buf` are no part of the tables. -/
theorem Table.withBuf (table : Table listenfd history server) (buf : List Byte) :
    Table listenfd history { server with buf := buf } :=
  { table with }

/-- An accepted connection raises the number of clients to a level the table has slots for: the
first free slot is among those used so far, or is the one after them and they are all taken. -/
theorem Table.peak_accept (table : Table listenfd history server) {i : Fin fdSetSize}
    (isFree : i ∉ occupied server.client) (first : ∀ j < i, j ∈ occupied server.client)
    (connfd : Int) :
    IsGreatest (levels Call.connections (history ++ [.accept connfd]))
      ((if (i : Int) > server.maxi then (i : Int) else server.maxi) + 1) := by
  have nonnegative := table.maxi
  have below : ∀ j ∈ occupied server.client, j.val < (server.maxi + 1).toNat := fun j member => by
    have bound := table.below j member
    omega
  have opened : FirstFit.level Call.connections (history ++ [.accept connfd]) =
      (occupied server.client).card + 1 := by
    rw [level_concat, table.level]
    rfl
  by_cases inside : i.val < (server.maxi + 1).toNat
  · have room := card_lt_used below isFree inside
    rw [if_neg (by omega)]
    exact isGreatest_levels_below table.peak (by omega)
  · obtain ⟨next, full⟩ := first_free_above below first (Nat.not_lt.mp inside)
    have top : (i : Int) + 1 = FirstFit.level Call.connections (history ++ [.accept connfd]) := by
      omega
    rw [if_pos (by omega), top]
    exact isGreatest_levels_above table.peak (by omega)

/-- The first free slot takes a new descriptor. -/
theorem Table.addClient (table : Table listenfd history server) {i : Fin fdSetSize} {connfd : Int}
    {allset : FdSet fdSetSize} (free : server.free? = some i)
    (isSet : server.allset.set? connfd = some allset) (fresh : connfd ∉ server.allset.fds) :
    Table listenfd (history ++ [.accept connfd] ++ [.fdSet connfd])
      (server.addClient i connfd allset) := by
  obtain ⟨negative, before⟩ := Fin.find?_eq_some_iff.mp free
  obtain ⟨⟨valid, _⟩, fds⟩ := FdSet.set?_eq_some isSet
  have isFree : i ∉ occupied server.client := fun member =>
    absurd (mem_occupied.mp member) (Int.not_le.mpr (of_decide_eq_true negative))
  have first : ∀ j < i, j ∈ occupied server.client := fun j earlier =>
    mem_occupied.mpr (Int.not_lt.mp (of_decide_eq_false (before j earlier)))
  rw [table.allset, Finset.mem_insert, not_or] at fresh
  obtain ⟨notListening, new⟩ := fresh
  have client : (server.addClient i connfd allset).client =
      Function.update server.client i connfd := rfl
  have peak := table.peak_accept isFree first connfd
  have level : FirstFit.level Call.connections
      (history ++ [.accept connfd] ++ [.fdSet connfd]) = (occupied server.client).card + 1 := by
    rw [level_concat, level_concat, table.level]
    rfl
  refine ⟨?_, ?_, ?_, ?_, ?_, ?_, ?_, ?_, ?_⟩
  · show allset.fds = _
    rw [client, image_update_fd isFree valid, fds, table.allset, Finset.insert_comm]
  · exact injOn_update_fd isFree valid table.distinct new
  · exact (Function.forall_update_iff server.client fun _ fd => fd ≠ listenfd).mpr
      ⟨notListening, fun j _ => table.listening j⟩
  · exact (Function.forall_update_iff server.client fun _ fd => fd < 0 → fd = -1).mpr
      ⟨fun below => absurd below (Int.not_lt.mpr valid), fun j _ => table.vacant j⟩
  · show -1 ≤ if (i : Int) > server.maxi then (i : Int) else server.maxi
    have bound := table.maxi
    split_ifs <;> omega
  · rw [client, occupied_update_fd i valid, Finset.forall_mem_insert]
    show (i : Int) ≤ (if (i : Int) > server.maxi then (i : Int) else server.maxi) ∧
      ∀ j ∈ occupied server.client,
        (j : Int) ≤ if (i : Int) > server.maxi then (i : Int) else server.maxi
    refine ⟨by split_ifs <;> omega, fun j member => ?_⟩
    have bound := table.below j member
    split_ifs <;> omega
  · have added : {fd | Call.fdSet fd ∈ history ++ [.accept connfd] ++ [.fdSet connfd]} =
        insert connfd {fd | Call.fdSet fd ∈ history} := by
      ext fd
      simp [or_comm]
    show IsGreatest _ (if connfd > server.maxfd then connfd else server.maxfd)
    rw [added, ← max_def_lt, max_comm]
    exact table.maxfd.insert connfd
  · rw [level, client, occupied_update_fd i valid, Finset.card_insert_of_notMem isFree]
    norm_cast
  · refine isGreatest_levels_below peak (le_of_eq_of_le ?_ (peak.2 level_mem_levels))
    exact level_concat.trans (Int.add_zero _)

/-- A connection that is closed frees its slot. -/
theorem Table.close (table : Table listenfd history server) {i : Fin fdSetSize}
    (member : i ∈ occupied server.client) :
    Table listenfd (history ++ [.close (server.client i)])
      { server with
        allset := server.allset.clr (server.client i)
        client := Function.update server.client i (-1) } := by
  have listening : 0 ≤ listenfd :=
    (server.allset.inRange listenfd (table.allset ▸ Finset.mem_insert_self _ _)).1
  have level : FirstFit.level Call.connections (history ++ [.close (server.client i)]) =
      ((occupied server.client).erase i).card := by
    have positive := Finset.card_pos.mpr ⟨i, member⟩
    rw [level_concat, table.level, Finset.card_erase_of_mem member]
    show ((occupied server.client).card : Int) + -1 = _
    omega
  refine ⟨?_, ?_, ?_, ?_, table.maxi, ?_, ?_, ?_, ?_⟩
  · show server.allset.fds.erase (server.client i) = _
    rw [image_update_free table.distinct member, table.allset,
      Finset.erase_insert_of_ne (Ne.symm (table.listening i))]
  · exact injOn_update_free table.distinct
  · exact (Function.forall_update_iff server.client fun _ fd => fd ≠ listenfd).mpr
      ⟨by omega, fun j _ => table.listening j⟩
  · exact (Function.forall_update_iff server.client fun _ fd => fd < 0 → fd = -1).mpr
      ⟨fun _ => rfl, fun j _ => table.vacant j⟩
  · rw [occupied_update_free]
    exact fun j member' => table.below j (Finset.mem_of_mem_erase member')
  · have same : {fd | Call.fdSet fd ∈ history ++ [.close (server.client i)]} =
        {fd | Call.fdSet fd ∈ history} := by
      ext fd
      simp
    rw [same]
    exact table.maxfd
  · rw [level, occupied_update_free]
  · have fewer := Finset.card_le_card (Finset.erase_subset i (occupied server.client))
    have bound := table.level_le
    rw [table.level] at bound
    refine isGreatest_levels_below table.peak ?_
    rw [level]
    exact le_trans (by exact_mod_cast fewer) bound

/-- A client that is ready is served: its data is read and written, or its connection is
closed and its slot freed. -/
theorem Table.serve (table : Table listenfd history server) {i : Fin fdSetSize}
    (valid : 0 ≤ server.client i) (outcome : ReadOutcome) :
    Table listenfd (history ++ (server.serve i outcome).1) (server.serve i outcome).2 := by
  have read := (table.quiet (.read (server.client i) outcome) rfl nofun).withBuf
    (overwrite server.buf 0 outcome.bytes)
  unfold Server.serve
  dsimp only
  split_ifs with ended
  · have closed := (read.close (mem_occupied.mpr valid)).quiet (.fdClr (server.client i)) rfl nofun
    simpa using closed
  · have written := read.quiet (.written (server.client i)
      (overwrite server.buf 0 outcome.bytes) (sizeOfSsize outcome.value)) rfl nofun
    simpa using written

/-- The second `for` keeps the tables, wherever it stops. -/
theorem Table.scan (round : Round fdSetSize) (slots : List (Fin fdSetSize)) (nready : Int)
    (table : Table listenfd history server) :
    Table listenfd (history ++ (scan round slots nready server).1)
      (scan round slots nready server).2 := by
  induction slots generalizing history nready server with
  | nil =>
    rw [SelectServer.scan, List.append_nil]
    exact table
  | cons i slots inductionHypothesis =>
    rw [SelectServer.scan]
    split_ifs with free ready last
    · exact inductionHypothesis nready table
    · exact table.serve (Int.not_lt.mp free) (round.read i)
    · rw [← List.append_assoc]
      exact inductionHypothesis (nready - 1) (table.serve (Int.not_lt.mp free) (round.read i))
    · exact inductionHypothesis nready table

theorem Table.iterate (table : Table listenfd history server) {round : Round fdSetSize}
    (possible : round.Possible listenfd server) {calls : List Call} {next : Server fdSetSize}
    (iterate : server.iterate listenfd round = (calls, .continues next)) :
    Table listenfd (history ++ calls) next := by
  have selected := table.quiet (.select (server.maxfd + 1) round.nready) rfl nofun
  have ways := iterates listenfd server round
  rw [iterate] at ways
  cases ways with
  | scanned quiet =>
    simpa using selected.scan round (slotsBelow server.maxi) round.nready
  | accepted listening free isSet last =>
    simpa using selected.addClient free isSet (possible.connfd listening)
  | @both listening i allset free isSet more =>
    have added := selected.addClient free isSet (possible.connfd listening)
    simpa using added.scan round (slotsBelow (server.addClient i round.connfd allset).maxi)
      (round.nready - 1)

theorem table_initial {allset : FdSet fdSetSize} (buf : List Byte)
    (isSet : FdSet.zero.set? listenfd = some allset) :
    Table listenfd [.fdSet listenfd] (Server.initial listenfd allset buf) := by
  obtain ⟨⟨valid, _⟩, fds⟩ := FdSet.set?_eq_some isSet
  have empty : occupied (Server.initial listenfd allset buf).client = ∅ := by
    ext i
    rw [mem_occupied]
    simp [Server.initial]
  refine ⟨?_, ?_, ?_, fun i _ => rfl, Int.le_refl _, ?_, ?_, ?_, ?_⟩
  · rw [empty]
    exact fds
  · rw [empty]
    intro i member
    exact absurd member (Finset.notMem_empty i)
  · intro i
    show (-1 : Int) ≠ listenfd
    omega
  · intro i member
    rw [empty] at member
    exact absurd member (Finset.notMem_empty i)
  · have single : {fd | Call.fdSet fd ∈ [Call.fdSet listenfd]} = {listenfd} := by
      ext fd
      simp
    rw [single]
    exact isGreatest_singleton
  · rw [empty]
    rfl
  · exact isGreatest_levels_below isGreatest_levels_nil (Int.le_refl 0)

theorem table_of_run (run : Run (selectServer fdSetSize listenfd) history server) :
    Table listenfd history server := by
  refine run.invariant (Table listenfd) ?_ ?_
  · rintro _ _ ⟨rfl, allset, buf, isSet, rfl⟩
    exact table_initial buf isSet
  · rintro history server calls next table ⟨round, possible, iterates⟩
    exact table.iterate possible iterates

/-- In every run, whatever the order of accepts, reads and closes: `allset` is the listening
socket and the descriptors in `client`, these are distinct, the slots above `maxi` are free,
`maxfd` is the largest descriptor ever put in `allset`, and `maxi+1` is the largest number of
clients that were ever connected at the same time. -/
theorem tables_agree (run : Run (selectServer fdSetSize listenfd) history server) :
    server.allset.fds = insert listenfd ((occupied server.client).image server.client) ∧
      (Set.InjOn server.client (occupied server.client) ∧
        ∀ i, server.client i ≠ listenfd) ∧
      (∀ i : Fin fdSetSize, server.maxi < i → server.client i = -1) ∧
      IsGreatest {fd | Call.fdSet fd ∈ history} server.maxfd ∧
      IsGreatest (levels Call.connections history) (server.maxi + 1) := by
  have table := table_of_run run
  refine ⟨table.allset, ⟨table.distinct, table.listening⟩, fun i above => ?_, table.maxfd,
    table.peak⟩
  refine table.vacant i (Int.not_le.mp fun valid => ?_)
  have bound := table.below i (mem_occupied.mpr valid)
  omega

/-- Only the listening socket is ready. -/
def Round.accepting (listening : listenfd ∈ server.allset.fds) (connfd : Int) :
    Round fdSetSize where
  nready := 1
  rset :=
    { fds := {listenfd}
      inRange := fun fd member =>
        server.allset.inRange fd (Finset.mem_singleton.mp member ▸ listening) }
  connfd := connfd
  read _ := .data []

theorem iterate_accepting (listening : listenfd ∈ server.allset.fds) {i : Fin fdSetSize}
    {connfd : Int} {allset : FdSet fdSetSize} (free : server.free? = some i)
    (isSet : server.allset.set? connfd = some allset) :
    server.iterate listenfd (.accepting listening connfd) =
      ([.select (server.maxfd + 1) 1, .accept connfd, .fdSet connfd],
        .continues (server.addClient i connfd allset)) := by
  have ready : listenfd ∈ (Round.accepting listening connfd).rset.fds :=
    Finset.mem_singleton_self listenfd
  have new : (Round.accepting listening connfd).connfd = connfd := rfl
  simp only [Server.iterate, if_pos ready, free, new, isSet]
  rfl

theorem step_accept (listening : listenfd ∈ server.allset.fds) {i : Fin fdSetSize} {connfd : Int}
    {allset : FdSet fdSetSize} (free : server.free? = some i)
    (isSet : server.allset.set? connfd = some allset) (fresh : connfd ∉ server.allset.fds) :
    (selectServer fdSetSize listenfd).step server
      [.select (server.maxfd + 1) 1, .accept connfd, .fdSet connfd]
      (server.addClient i connfd allset) :=
  ⟨.accepting listening connfd, ⟨Finset.singleton_subset_iff.mpr listening, fun _ => fresh,
    fun _ => Nat.zero_le _⟩, iterate_accepting listening free isSet⟩

/-- The same after a run. -/
theorem run_accept (run : Run (selectServer fdSetSize listenfd) history server)
    (listening : listenfd ∈ server.allset.fds) {i : Fin fdSetSize} {connfd : Int}
    {allset : FdSet fdSetSize} (free : server.free? = some i)
    (isSet : server.allset.set? connfd = some allset) (fresh : connfd ∉ server.allset.fds) :
    Run (selectServer fdSetSize listenfd)
      (history ++ [.select (server.maxfd + 1) 1, .accept connfd, .fdSet connfd])
      (server.addClient i connfd allset) :=
  run.step (step_accept listening free isSet fresh)

/-- A server with the usual `FD_SETSIZE` whose only client has the descriptor 4. -/
def oneClient : Server 1024 :=
  (Server.initial 3 ⟨{3}, by decide⟩ []).addClient 0 4 ⟨{4, 3}, by decide⟩

/-- A server with the clients 4 and 5, whose buffer holds zeros. -/
def twoClients : Server 1024 :=
  { oneClient with buf := List.replicate maxline 0 }.addClient 1 5 ⟨{5, 4, 3}, by decide⟩

theorem run_oneClient : Run (selectServer 1024 3)
    [.fdSet 3, .select 4 1, .accept 4, .fdSet 4] oneClient := by
  have start : Run (selectServer 1024 3) [.fdSet 3] (Server.initial 3 ⟨{3}, by decide⟩ []) :=
    .start ⟨rfl, ⟨{3}, by decide⟩, [], rfl, rfl⟩
  have free : (Server.initial 3 (⟨{3}, by decide⟩ : FdSet 1024) []).free? = some 0 :=
    Fin.find?_eq_some_iff.mpr ⟨rfl, fun j before => absurd before (Fin.not_lt_zero j)⟩
  exact run_accept start (by decide) free rfl (by decide)

/-- The slot behind the client is the first that is free. -/
theorem free?_oneClient : oneClient.free? = some 1 := by
  refine Fin.find?_eq_some_iff.mpr ⟨rfl, fun j before => ?_⟩
  rw [show j = 0 by omega]
  rfl

/-- With two clients the scan begins, and ends, in the first slot. -/
theorem slotsBelow_one : ∃ slots, (slotsBelow 1 : List (Fin 1024)) = 0 :: slots := by
  rw [slotsBelow, List.finRange_succ, List.filter_cons_of_pos rfl]
  exact ⟨_, rfl⟩

/-- The descriptor 4 alone. -/
def fourReady : FdSet 1024 := ⟨{4}, by decide⟩

/-- The client in the first slot is ready, and has closed its connection. -/
def firstEnds : Round 1024 where
  nready := 1
  rset := fourReady
  connfd := -1
  read _ := .data []

/-- Two clients connect, the first closes its connection, and the next takes its descriptor and its
slot. -/
theorem tables_agree_reusedSlot : ∃ history server,
    Run (selectServer 1024 3) history server ∧ .close 4 ∈ history ∧ server.client 0 = 4 ∧
      server.client 1 = 5 ∧
      server.allset.fds = insert 3 ((occupied server.client).image server.client) ∧
      Set.InjOn server.client (occupied server.client) ∧ (∀ i, server.client i ≠ 3) ∧
      (∀ i : Fin 1024, 1 < (i : Int) → server.client i = -1) ∧
      IsGreatest {fd | Call.fdSet fd ∈ history} 5 ∧
      IsGreatest (levels Call.connections history) 2 := by
  let two : Server 1024 := oneClient.addClient 1 5 ⟨{5, 4, 3}, by decide⟩
  have run := run_accept run_oneClient (by decide) free?_oneClient
    (show oneClient.allset.set? 5 = some ⟨{5, 4, 3}, by decide⟩ from rfl) (by decide)
  let left : Server 1024 := (two.serve 0 (.data [])).2
  have ends : two.iterate 3 firstEnds =
      ([.select 6 1, .read 4 (.data []), .close 4, .fdClr 4], .continues left) := by
    obtain ⟨slots, first⟩ := slotsBelow_one
    have visited : slotsBelow two.maxi = 0 :: slots := first
    have client : two.client 0 = 4 := rfl
    have last : firstEnds.nready - 1 ≤ 0 := Int.le_refl 0
    rw [Server.iterate, if_neg (show (3 : Int) ∉ firstEnds.rset.fds by decide)]
    dsimp only
    rw [visited, scan, client, if_neg (by decide),
      if_pos (show (4 : Int) ∈ firstEnds.rset.fds by decide), if_pos last]
    rfl
  have possible : firstEnds.Possible 3 two :=
    ⟨by decide, fun listening => absurd listening (by decide), fun _ => Nat.zero_le _⟩
  have free : left.free? = some 0 :=
    Fin.find?_eq_some_iff.mpr ⟨rfl, fun j before => absurd before (Fin.not_lt_zero j)⟩
  have again := run_accept (run.step ⟨firstEnds, possible, ends⟩)
    (show (3 : Int) ∈ left.allset.fds by decide) free
    (show left.allset.set? 4 = some ⟨{4, 5, 3}, by decide⟩ from rfl) (by decide)
  obtain ⟨allset, ⟨distinct, listening⟩, above, maxfd, peak⟩ := tables_agree again
  exact ⟨_, _, again, by simp, rfl, rfl, allset, distinct, listening, above, maxfd, peak⟩

end Table

end SelectServer

end SocketProgram
