/-
This file is about what `traceroute` sends. Two loops, one over the hop limits and one over the
probes at each, count a single sequence number up, and an answer from the destination stops them
at the end of its row. So the hop limit and the port of a probe are functions of its number alone,
and only the number of the probes depends on the answers.

The address that the probes are sent to has a length, which is kept in `pr->salen`. The protocol
is initialized with zero there, and `main` copies the address but, unlike the `main` of `ping`,
not its length: every probe is sent to an address of no bytes.

The loops are written here as they stand in the source, for any results of `recv_v4` or `recv_v6`.
In the end they are shown to send what `traceloop` sends when it is taken step by step.
-/

import SocketProgram.Traceroute

namespace SocketProgram.Traceroute.Schedule

open Runs Words

/-! ### The source -/

/-- A socket address. `port` is the field as the machine loads it, and the host is everything
else. -/
structure Sockaddr (Host : Type) where
  host : Host
  port : Nat
  deriving DecidableEq, Repr

/-- What the resolver returns: an address is never of no bytes. `v4mapped` is what
`IN6_IS_ADDR_V4MAPPED` makes of it. -/
structure Addrinfo (Host : Type) where
  family : Int
  addr : Sockaddr Host
  addrlen : Nat
  v4mapped : Bool
  nonempty : 0 < addrlen

/-- The numbers of a `struct proto`. -/
structure Proto where
  salen : Nat
  icmpproto : Nat
  ttllevel : Nat
  ttloptname : Nat
  deriving DecidableEq, Repr

/-- `AF_INET`. -/
def afInet : Int := 2

/-- `AF_INET6`. -/
def afInet6 : Int := 10

/-- `proto_v4`: `IPPROTO_ICMP`, `IPPROTO_IP` and `IP_TTL`. -/
def protoV4 : Proto := ⟨salen, 1, 0, 2⟩

/-- `proto_v6`: `IPPROTO_ICMPv6`, `IPPROTO_IPV6` and `IPV6_UNICAST_HOPS`. Its `salen` is zero
too. -/
def protoV6 : Proto := ⟨0, 58, 41, 16⟩

/-- An option. The value of `-m` is what `atoi` makes of its argument. -/
inductive Flag
  | m (value : Int)
  | v
  | unknown
  deriving DecidableEq, Repr

/-- The loop of `getopt`: `max_ttl` and `verbose` at its end, or the text that `main` quits
with. -/
def getopts : List Flag → Int → Bool → Except String (Int × Bool)
  | [], maxTtl, verbose => .ok (maxTtl, verbose)
  | .m value :: flags, _, verbose =>
    if value ≤ 1 then .error "invalid -m value" else getopts flags value verbose
  | .v :: flags, maxTtl, _ => getopts flags maxTtl true
  | .unknown :: _, _, _ => .error "unrecognized option: ?"

/-- `pr`, by the family of the address. -/
def protocol {Host : Type} (ai : Addrinfo Host) : Except String Proto :=
  if ai.family = afInet then .ok protoV4
  else if ai.family = afInet6 then
    if ai.v4mapped then .error "cannot traceroute IPV4-mapped IPV6 address" else .ok protoV6
  else .error ("unknown address family " ++ toString ai.family)

/-- What `traceloop` starts from: the variables of the program, and `pr` with its `sasend`. -/
structure Started (Host : Type) where
  setup : Setup
  pr : Proto
  sasend : Sockaddr Host

/-- `main`, up to the call of `traceloop`. `operands` is `argc-optind`, and `ai` is what
`host_serv` makes of the one operand. -/
def main {Host : Type} (endian : Endian) (pid dport : Nat) (nprobes : Int) (flags : List Flag)
    (operands : Nat) (ai : Addrinfo Host) : Except String (Started Host) := do
  let (maxTtl, verbose) ← getopts flags 30 false
  if operands ≠ 1 then .error "usage: traceroute [ -m <maxttl> -v ] <hostname>"
  else
    let pr ← protocol ai
    .ok ⟨⟨endian, verbose, pid, dport, maxTtl, nprobes⟩, pr, ai.addr⟩

/-- What `trace.h` and the library add: what is left of a number in `rec_seq` and in `rec_ttl`, and
`sock_set_port`, which is documented to store the port. -/
structure Trace (Host : Type) where
  recSeq : Int → Int
  recTtl : Int → Int
  sockSetPort : Sockaddr Host → Nat → Nat → Sockaddr Host
  documented : ∀ address salen port, sockSetPort address salen port = { address with port }

/-- A `sendto`: the level, the name and the value of the option that was set last, the two numbers
in the datagram, and the address with its length. -/
structure Sent (Host : Type) where
  option : Nat × Nat × Int
  recSeq : Int
  recTtl : Int
  address : Sockaddr Host
  length : Nat
  deriving DecidableEq, Repr

/-- The variables that one row of probes leaves to the next. -/
structure Vars (Host : Type) where
  seq : Int
  done : Int
  sasend : Sockaddr Host

section Loops

variable {Host : Type} (trace : Trace Host) (setup : Setup) (pr : Proto) (results : Int → Int)

/-- A turn of the inner loop: what is sent, and the variables behind it. `results` gives what
`pr->recv` returns for each probe. -/
def send (ttl : Int) (vars : Vars Host) : Sent Host × Vars Host :=
  let seq := vars.seq + 1
  let sasend := trace.sockSetPort vars.sasend pr.salen
    (setup.endian.htons (probePort setup.dport seq))
  let done := if results seq = -1 then vars.done + 1 else vars.done
  (⟨(pr.ttllevel, pr.ttloptname, ttl), trace.recSeq seq, trace.recTtl ttl, sasend, pr.salen⟩,
    ⟨seq, done, sasend⟩)

/-- The inner loop. -/
def row (ttl probe : Int) (vars : Vars Host) : List (Sent Host) × Vars Host :=
  if probe < setup.nprobes then
    let (sent, next) := send trace setup pr results ttl vars
    let (rest, final) := row ttl (probe + 1) next
    (sent :: rest, final)
  else ([], vars)
  termination_by (setup.nprobes - probe).toNat

/-- The outer loop. -/
def rows (ttl : Int) (vars : Vars Host) : List (Sent Host) :=
  if ttl ≤ setup.maxTtl ∧ vars.done = 0 then
    let (sent, next) := row trace setup pr results ttl 0 vars
    sent ++ rows (ttl + 1) next
  else []
  termination_by (setup.maxTtl + 1 - ttl).toNat

/-- Everything that `traceloop` sends. -/
def probes (started : Started Host) : List (Sent Host) :=
  rows trace started.setup started.pr results 1 ⟨0, 0, started.sasend⟩

end Loops

/-! ### The schedule -/

/-- The hop limit of a probe, by its number. -/
def ttlOf (nprobes k : Int) : Int := 1 + (k - 1) / nprobes

/-- The level and the name of the option that is the hop limit of what is sent to this family. -/
def hopLimit (family : Int) : Nat × Nat := if family = afInet then (0, 2) else (41, 16)

/-- The last hop limit that is probed: the first at which a probe is answered by the destination,
and `maxTtl` if there is none. -/
structure Last (maxTtl nprobes : Int) (results : Int → Int) (last : Int) : Prop where
  positive : 1 ≤ last
  within : last ≤ maxTtl
  before : ∀ k, 1 ≤ k → k ≤ (last - 1) * nprobes → results k ≠ -1
  stops : last = maxTtl ∨ ∃ k, (last - 1) * nprobes < k ∧ k ≤ last * nprobes ∧ results k = -1

section Law

variable {Host : Type} (ai : Addrinfo Host) (endian : Endian) (dport : Nat) (nprobes : Int)

/-- The `k`-th probe, to an address of this length. -/
structure IsProbe (length : Nat) (k : Int) (sent : Sent Host) : Prop where
  host : sent.address.host = ai.addr.host
  port : endian.bytes sent.address.port = Endian.big.bytes ((dport + k) % 65536).toNat
  length : sent.length = length
  ttl : sent.option = ((hopLimit ai.family).1, (hopLimit ai.family).2, ttlOf nprobes k)
  recSeq : sent.recSeq = k
  recTtl : sent.recTtl = ttlOf nprobes k

/-- The schedule: the `k`-th `sendto` is the `k`-th probe, and the probes are those of whole rows,
up to the last hop limit. -/
structure Scheduled (maxTtl : Int) (results : Int → Int) (length : Nat)
    (sent : List (Sent Host)) : Prop where
  probe : ∀ (i : Nat) probe, sent[i]? = some probe →
    IsProbe ai endian dport nprobes length ((i : Int) + 1) probe
  count : ∃ last, Last maxTtl nprobes results last ∧ (sent.length : Int) = last * nprobes

end Law

/-! ### Numbers that follow each other -/

/-- The numbers behind `start`. -/
def numbers (start : Int) (count : Nat) : List Int :=
  (List.range count).map fun i : Nat => start + i + 1

theorem length_numbers (start : Int) (count : Nat) : (numbers start count).length = count := by
  rw [numbers, List.length_map, List.length_range]

theorem numbers_succ (start : Int) (count : Nat) :
    numbers start (count + 1) = (start + 1) :: numbers (start + 1) count := by
  unfold numbers
  rw [List.range_succ_eq_map, List.map_cons, List.map_map]
  refine congrArg₂ List.cons (by omega) (List.map_congr_left fun i _ => ?_)
  show start + ((i + 1 : Nat) : Int) + 1 = start + 1 + i + 1
  omega

theorem numbers_add (start : Int) (first second : Nat) :
    numbers start (first + second) = numbers start first ++ numbers (start + first) second := by
  unfold numbers
  rw [List.range_add, List.map_append, List.map_map]
  refine congrArg _ (List.map_congr_left fun i _ => ?_)
  show start + ((first + i : Nat) : Int) + 1 = start + first + i + 1
  omega

/-- The `k`-th of what follows the numbers. -/
theorem getElem?_map_numbers {α : Type*} {f : Int → α} {start : Int} {count i : Nat} {a : α}
    (found : ((numbers start count).map f)[i]? = some a) : i < count ∧ a = f (start + i + 1) := by
  rw [numbers, List.getElem?_map, List.getElem?_map, Option.map_map,
    Option.map_eq_some_iff] at found
  obtain ⟨j, at_i, rfl⟩ := found
  obtain ⟨below, rfl⟩ := List.getElem?_eq_some_iff.mp at_i
  rw [List.length_range] at below
  exact ⟨below, by rw [List.getElem_range, Function.comp_apply]⟩

/-! ### The loops -/

section Loops

variable {Host : Type} (trace : Trace Host) (setup : Setup) (pr : Proto) (results : Int → Int)
  (host : Host)

/-- The probe with this number, as the loops send it. -/
def probeAt (k : Int) : Sent Host where
  option := (pr.ttllevel, pr.ttloptname, ttlOf setup.nprobes k)
  recSeq := trace.recSeq k
  recTtl := trace.recTtl (ttlOf setup.nprobes k)
  address := ⟨host, setup.endian.htons (probePort setup.dport k)⟩
  length := pr.salen

/-- The variables behind the probe with this number. -/
structure Vars.At (host : Host) (k : Int) (vars : Vars Host) : Prop where
  seq : vars.seq = k
  host : vars.sasend.host = host
  done : 0 ≤ vars.done

variable {setup host}

/-- What one turn does. -/
theorem send_spec {ttl k : Int} {vars : Vars Host} (behind : vars.At host k)
    (limit : ttlOf setup.nprobes (k + 1) = ttl) :
    (send trace setup pr results ttl vars).1 = probeAt trace setup pr host (k + 1) ∧
      (send trace setup pr results ttl vars).2.At host (k + 1) ∧
      ((send trace setup pr results ttl vars).2.done = 0 ↔
        vars.done = 0 ∧ results (k + 1) ≠ -1) := by
  obtain ⟨seq, done, sasend⟩ := vars
  obtain ⟨rfl, rfl, nonneg⟩ := behind
  have port : trace.sockSetPort sasend pr.salen
      (setup.endian.htons (probePort setup.dport (seq + 1))) =
        ⟨sasend.host, setup.endian.htons (probePort setup.dport (seq + 1))⟩ :=
    trace.documented _ _ _
  simp only at nonneg
  refine ⟨?_, ⟨rfl, ?_, ?_⟩, ?_⟩
  · simp only [send, probeAt, port, limit]
  · simp only [send, port]
  · simp only [send]
    split_ifs <;> omega
  · simp only [send]
    split_ifs with unreachable
    · exact ⟨fun zero => by omega, fun both => absurd unreachable both.2⟩
    · exact ⟨fun zero => ⟨zero, unreachable⟩, fun both => both.1⟩

theorem row_of_lt {ttl probe : Int} {vars : Vars Host} (more : probe < setup.nprobes) :
    row trace setup pr results ttl probe vars =
      ((send trace setup pr results ttl vars).1 ::
          (row trace setup pr results ttl (probe + 1)
            (send trace setup pr results ttl vars).2).1,
        (row trace setup pr results ttl (probe + 1)
          (send trace setup pr results ttl vars).2).2) := by
  rw [row, if_pos more]

theorem row_of_not_lt {ttl probe : Int} {vars : Vars Host} (noMore : ¬ probe < setup.nprobes) :
    row trace setup pr results ttl probe vars = ([], vars) := by
  rw [row, if_neg noMore]

/-- The hop limit of a probe is the number of its row. -/
theorem ttlOf_eq {nprobes ttl probe : Int} (first : 0 ≤ probe) (more : probe < nprobes) :
    ttlOf nprobes ((ttl - 1) * nprobes + probe + 1) = ttl := by
  have row : ((ttl - 1) * nprobes + probe + 1 - 1) / nprobes = ttl - 1 := by
    rw [Int.add_sub_cancel, Int.mul_comm, Int.mul_add_ediv_left _ _ (by omega),
      Int.ediv_eq_zero_of_lt first more, Int.add_zero]
  rw [ttlOf, row]
  omega

/-- The hop limits of the first rows. -/
theorem ttlOf_mem {nprobes last k : Int} (some : 1 ≤ nprobes) (first : 1 ≤ k)
    (within : k ≤ last * nprobes) : 1 ≤ ttlOf nprobes k ∧ ttlOf nprobes k ≤ last := by
  have nonneg : 0 ≤ (k - 1) / nprobes := Int.ediv_nonneg (by omega) (by omega)
  have below : (k - 1) / nprobes < last := Int.ediv_lt_of_lt_mul (by omega) (by omega)
  unfold ttlOf
  omega

/-- The rest of a row: its probes are sent, and the flag stays down only if none of them has been
answered by the destination. -/
theorem row_spec {count : Nat} {ttl probe : Int} {vars : Vars Host} (first : 0 ≤ probe)
    (left : probe + count = setup.nprobes)
    (behind : vars.At host ((ttl - 1) * setup.nprobes + probe)) :
    (row trace setup pr results ttl probe vars).1 =
        (numbers ((ttl - 1) * setup.nprobes + probe) count).map (probeAt trace setup pr host) ∧
      (row trace setup pr results ttl probe vars).2.At host (ttl * setup.nprobes) ∧
      ((row trace setup pr results ttl probe vars).2.done = 0 ↔ vars.done = 0 ∧
        ∀ k, (ttl - 1) * setup.nprobes + probe < k → k ≤ ttl * setup.nprobes →
          results k ≠ -1) := by
  have rowEnd : (ttl - 1) * setup.nprobes + setup.nprobes = ttl * setup.nprobes := by
    rw [Int.sub_mul, Int.one_mul, Int.sub_add_cancel]
  induction count generalizing probe vars with
  | zero =>
    rw [row_of_not_lt _ _ _ (by omega)]
    have last : (ttl - 1) * setup.nprobes + probe = ttl * setup.nprobes := by omega
    refine ⟨rfl, last ▸ behind, fun zero => ⟨zero, fun k above below => ?_⟩, fun both => both.1⟩
    omega
  | succ count ih =>
    obtain ⟨sent, next, flag⟩ := send_spec trace pr results behind (ttlOf_eq first (by omega))
    rw [row_of_lt _ _ _ (by omega)]
    rw [Int.add_assoc] at next
    obtain ⟨restSent, restNext, restFlag⟩ :=
      ih (show 0 ≤ probe + 1 by omega) (by omega) next
    refine ⟨?_, restNext, restFlag.trans ?_⟩
    · rw [numbers_succ, List.map_cons, sent, restSent, Int.add_assoc]
    · rw [flag, and_assoc, ← Int.add_assoc]
      refine and_congr_right fun _ => ⟨fun both k above below => ?_, fun all => ⟨?_, ?_⟩⟩
      · by_cases head : k = (ttl - 1) * setup.nprobes + probe + 1
        · exact head ▸ both.1
        · exact both.2 k (by omega) below
      · exact all _ (by omega) (by omega)
      · exact fun k above below => all k (by omega) below

theorem rows_of_le {ttl : Int} {vars : Vars Host} (more : ttl ≤ setup.maxTtl)
    (down : vars.done = 0) :
    rows trace setup pr results ttl vars =
      (row trace setup pr results ttl 0 vars).1 ++
        rows trace setup pr results (ttl + 1) (row trace setup pr results ttl 0 vars).2 := by
  rw [rows, if_pos ⟨more, down⟩]

theorem rows_of_not {ttl : Int} {vars : Vars Host}
    (noMore : ¬ (ttl ≤ setup.maxTtl ∧ vars.done = 0)) :
    rows trace setup pr results ttl vars = [] := by
  rw [rows, if_neg noMore]

/-- A whole row. -/
theorem row_whole {ttl : Int} {vars : Vars Host} (some : 0 ≤ setup.nprobes)
    (behind : vars.At host ((ttl - 1) * setup.nprobes)) :
    (row trace setup pr results ttl 0 vars).1 =
        (numbers ((ttl - 1) * setup.nprobes) setup.nprobes.toNat).map
          (probeAt trace setup pr host) ∧
      (row trace setup pr results ttl 0 vars).2.At host (ttl * setup.nprobes) ∧
      ((row trace setup pr results ttl 0 vars).2.done = 0 ↔ vars.done = 0 ∧
        ∀ k, (ttl - 1) * setup.nprobes < k → k ≤ ttl * setup.nprobes → results k ≠ -1) := by
  have whole : (0 : Int) + setup.nprobes.toNat = setup.nprobes := by omega
  have start : vars.At host ((ttl - 1) * setup.nprobes + 0) := by rwa [Int.add_zero]
  have spec := row_spec trace pr results (Int.le_refl 0) whole start
  rwa [Int.add_zero] at spec

/-- The rows from `ttl` on: there is a last one, whole like the others. -/
theorem rows_spec {more : Nat} {ttl : Int} {vars : Vars Host} (some : 0 ≤ setup.nprobes)
    (left : ttl + more = setup.maxTtl) (behind : vars.At host ((ttl - 1) * setup.nprobes))
    (down : vars.done = 0) :
    ∃ (last : Int) (count : Nat), ttl ≤ last ∧ last ≤ setup.maxTtl ∧
      (∀ k, (ttl - 1) * setup.nprobes < k → k ≤ (last - 1) * setup.nprobes → results k ≠ -1) ∧
      (last = setup.maxTtl ∨ ∃ k, (last - 1) * setup.nprobes < k ∧ k ≤ last * setup.nprobes ∧
        results k = -1) ∧
      (ttl - 1) * setup.nprobes + count = last * setup.nprobes ∧
      rows trace setup pr results ttl vars =
        (numbers ((ttl - 1) * setup.nprobes) count).map (probeAt trace setup pr host) := by
  have rowEnd (limit : Int) :
      (limit - 1) * setup.nprobes + setup.nprobes.toNat = limit * setup.nprobes := by
    rw [Int.toNat_of_nonneg some, Int.sub_mul, Int.one_mul, Int.sub_add_cancel]
  induction more generalizing ttl vars with
  | zero =>
    obtain ⟨sent, -, -⟩ := row_whole trace pr results some behind
    refine ⟨ttl, setup.nprobes.toNat, Int.le_refl _, by omega, fun k above below => by omega,
      .inl (by omega), rowEnd ttl, ?_⟩
    rw [rows_of_le _ _ _ (by omega) down, rows_of_not _ _ _ (by omega), sent, List.append_nil]
  | succ more ih =>
    obtain ⟨sent, next, flag⟩ := row_whole trace pr results some behind
    rw [rows_of_le _ _ _ (by omega) down]
    by_cases quiet : (row trace setup pr results ttl 0 vars).2.done = 0
    · obtain ⟨last, count, above, below, before, stops, total, rest⟩ :=
        @ih (ttl + 1) _ (by omega) (by rwa [Int.add_sub_cancel]) quiet
      rw [Int.add_sub_cancel] at before total rest
      refine ⟨last, setup.nprobes.toNat + count, by omega, below, fun k lower upper => ?_, stops,
        ?_, ?_⟩
      · by_cases inRow : k ≤ ttl * setup.nprobes
        · exact (flag.mp quiet).2 k lower inRow
        · exact before k (by omega) upper
      · have := rowEnd ttl
        omega
      · rw [numbers_add, List.map_append, rowEnd, sent, rest]
    · have answered : ∃ k, (ttl - 1) * setup.nprobes < k ∧ k ≤ ttl * setup.nprobes ∧
          results k = -1 := by
        by_contra none
        exact quiet (flag.mpr ⟨down, fun k above below unreachable =>
          none ⟨k, above, below, unreachable⟩⟩)
      refine ⟨ttl, setup.nprobes.toNat, Int.le_refl _, by omega, fun k above below => by omega,
        .inr answered, rowEnd ttl, ?_⟩
      rw [rows_of_not _ _ _ fun both => quiet both.2, sent, List.append_nil]

/-- What `traceloop` sends: the probes of whole rows, in order. -/
theorem probes_spec {started : Started Host} (some : 0 ≤ started.setup.nprobes)
    (hops : 1 ≤ started.setup.maxTtl) :
    ∃ (last : Int) (count : Nat),
      Last started.setup.maxTtl started.setup.nprobes results last ∧
      (count : Int) = last * started.setup.nprobes ∧
      probes trace results started =
        (numbers 0 count).map (probeAt trace started.setup started.pr started.sasend.host) := by
  have start : Vars.At started.sasend.host ((1 - 1) * started.setup.nprobes)
      ⟨0, 0, started.sasend⟩ := ⟨(Int.zero_mul _).symm, rfl, Int.le_refl 0⟩
  obtain ⟨last, count, above, below, before, stops, total, sent⟩ :=
    @rows_spec Host trace _ started.pr results _ (started.setup.maxTtl - 1).toNat 1 _ some
      (by omega) start rfl
  rw [Int.sub_self, Int.zero_mul] at before total sent
  exact ⟨last, count, ⟨above, below, fun k first => before k first, stops⟩, by omega, sent⟩

end Loops

/-! ### `main` -/

/-- The hop limits that the options leave. -/
theorem getopts_spec {flags : List Flag} {maxTtl maxTtl' : Int} {verbose verbose' : Bool}
    (start : 2 ≤ maxTtl) (accepted : getopts flags maxTtl verbose = .ok (maxTtl', verbose')) :
    2 ≤ maxTtl' := by
  induction flags generalizing maxTtl verbose with
  | nil =>
    cases accepted
    exact start
  | cons flag flags ih =>
    cases flag with
    | m value =>
      rw [getopts] at accepted
      split_ifs at accepted with small
      exact ih (by omega) accepted
    | v => exact ih start accepted
    | unknown => cases accepted

section Main

variable {Host : Type} {endian : Endian} {pid dport : Nat} {nprobes : Int} {flags : List Flag}
  {operands : Nat} {ai : Addrinfo Host} {started : Started Host}

/-- A protocol has the option of its family, and a `salen` of zero. -/
theorem protocol_spec {pr : Proto} (accepted : protocol ai = .ok pr) :
    pr.salen = 0 ∧ hopLimit ai.family = (pr.ttllevel, pr.ttloptname) := by
  unfold protocol at accepted
  split_ifs at accepted with inet inet6 mapped
  · cases accepted
    exact ⟨rfl, if_pos inet⟩
  · cases accepted
    exact ⟨rfl, if_neg inet⟩

/-- What `traceloop` starts from. -/
theorem main_spec
    (accepted : main endian pid dport nprobes flags operands ai = .ok started) :
    started.setup.endian = endian ∧ started.setup.dport = dport ∧
      started.setup.nprobes = nprobes ∧ 2 ≤ started.setup.maxTtl ∧ started.sasend = ai.addr ∧
      protocol ai = .ok started.pr := by
  unfold main at accepted
  cases options : getopts flags 30 false with
  | error text =>
    rw [options] at accepted
    cases accepted
  | ok chosen =>
    obtain ⟨maxTtl, verbose⟩ := chosen
    rw [options] at accepted
    change (if operands ≠ 1 then _ else _) = _ at accepted
    split_ifs at accepted with one
    cases selected : protocol ai with
    | error text =>
      rw [selected] at accepted
      cases accepted
    | ok pr =>
      rw [selected] at accepted
      cases accepted
      exact ⟨rfl, rfl, rfl, getopts_spec (by decide) options, rfl, rfl⟩

/-- A probe as it is sent is the probe with its number, to an address of no bytes, as long as the
two numbers fit into the datagram. -/
theorem isProbe_probeAt {trace : Trace Host} {k : Int}
    (accepted : main endian pid dport nprobes flags operands ai = .ok started)
    (recSeq : trace.recSeq k = k) (recTtl : trace.recTtl (ttlOf nprobes k) = ttlOf nprobes k) :
    IsProbe ai endian dport nprobes 0 k
      (probeAt trace started.setup started.pr started.sasend.host k) := by
  obtain ⟨order, source, count, -, target, selected⟩ := main_spec accepted
  obtain ⟨zero, option⟩ := protocol_spec selected
  have limit : ttlOf started.setup.nprobes k = ttlOf nprobes k := by rw [count]
  exact {
    host := by
      show started.sasend.host = _
      rw [target]
    port := by
      show endian.bytes (started.setup.endian.htons (probePort started.setup.dport k)) = _
      rw [order, source, Endian.bytes_htons, probePort]
    length := zero
    ttl := by
      show (started.pr.ttllevel, started.pr.ttloptname, ttlOf started.setup.nprobes k) = _
      rw [option, limit]
    recSeq := recSeq
    recTtl := by
      show trace.recTtl (ttlOf started.setup.nprobes k) = _
      rw [limit, recTtl] }

end Main

/-- There is a first probe, and it is sent to an address of no bytes. -/
theorem not_scheduled_addrlen {Host : Type} (trace : Trace Host) {endian : Endian}
    {pid dport : Nat} {nprobes : Int} {flags : List Flag} {operands : Nat} {ai : Addrinfo Host}
    {started : Started Host} (results : Int → Int)
    (accepted : main endian pid dport nprobes flags operands ai = .ok started)
    (some : 1 ≤ nprobes) :
    ¬ Scheduled ai endian dport nprobes started.setup.maxTtl results ai.addrlen
      (probes trace results started) := by
  intro scheduled
  obtain ⟨-, -, sameCount, hops, -, selected⟩ := main_spec accepted
  obtain ⟨last, count, isLast, total, sent⟩ :=
    @probes_spec Host trace results started (by omega) (by omega)
  have positive := Int.mul_pos (Int.lt_of_lt_of_le Int.zero_lt_one isLast.positive)
    (Int.lt_of_lt_of_le Int.zero_lt_one (sameCount ▸ some))
  obtain ⟨rest, rfl⟩ : ∃ rest, count = rest + 1 := ⟨count - 1, by omega⟩
  rw [sent, numbers_succ, List.map_cons] at scheduled
  have length : started.pr.salen = ai.addrlen := (scheduled.probe 0 _ rfl).length
  have zero : started.pr.salen = 0 := (protocol_spec selected).1
  exact absurd (length.symm.trans zero) (Nat.ne_of_gt ai.nonempty)

/-- Traceroute never sends a probe that is addressed with the length of its address: whatever the
target, the options and the answers, `salen` is zero. That apart the schedule is kept. The `k`-th
probe has its port, its hop limit and its two numbers, if these fit into the datagram, and the
probes stop where they should. -/
theorem probes_never_scheduled {Host : Type} (trace : Trace Host) (endian : Endian)
    (pid dport : Nat) (nprobes : Int) (flags : List Flag) (operands : Nat) (ai : Addrinfo Host)
    (started : Started Host) (results : Int → Int)
    (accepted : main endian pid dport nprobes flags operands ai = .ok started)
    (some : 1 ≤ nprobes) :
    ¬ Scheduled ai endian dport nprobes started.setup.maxTtl results ai.addrlen
        (probes trace results started) ∧
      ((∀ k, 1 ≤ k → k ≤ started.setup.maxTtl * nprobes → trace.recSeq k = k) →
        (∀ ttl, 1 ≤ ttl → ttl ≤ started.setup.maxTtl → trace.recTtl ttl = ttl) →
        Scheduled ai endian dport nprobes started.setup.maxTtl results 0
          (probes trace results started)) := by
  obtain ⟨-, -, sameCount, hops, -, -⟩ := main_spec accepted
  obtain ⟨last, count, isLast, total, sent⟩ :=
    @probes_spec Host trace results started (by omega) (by omega)
  rw [sameCount] at isLast total
  refine ⟨not_scheduled_addrlen trace results accepted some,
    fun wideSeq wideTtl => ⟨fun i probe found => ?_, last, isLast, ?_⟩⟩
  · rw [sent] at found
    obtain ⟨below, rfl⟩ := getElem?_map_numbers found
    rw [Int.zero_add]
    have within : (i : Int) + 1 ≤ last * nprobes := by omega
    have all : last * nprobes ≤ started.setup.maxTtl * nprobes :=
      Int.mul_le_mul_of_nonneg_right isLast.within (by omega)
    obtain ⟨above, limit⟩ := ttlOf_mem some (show 1 ≤ (i : Int) + 1 by omega) within
    exact isProbe_probeAt accepted (wideSeq _ (by omega) (within.trans all))
      (wideTtl _ above (limit.trans isLast.within))
  · rw [sent, List.length_map, length_numbers, total]

/-- The library as it is documented, with numbers of any size in the datagram. -/
def plain : Trace Nat where
  recSeq k := k
  recTtl ttl := ttl
  sockSetPort address _ port := { address with port }
  documented _ _ _ := rfl

/-- The address 127.0.0.1. -/
def localhost : Addrinfo Nat := ⟨afInet, ⟨0x7f000001, 0⟩, 16, false, by decide⟩

/-- What `traceroute -m 2 127.0.0.1` starts from. -/
def startedLocalhost : Started Nat :=
  ⟨⟨.little, false, 1, 33434, 2, 3⟩, protoV4, ⟨0x7f000001, 0⟩⟩

theorem probes_never_scheduled_localhost :
    ¬ Scheduled localhost .little 33434 3 2 (fun _ => -1) 16
        (probes plain (fun _ => -1) startedLocalhost) ∧
      Scheduled localhost .little 33434 3 2 (fun _ => -1) 0
        (probes plain (fun _ => -1) startedLocalhost) := by
  have never := probes_never_scheduled plain .little 1 33434 3 [.m 2] 1 localhost
    startedLocalhost (fun _ => -1) rfl (by decide)
  exact ⟨never.1, never.2 (fun k _ _ => rfl) (fun ttl _ _ => rfl)⟩

/-- The address of the loopback interface has 16 bytes, and none of them is counted. -/
theorem not_probes_scheduled :
    ¬ ∀ (trace : Trace Nat) (endian : Endian) (pid dport : Nat) (nprobes : Int)
        (flags : List Flag) (operands : Nat) (ai : Addrinfo Nat) (started : Started Nat)
        (results : Int → Int),
      (∀ k, trace.recSeq k = k ∧ trace.recTtl k = k) →
      main endian pid dport nprobes flags operands ai = .ok started → 1 ≤ nprobes →
        Scheduled ai endian dport nprobes started.setup.maxTtl results ai.addrlen
          (probes trace results started) := by
  intro scheduled
  have accepted : main .little 1 33434 3 [.m 2] 1 localhost = .ok startedLocalhost := rfl
  exact not_scheduled_addrlen plain (fun _ => -1) accepted (by decide)
    (scheduled plain .little 1 33434 3 [.m 2] 1 localhost startedLocalhost (fun _ => -1)
      (fun k => ⟨rfl, rfl⟩) accepted (by decide))

/-! ### The loops and the steps -/

section Steps

variable {Host : Type} (trace : Trace Host) (setup : Setup) (results : Int → Int)

/-- The hop limit behind an event, if it is `hop` before: a `setsockopt` sets it. -/
def hopBehind (hop : Int) : Event → Int
  | .setsockopt ttl => ttl
  | _ => hop

/-- The probe that an event of `traceloop`, taken step by step, sends under this hop limit. -/
def sentBy (host : Host) (hop : Int) : Event → List (Sent Host)
  | .sendto recSeq recTtl port salen =>
    [⟨(protoV4.ttllevel, protoV4.ttloptname, hop), trace.recSeq recSeq, trace.recTtl recTtl,
      ⟨host, setup.endian.htons port⟩, salen⟩]
  | _ => []

/-- The probes that are sent in a history, each under the hop limit that was set last. -/
def probesOf (host : Host) : Int → List Event → List (Sent Host)
  | _, [] => []
  | hop, event :: events =>
    sentBy trace setup host hop event ++ probesOf host (hopBehind hop event) events

/-- `results` is what `recv_v4` has returned in this history. -/
structure Agrees (history : List Event) : Prop where
  timeout : ∀ seq, .timeout seq ∈ history → results seq = -3
  reply : ∀ seq pass code, .reply seq pass code ∈ history → results seq = code

/-- The rest of a row, and the rows behind it. -/
def restOfRow (ttl probe : Int) (vars : Vars Host) : List (Sent Host) :=
  (row trace setup protoV4 results ttl probe vars).1 ++
    rows trace setup protoV4 results (ttl + 1) (row trace setup protoV4 results ttl probe vars).2

/-- What is still to be sent. Inside `recv_v4`, its result decides. -/
def remaining (loop : Loop) (sasend : Sockaddr Host) : List (Sent Host) :=
  match loop.pc with
  | .ttl => rows trace setup protoV4 results loop.ttl ⟨loop.seq, loop.done, sasend⟩
  | .probe => restOfRow trace setup results loop.ttl loop.probe ⟨loop.seq, loop.done, sasend⟩
  | .recv => restOfRow trace setup results loop.ttl (loop.probe + 1)
      ⟨loop.seq, if results loop.seq = -1 then loop.done + 1 else loop.done, sasend⟩
  | .ended => []

variable {trace setup results}

theorem Agrees.mono {history events : List Event} (agrees : Agrees results history)
    (part : events ⊆ history) : Agrees results events where
  timeout seq member := agrees.timeout seq (part member)
  reply seq pass code member := agrees.reply seq pass code (part member)

/-- What `recv_v4` has returned. -/
theorem Agrees.answered {seq code : Int} {pass : Pass} {events : List Event}
    (agrees : Agrees results events) (member : Traceroute.answered seq pass code ∈ events) :
    results seq = code := by
  unfold Traceroute.answered at member
  split_ifs at member with timeout
  · exact timeout ▸ agrees.timeout seq member
  · exact agrees.reply seq pass code member

theorem probesOf_append (host : Host) (hop : Int) (history events : List Event) :
    probesOf trace setup host hop (history ++ events) =
      probesOf trace setup host hop history ++
        probesOf trace setup host (history.foldl hopBehind hop) events := by
  induction history generalizing hop with
  | nil => rfl
  | cons event history ih =>
    rw [List.cons_append, probesOf, ih, probesOf, List.append_assoc, List.foldl_cons]

/-- An event that neither sends a probe nor sets a hop limit. -/
def Quiet : Event → Prop
  | .setsockopt _ => False
  | .sendto _ _ _ _ => False
  | _ => True

theorem quiet_events (pass : Pass) : ∀ event ∈ pass.events, Quiet event := by
  cases pass with
  | gotalarm => exact fun event member => absurd member List.not_mem_nil
  | recvfrom received => exact List.forall_mem_singleton.mpr True.intro

theorem quiet_answered (seq code : Int) (pass : Pass) :
    Quiet (Traceroute.answered seq pass code) := by
  unfold Traceroute.answered
  split_ifs <;> exact True.intro

/-- Inside `recv_v4` nothing is sent, and the hop limit stays. -/
theorem quiet_probesOf (host : Host) {hop : Int} {events : List Event}
    (quiet : ∀ event ∈ events, Quiet event) :
    probesOf trace setup host hop events = [] ∧ events.foldl hopBehind hop = hop := by
  induction events with
  | nil => exact ⟨rfl, rfl⟩
  | cons event events ih =>
    obtain ⟨head, tail⟩ := List.forall_mem_cons.mp quiet
    have silent : sentBy trace setup host hop event = [] := by
      cases event <;> first | rfl | exact head.elim
    have same : hopBehind hop event = hop := by
      cases event <;> first | rfl | exact head.elim
    rw [probesOf, silent, same, List.foldl_cons, same]
    exact ih tail

/-- At a probe, the hop limit that was set last is that of its row. -/
def HopSet (hop : Int) (loop : Loop) : Prop :=
  loop.pc = .probe ∨ loop.pc = .recv → hop = loop.ttl

/-- One step sends the front of what is still to be sent. -/
theorem remaining_step {loop next : Loop} {hop : Int} {events : List Event}
    (sasend : Sockaddr Host) (steps : Step setup loop events next)
    (agrees : Agrees results events) (set : HopSet hop loop) :
    HopSet (events.foldl hopBehind hop) next ∧
      ∃ sasend' : Sockaddr Host, sasend'.host = sasend.host ∧
        remaining trace setup results loop sasend =
          probesOf trace setup sasend.host hop events ++
            remaining trace setup results next sasend' := by
  obtain ⟨pc, ttl, probe, seq, done⟩ := loop
  cases steps with
  | ttl here more =>
    cases here
    exact ⟨fun _ => rfl, sasend, rfl, rows_of_le _ _ _ more.1 more.2⟩
  | finish here noMore =>
    cases here
    exact ⟨fun at_probe => by simp at at_probe, sasend, rfl, rows_of_not _ _ _ noMore⟩
  | probe here more =>
    cases here
    obtain rfl : hop = ttl := set (.inl rfl)
    refine ⟨fun _ => rfl, trace.sockSetPort sasend protoV4.salen
      (setup.endian.htons (probePort setup.dport (seq + 1))), ?_, ?_⟩
    · rw [trace.documented]
    · simp only [remaining, restOfRow]
      rw [row_of_lt _ _ _ more]
      simp only [send, trace.documented]
      rfl
  | next here noMore =>
    cases here
    refine ⟨fun at_probe => by simp at at_probe, sasend, rfl, ?_⟩
    simp only [remaining, restOfRow]
    rw [row_of_not_lt _ _ _ noMore]
    rfl
  | @again pass printed here delivered goesOn =>
    cases here
    have quiet : ∀ event ∈ pass.events ++ printed.toList.map Event.verbose,
        Quiet event :=
      List.forall_mem_append.mpr ⟨quiet_events pass,
        List.forall_mem_map.mpr fun _ _ => True.intro⟩
    obtain ⟨silent, same⟩ := @quiet_probesOf Host trace setup sasend.host hop _ quiet
    exact ⟨fun at_probe => same.trans (set at_probe), sasend, rfl,
      by rw [silent, List.nil_append]⟩
  | @returns pass code here delivered ends =>
    cases here
    have returned : results seq = code :=
      agrees.answered (List.mem_append_right _ (List.mem_singleton.mpr rfl))
    have quiet : ∀ event ∈ pass.events ++ [Traceroute.answered seq pass code],
        Quiet event :=
      List.forall_mem_append.mpr ⟨quiet_events pass,
        List.forall_mem_singleton.mpr (quiet_answered seq code pass)⟩
    obtain ⟨silent, same⟩ := @quiet_probesOf Host trace setup sasend.host hop _ quiet
    refine ⟨fun _ => same.trans (set (.inr rfl)), sasend, rfl, ?_⟩
    rw [silent, List.nil_append]
    simp only [remaining, returned]

/-- The loops send what the steps send. In every run of `traceloop` that has come to its end, the
probes are those of the two loops, for the answers of this run, and each is sent under the hop
limit that was set last. Before the first it may be any. -/
theorem run_probes {history : List Event} {loop : Loop} (hop : Int) (sasend : Sockaddr Host)
    (run : Run (traceloop setup) history loop) (ended : loop.pc = .ended)
    (agrees : Agrees results history) :
    probesOf trace setup sasend.host hop history =
      probes trace results ⟨setup, protoV4, sasend⟩ := by
  have all := run.invariant (fun history loop => Agrees results history →
    HopSet (history.foldl hopBehind hop) loop ∧
      ∃ sasend' : Sockaddr Host, sasend'.host = sasend.host ∧
        probes trace results ⟨setup, protoV4, sasend⟩ =
          probesOf trace setup sasend.host hop history ++
            remaining trace setup results loop sasend') ?_ ?_ agrees
  · obtain ⟨-, sasend', -, sent⟩ := all
    rw [sent]
    simp only [remaining, ended, List.append_nil]
  · rintro history loop ⟨rfl, rfl⟩ -
    exact ⟨fun at_probe => by simp at at_probe, sasend, rfl, rfl⟩
  · intro history loop events next ih steps agrees
    obtain ⟨set, before, same, sent⟩ :=
      ih (agrees.mono (List.subset_append_left history events))
    obtain ⟨set', behind, same', step⟩ := @remaining_step Host trace setup results _ _ _ _ before
      steps (agrees.mono (List.subset_append_right history events)) set
    rw [same] at step same'
    refine ⟨by rw [List.foldl_append]; exact set', behind, same', ?_⟩
    rw [sent, step, probesOf_append, List.append_assoc]

/-- Up to three hops and two probes at each. -/
def threeHops : Setup := ⟨.little, false, 1, 33434, 3, 2⟩

/-- The destination answers the third probe. -/
def destinationSecond (k : Int) : Int := if k = 3 then -1 else -3

/-- The waiting ends at the alarm. -/
theorem timesOut {history : List Event} {ttl probe seq done : Int}
    (run : Run (traceloop threeHops) history ⟨.recv, ttl, probe, seq, done⟩) :
    Run (traceloop threeHops) (history ++ [.timeout seq])
      ⟨.probe, ttl, probe + 1, seq, done⟩ :=
  run.step (@Step.returns threeHops ⟨.recv, ttl, probe, seq, done⟩ .gotalarm (-3) rfl trivial rfl)

/-- Two hops are probed, and nothing is sent behind the row of the answer. -/
theorem run_threeHops : Run (traceloop threeHops)
    [.setsockopt 1, .sendto 1 1 33435 0, .timeout 1, .sendto 2 1 33436 0, .timeout 2,
      .setsockopt 2, .sendto 3 2 33437 0, .recvfrom (.packet (portUnreachable 33437)),
      .reply 3 (.recvfrom (.packet (portUnreachable 33437))) (-1), .sendto 4 2 33438 0,
      .timeout 4] ⟨.ended, 3, 2, 4, 1⟩ := by
  have started : Run (traceloop threeHops) [] ⟨.ttl, 1, 0, 0, 0⟩ := .start ⟨rfl, rfl⟩
  have first := timesOut ((started.step (.ttl rfl ⟨by decide, rfl⟩)).step (.probe rfl (by decide)))
  have second := timesOut (first.step (.probe rfl (by decide)))
  have third := ((second.step (.next rfl (by decide))).step
    (.ttl rfl ⟨by decide, rfl⟩)).step (.probe rfl (by decide))
  have reached : Step threeHops ⟨.recv, 2, 0, 3, 0⟩
      (Pass.events (.recvfrom (.packet (portUnreachable 33437))) ++
        [answered 3 (.recvfrom (.packet (portUnreachable 33437))) (-1)]) ⟨.probe, 2, 1, 3, 1⟩ :=
    @Step.returns threeHops ⟨.recv, 2, 0, 3, 0⟩ (.recvfrom (.packet (portUnreachable 33437))) (-1)
      rfl (show 20 ≤ (portUnreachable 33437).length by decide) (by decide)
  have fourth := timesOut ((third.step reached).step (.probe rfl (by decide)))
  exact (fourth.step (.next rfl (by decide))).step (.finish rfl (by decide))

theorem run_probes_threeHops :
    [(protoV4.ttllevel, protoV4.ttloptname, (1 : Int)), (0, 2, 1), (0, 2, 2), (0, 2, 2)] =
      (probes plain destinationSecond ⟨threeHops, protoV4, ⟨0x7f000001, 0⟩⟩).map Sent.option := by
  have same := @run_probes Nat plain threeHops destinationSecond _ _ 64 ⟨0x7f000001, 0⟩
    run_threeHops rfl ⟨fun seq member => ?_, fun seq pass code member => ?_⟩
  · rw [← same]
    rfl
  · simp at member
    obtain rfl | rfl | rfl := member <;> decide
  · simp at member
    obtain ⟨rfl, -, rfl⟩ := member
    rfl

end Steps

end SocketProgram.Traceroute.Schedule
