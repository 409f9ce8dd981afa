/-
This file is about the time that `ping` reads out of an echo reply. It adds `proc_v6` and
`readloop` to the model.

`readloop` receives every packet over the front of the same buffer, so behind a packet stands
what is left of the longer ones before it. Both procedures test that there is "enough data to
use" before they read the time of sending, with the size that a `struct timeval` has where a
`long` is four bytes. Here it has sixteen bytes, and an echo reply to this process with eight to
fifteen bytes of data passes the test although its time ends behind the packet. Every other
packet is read within its own bytes.
-/

import SocketProgram.Ping

namespace SocketProgram.Ping

open Memory Printf Words

variable {Host Printed : Type*}

/-! ### The source -/

/-- `BUFSIZE`. -/
def bufsize : Nat := 1500

/-- `ICMP6_ECHO_REPLY`. -/
def icmp6EchoReply : Byte := 129

/-- `IPPROTO_IPV6`. -/
def ipprotoIpv6 : Int := 41

/-- `IPV6_HOPLIMIT`. -/
def ipv6Hoplimit : Int := 52

/-- `struct cmsghdr` with its data. -/
structure Cmsghdr where
  cmsgLevel : Int
  cmsgType : Int
  data : List Byte
  deriving DecidableEq, Repr

/-- What `recvmsg` leaves in `msg` and in what it points to: the sender and the ancillary data. -/
structure Message (Host : Type*) where
  sarecv : Host
  control : List Cmsghdr

/-- What `proc_v6` calls `printf` for, with the host it comes from. `rtt` is the time that `tv_sub`
leaves in `tvrecv`, of which the double is computed. -/
inductive Report6 (Host : Type*)
  | reply (len : Int) (host : Host) (seq : Nat) (hlim : Int) (rtt : Timeval)
  | other (len : Int) (host : Host) (type : Nat) (code : Nat)
  deriving DecidableEq, Repr

/-- The line that `proc_v6` prints, from what `sock_ntop_host` makes of a host and from the text of
`errno`. -/
def Report6.line (ntop : Host → List Char) (message : List Char) :
    Report6 Host → Option (List Char)
  | .reply len host seq hlim rtt => do
    let front ← printf message (format "%d bytes from %s: seq=%u, hlim=".toList)
      [.int len, .string (ntop host), .int seq]
    let hops ← (if hlim = -1 then printf message (format "???".toList) []
      else printf message (format "%d".toList) [.int hlim])
    let back ← printf message (format ",rtt=%.3f ms\n".toList) [.double (rttOf rtt)]
    some (front ++ (hops ++ back))
  | .other len host type code =>
    printf message (format " %d bytes from %s: type= %d, code= %d\n".toList)
      [.int len, .string (ntop host), .int type, .int code]

/-- The loop over the ancillary data: the first hop limit, and `-1` where there is none. -/
def hlimOf (endian : Endian) (control : List Cmsghdr) : Int :=
  match control.find? fun cmsg =>
    cmsg.cmsgLevel = ipprotoIpv6 ∧ cmsg.cmsgType = ipv6Hoplimit with
  | some cmsg => (endian.load (cmsg.data.take 4) : Int).bmod 4294967296
  | none => -1

/-- `proc_v6(ptr,len,msg,tvrecv)`. -/
def procV6 (endian : Endian) (pid : Nat) (verbose : Bool) (msg : Message Host) (ptr : List Byte)
    (len : Int) (tvrecv : Timeval) : Option (Report6 Host) :=
  let icmp6 := ptr
  if len < 8 then none
  else if icmp6.getD 0 0 = icmp6EchoReply then
    if icmpId endian icmp6 ≠ pid then none
    else if len < 16 then none
    else
      let tvsend := Timeval.load endian ((icmp6.drop 8).take 16)
      let rtt := tvSub tvrecv tvsend
      some (.reply len msg.sarecv (icmpSeq endian icmp6) (hlimOf endian msg.control) rtt)
  else if verbose then
    some (.other len msg.sarecv (icmp6.getD 0 0).toNat (icmp6.getD 1 0).toNat)
  else none

/-- What `recvmsg` does: it returns the length of a packet, or `-1` with `errno` equal to `EINTR`
or to something else. -/
inductive Recvmsg
  | received (packet : List Byte) (fits : packet.length ≤ bufsize)
  | interrupted
  | failed

/-- What the calls of one iteration of `readloop` give. -/
structure Round (Host : Type*) where
  recvmsg : Recvmsg
  msg : Message Host
  tval : Timeval

/-- A call of `fproc`: its arguments. -/
structure Call (Host : Type*) where
  recvbuf : List Byte
  n : Int
  msg : Message Host
  tval : Timeval

/-- The iteration of `readloop`: the buffer behind it and the call it makes. `err_sys` only
prints, so that a failed `recvmsg` is followed by a call with `-1`. -/
def iterate (recvbuf : List Byte) (round : Round Host) : List Byte × Option (Call Host) :=
  match round.recvmsg with
  | .received packet _ =>
    (overwrite recvbuf 0 packet,
      some ⟨overwrite recvbuf 0 packet, packet.length, round.msg, round.tval⟩)
  | .interrupted => (recvbuf, none)
  | .failed => (recvbuf, some ⟨recvbuf, -1, round.msg, round.tval⟩)

/-- `readloop`: the calls of `fproc` it makes. -/
def readloop : List Byte → List (Round Host) → List (Call Host)
  | _, [] => []
  | recvbuf, round :: rounds =>
    (iterate recvbuf round).2.toList ++ readloop (iterate recvbuf round).1 rounds

/-- The bytes received for the packet of a call. -/
def Call.packet (call : Call Host) : List Byte := call.recvbuf.take call.n.toNat

/-- The bytes that a round receives, none where its call of `recvmsg` fails. -/
def Round.packet (round : Round Host) : Option (List Byte) :=
  match round.recvmsg with
  | .received packet _ => some packet
  | .interrupted => none
  | .failed => some []

/-! ### The time within the packet -/

/-- What is common to the two protocols: `fproc`, the round-trip time in what it reports, the test
for an echo reply and the one for an echo reply to this process, and the place of the time in a
packet. -/
structure Proto (Host Printed : Type*) where
  endian : Endian
  fproc : Call Host → Option Printed
  rtt : Printed → Option Timeval
  EchoReply : List Byte → Prop
  Accepts : List Byte → Prop
  tvsend : List Byte → Nat

/-- A report with a round-trip time. -/
def Proto.HasRtt (proto : Proto Host Printed) (report : Printed) : Prop := proto.rtt report ≠ none

/-- A call reads the time within the bytes received: a round-trip time is computed from the
`struct timeval` at its place and only where the whole of it is received, an echo reply that is too
short for it is ignored, and what is reported with a round-trip time does not depend on what stands
behind the packet. -/
structure Inside (proto : Proto Host Printed) (call : Call Host) : Prop where
  reads : ∀ report rtt, proto.fproc call = some report → proto.rtt report = some rtt →
    rtt = tvSub call.tval
      (Timeval.load proto.endian ((call.recvbuf.drop (proto.tvsend call.recvbuf)).take 16))
  within : ∀ report, proto.fproc call = some report → proto.HasRtt report →
    (proto.tvsend call.recvbuf + 16 : Int) ≤ call.n
  ignored : proto.EchoReply call.recvbuf →
    call.n < (proto.tvsend call.recvbuf + 16 : Int) → proto.fproc call = none
  unmixed : ∀ report, proto.fproc call = some report → proto.HasRtt report →
    ∀ other : List Byte, other.take call.n.toNat = call.packet →
      proto.fproc { call with recvbuf := other } = some report

/-- An echo reply to this process that ends within the last eight bytes of its time. -/
def CutsTime (proto : Proto Host Printed) (packet : List Byte) : Prop :=
  proto.Accepts packet ∧ proto.tvsend packet + 8 ≤ packet.length ∧
    packet.length < proto.tvsend packet + 16

/-- What the two procedures have in common. Their tests are made on the header, and let an echo
reply through from the eighth byte of its data on. -/
structure Lawful (proto : Proto Host Printed) : Prop where
  reads : ∀ call report rtt, proto.fproc call = some report → proto.rtt report = some rtt →
    rtt = tvSub call.tval
      (Timeval.load proto.endian ((call.recvbuf.drop (proto.tvsend call.recvbuf)).take 16))
  reports : ∀ call, (∃ report, proto.fproc call = some report ∧ proto.HasRtt report) ↔
    proto.Accepts call.recvbuf ∧ (proto.tvsend call.recvbuf + 8 : Int) ≤ call.n
  echo : ∀ call report, proto.EchoReply call.recvbuf → proto.fproc call = some report →
    proto.HasRtt report
  behind : ∀ buf, 8 ≤ proto.tvsend buf
  start : ∀ buf m, 8 ≤ m → proto.tvsend (buf.take m) = proto.tvsend buf
  header : ∀ buf m, proto.tvsend buf + 8 ≤ m → (proto.Accepts (buf.take m) ↔ proto.Accepts buf)
  data : ∀ (call : Call Host) m, proto.tvsend call.recvbuf + 16 ≤ m →
    proto.fproc { call with recvbuf := call.recvbuf.take m } = proto.fproc call

/-- A call reads the time within the bytes received exactly where its packet does not cut it. -/
theorem inside_iff {proto : Proto Host Printed} (lawful : Lawful proto) {call : Call Host}
    (whole : call.packet.length = call.n.toNat) :
    Inside proto call ↔ ¬ CutsTime proto call.packet := by
  have start : 8 ≤ call.n.toNat → proto.tvsend call.packet = proto.tvsend call.recvbuf :=
    lawful.start _ _
  have behind := lawful.behind call.recvbuf
  constructor
  · rintro inside ⟨accepts, low, high⟩
    rw [whole] at low high
    have long := lawful.behind call.packet
    rw [start (by omega)] at low high
    have header := (lawful.header call.recvbuf call.n.toNat low).mp accepts
    obtain ⟨report, reported, rtt⟩ := (lawful.reports call).mpr ⟨header, by omega⟩
    have within := inside.within report reported rtt
    omega
  · intro notCut
    have within (report : Printed) (reported : proto.fproc call = some report)
        (rtt : proto.HasRtt report) : (proto.tvsend call.recvbuf + 16 : Int) ≤ call.n := by
      obtain ⟨accepts, low⟩ := (lawful.reports call).mp ⟨report, reported, rtt⟩
      by_contra high
      have long : proto.tvsend call.recvbuf + 8 ≤ call.n.toNat := by omega
      refine notCut ⟨(lawful.header call.recvbuf _ long).mpr accepts, ?_, ?_⟩
      · rwa [start (by omega), whole]
      · rw [start (by omega), whole]
        omega
    refine ⟨lawful.reads call, within, ?_, ?_⟩
    · intro echo short
      cases reported : proto.fproc call with
      | none => rfl
      | some report =>
        have enough := within report reported (lawful.echo call report echo reported)
        omega
    · intro report reported rtt other same
      have enough := within report reported rtt
      have received : proto.tvsend call.recvbuf + 16 ≤ call.n.toNat := by omega
      have start' : proto.tvsend other = proto.tvsend call.recvbuf := by
        rw [← lawful.start other call.n.toNat (by omega), same, start (by omega)]
      have data := lawful.data { call with recvbuf := other } call.n.toNat (start' ▸ received)
      rw [← data]
      show proto.fproc { call with recvbuf := other.take call.n.toNat } = some report
      rw [same, ← reported]
      exact lawful.data call call.n.toNat received

/-! ### The two procedures -/

/-- The round-trip time in a report of `proc_v4`. -/
def Report.rtt : Report Host → Option Timeval
  | .reply _ _ _ _ rtt => some rtt
  | .other .. => none

/-- The round-trip time in a report of `proc_v6`. -/
def Report6.rtt : Report6 Host → Option Timeval
  | .reply _ _ _ _ rtt => some rtt
  | .other .. => none

/-- `proc_v4`, whose packets start with an IP header of their own length. -/
def protoV4 (endian : Endian) (pid : Nat) (verbose : Bool) : Proto Host (Report Host) where
  endian := endian
  fproc call := procV4 endian pid verbose call.msg.sarecv call.recvbuf call.n call.tval
  rtt := Report.rtt
  EchoReply ptr := (icmpOf ptr).getD 0 0 = icmpEchoreply
  Accepts ptr := ptr.getD 9 0 = ipprotoIcmp ∧ (icmpOf ptr).getD 0 0 = icmpEchoreply ∧
    icmpId endian (icmpOf ptr) = pid
  tvsend ptr := hlen1 ptr + 8

/-- `proc_v6`, whose packets start with the ICMP header. -/
def protoV6 (endian : Endian) (pid : Nat) (verbose : Bool) : Proto Host (Report6 Host) where
  endian := endian
  fproc call := procV6 endian pid verbose call.msg call.recvbuf call.n call.tval
  rtt := Report6.rtt
  EchoReply ptr := ptr.getD 0 0 = icmp6EchoReply
  Accepts ptr := ptr.getD 0 0 = icmp6EchoReply ∧ icmpId endian ptr = pid
  tvsend _ := 8

theorem getD_take (buf : List Byte) {index size : Nat} (inside : index < size) :
    (buf.take size).getD index 0 = buf.getD index 0 := by
  rw [List.getD_eq_getElem?_getD, List.getElem?_take_of_lt inside, ← List.getD_eq_getElem?_getD]

theorem hlen1_take (ptr : List Byte) {size : Nat} (inside : 0 < size) :
    hlen1 (ptr.take size) = hlen1 ptr := by
  rw [hlen1, getD_take ptr inside, hlen1]

theorem icmpOf_take (ptr : List Byte) {size : Nat} (inside : 0 < size) :
    icmpOf (ptr.take size) = (icmpOf ptr).take (size - hlen1 ptr) := by
  rw [icmpOf, hlen1_take ptr inside, List.drop_take, icmpOf]

theorem icmpId_take (endian : Endian) (icmp : List Byte) {size : Nat} (inside : 8 ≤ size) :
    icmpId endian (icmp.take size) = icmpId endian icmp := by
  rw [icmpId, getD_take icmp (by omega), getD_take icmp (by omega), icmpId]

theorem icmpSeq_take (endian : Endian) (icmp : List Byte) {size : Nat} (inside : 8 ≤ size) :
    icmpSeq endian (icmp.take size) = icmpSeq endian icmp := by
  rw [icmpSeq, getD_take icmp (by omega), getD_take icmp (by omega), icmpSeq]

theorem tvsend_take (icmp : List Byte) {size : Nat} (inside : 24 ≤ size) :
    ((icmp.take size).drop 8).take 16 = (icmp.drop 8).take 16 := by
  rw [List.drop_take, List.take_take, Nat.min_eq_left (by omega)]

theorem lawful_protoV4 (endian : Endian) (pid : Nat) (verbose : Bool) :
    Lawful (protoV4 endian pid verbose : Proto Host (Report Host)) where
  reads := by
    intro call report rtt reported contains
    simp only [protoV4, procV4] at reported contains ⊢
    split_ifs at reported
    · obtain rfl := Option.some.inj reported
      obtain rfl := Option.some.inj contains
      rw [icmpOf, List.drop_drop]
    · obtain rfl := Option.some.inj reported
      exact absurd contains.symm (Option.some_ne_none rtt)
  reports call := by
    constructor
    · rintro ⟨report, reported, rtt⟩
      simp only [protoV4, procV4] at reported ⊢
      split_ifs at reported with notIcmp short type id cut verb
      · exact ⟨⟨not_not.mp notIcmp, type, not_not.mp id⟩, by omega⟩
      · obtain rfl := Option.some.inj reported
        exact absurd rfl rtt
    · rintro ⟨⟨isIcmp, type, id⟩, enough⟩
      have enough : ((hlen1 call.recvbuf + 8 : Nat) + 8 : Int) ≤ call.n := enough
      simp only [protoV4, procV4]
      rw [if_neg (not_not.mpr isIcmp), if_neg (by omega), if_pos type,
        if_neg (not_not.mpr id), if_neg (by omega)]
      exact ⟨_, rfl, Option.some_ne_none _⟩
  echo := by
    intro call report echo reported
    simp only [protoV4, procV4] at echo reported ⊢
    rw [if_pos echo] at reported
    split_ifs at reported with notIcmp short id cut
    obtain rfl := Option.some.inj reported
    exact Option.some_ne_none _
  behind ptr := Nat.le_add_left _ _
  start ptr size inside := by
    show hlen1 (ptr.take size) + 8 = _
    rw [hlen1_take ptr (by omega)]
    rfl
  header ptr size inside := by
    have inside : hlen1 ptr + 8 + 8 ≤ size := inside
    simp only [protoV4]
    rw [icmpOf_take ptr (by omega), getD_take ptr (by omega), getD_take _ (by omega),
      icmpId_take endian _ (by omega)]
  data call size inside := by
    have inside : hlen1 call.recvbuf + 8 + 16 ≤ size := inside
    simp only [protoV4, procV4]
    rw [icmpOf_take _ (by omega), getD_take _ (by omega), getD_take _ (by omega),
      getD_take _ (by omega), getD_take _ (by omega), icmpId_take endian _ (by omega),
      icmpSeq_take endian _ (by omega), tvsend_take _ (by omega), hlen1_take _ (by omega)]

theorem lawful_protoV6 (endian : Endian) (pid : Nat) (verbose : Bool) :
    Lawful (protoV6 endian pid verbose : Proto Host (Report6 Host)) where
  reads := by
    intro call report rtt reported contains
    simp only [protoV6, procV6] at reported contains ⊢
    split_ifs at reported
    · obtain rfl := Option.some.inj reported
      obtain rfl := Option.some.inj contains
      rfl
    · obtain rfl := Option.some.inj reported
      exact absurd contains.symm (Option.some_ne_none rtt)
  reports call := by
    constructor
    · rintro ⟨report, reported, rtt⟩
      simp only [protoV6, procV6] at reported ⊢
      split_ifs at reported with short type id cut verb
      · exact ⟨⟨type, not_not.mp id⟩, by omega⟩
      · obtain rfl := Option.some.inj reported
        exact absurd rfl rtt
    · rintro ⟨⟨type, id⟩, enough⟩
      have enough : ((8 : Nat) + 8 : Int) ≤ call.n := enough
      simp only [protoV6, procV6]
      rw [if_neg (by omega), if_pos type, if_neg (not_not.mpr id), if_neg (by omega)]
      exact ⟨_, rfl, Option.some_ne_none _⟩
  echo := by
    intro call report echo reported
    simp only [protoV6, procV6] at echo reported ⊢
    rw [if_pos echo] at reported
    split_ifs at reported with short id cut
    obtain rfl := Option.some.inj reported
    exact Option.some_ne_none _
  behind _ := le_rfl
  start _ _ _ := rfl
  header ptr size inside := by
    have inside : 8 + 8 ≤ size := inside
    simp only [protoV6]
    rw [getD_take ptr (by omega), icmpId_take endian _ (by omega)]
  data call size inside := by
    have inside : 8 + 16 ≤ size := inside
    simp only [protoV6, procV6]
    rw [getD_take _ (by omega), getD_take _ (by omega), icmpId_take endian _ (by omega),
      icmpSeq_take endian _ (by omega), tvsend_take _ (by omega)]

/-! ### The loop -/

/-- A call is made for the bytes that the round received, and they stand at the front of a buffer
that keeps its size. -/
theorem iterate_spec {recvbuf : List Byte} (size : recvbuf.length = bufsize)
    (round : Round Host) :
    (iterate recvbuf round).1.length = bufsize ∧
      (iterate recvbuf round).2.toList.map Call.packet = round.packet.toList ∧
      ∀ call ∈ (iterate recvbuf round).2.toList, call.packet.length = call.n.toNat := by
  obtain ⟨recvmsg, msg, tval⟩ := round
  cases recvmsg with
  | received packet fits =>
    have front : (overwrite recvbuf 0 packet).take packet.length = packet :=
      take_overwrite_zero recvbuf packet
    refine ⟨?_, ?_, ?_⟩
    · show (overwrite recvbuf 0 packet).length = bufsize
      rw [length_overwrite recvbuf 0 packet (by omega), size]
    · show [(overwrite recvbuf 0 packet).take packet.length] = [packet]
      rw [front]
    · intro call member
      obtain rfl := List.mem_singleton.mp member
      exact congrArg List.length front
  | interrupted =>
    exact ⟨size, rfl, fun call member => absurd member List.not_mem_nil⟩
  | failed =>
    refine ⟨size, rfl, ?_⟩
    intro call member
    obtain rfl := List.mem_singleton.mp member
    rfl

/-- The calls of `fproc` are made for the packets received, in order. -/
theorem packets_readloop {recvbuf : List Byte} (size : recvbuf.length = bufsize)
    (rounds : List (Round Host)) :
    (readloop recvbuf rounds).map Call.packet = rounds.filterMap Round.packet ∧
      ∀ call ∈ readloop recvbuf rounds, call.packet.length = call.n.toNat := by
  induction rounds generalizing recvbuf with
  | nil => exact ⟨rfl, fun call member => absurd member List.not_mem_nil⟩
  | cons round rounds hypothesis =>
    obtain ⟨size', packet, whole⟩ := iterate_spec size round
    obtain ⟨packets, wholes⟩ := hypothesis size'
    constructor
    · rw [readloop, List.map_append, packet, packets]
      cases received : round.packet with
      | none => rw [List.filterMap_cons_none received]; rfl
      | some bytes => rw [List.filterMap_cons_some received]; rfl
    · intro call member
      exact (List.mem_append.mp member).elim (whole call) (wholes call)

/-- In every run of `readloop`, the time of sending is read within the bytes received for a packet
exactly where the packet is not an echo reply to this process that ends within the last eight
bytes of its time. -/
theorem readloop_inside_iff (endian : Endian) (pid : Nat) (verbose : Bool) {recvbuf : List Byte}
    (size : recvbuf.length = bufsize) (rounds : List (Round Host)) :
    (readloop recvbuf rounds).map Call.packet = rounds.filterMap Round.packet ∧
      ∀ call ∈ readloop recvbuf rounds,
        (Inside (protoV4 endian pid verbose) call ↔
          ¬ CutsTime (protoV4 endian pid verbose : Proto Host (Report Host)) call.packet) ∧
        (Inside (protoV6 endian pid verbose) call ↔
          ¬ CutsTime (protoV6 endian pid verbose : Proto Host (Report6 Host)) call.packet) := by
  obtain ⟨packets, wholes⟩ := packets_readloop size rounds
  refine ⟨packets, fun call member => ?_⟩
  have whole := wholes call member
  exact ⟨inside_iff (lawful_protoV4 endian pid verbose) whole,
    inside_iff (lawful_protoV6 endian pid verbose) whole⟩

/-- An IP header of twenty bytes and an echo reply with eight bytes of data. -/
def cutReply : List Byte :=
  [0x45, 0, 0, 36, 0, 0, 0, 0, 64, 1] ++ List.replicate 10 0 ++
    [icmpEchoreply, 0, 0, 0, 1, 0, 0, 0] ++ List.replicate 8 0

/-- An ICMPv6 echo reply with eight bytes of data. -/
def cutReply6 : List Byte := [icmp6EchoReply, 0, 0, 0, 1, 0, 0, 0] ++ List.replicate 8 0

theorem cutReply_cutsTime :
    CutsTime (protoV4 .little 1 false : Proto Unit (Report Unit)) cutReply ∧
      CutsTime (protoV6 .little 1 false : Proto Unit (Report6 Unit)) cutReply6 :=
  ⟨⟨⟨by decide, by decide, by decide⟩, by decide, by decide⟩,
    ⟨⟨by decide, by decide⟩, by decide, by decide⟩⟩

/-- A run with one of them, and a failed call behind it. -/
theorem readloop_inside_iff_example :
    let msg : Message Unit := ⟨(), []⟩
    let calls := readloop (List.replicate bufsize 0)
      [⟨.received cutReply (by decide), msg, ⟨0, 0⟩⟩, ⟨.failed, msg, ⟨0, 0⟩⟩]
    calls.map Call.packet = [cutReply, []] ∧
      ∀ call ∈ calls, Inside (protoV4 .little 1 false) call ↔ call.packet = [] := by
  intro msg calls
  obtain ⟨packets, inside⟩ := readloop_inside_iff .little 1 false List.length_replicate
    [⟨.received cutReply (by decide), msg, ⟨0, 0⟩⟩, ⟨.failed, msg, ⟨0, 0⟩⟩]
  have packets : calls.map Call.packet = [cutReply, []] := packets
  refine ⟨packets, fun call member => (inside call member).1.trans ?_⟩
  have received : call.packet ∈ [cutReply, []] := packets ▸ List.mem_map_of_mem member
  rcases List.mem_cons.mp received with cut | nothing
  · rw [cut]
    exact iff_of_false (not_not.mpr cutReply_cutsTime.1) (List.cons_ne_nil _ _)
  · rw [List.mem_singleton.mp nothing]
    exact iff_of_true (fun cut => absurd cut.2.1 (by decide)) rfl

/-- Neither of the two is read within its bytes. -/
theorem cutReply_not_inside :
    ∃ (recvbuf : List Byte) (rounds : List (Round Unit)), recvbuf.length = bufsize ∧
      (∃ call ∈ readloop recvbuf rounds, ¬ Inside (protoV4 .little 1 false) call) ∧
      ∃ call ∈ readloop recvbuf rounds, ¬ Inside (protoV6 .little 1 false) call := by
  have size : (List.replicate bufsize (0 : Byte)).length = bufsize := List.length_replicate
  let msg : Message Unit := ⟨(), []⟩
  let rounds : List (Round Unit) :=
    [⟨.received cutReply (by decide), msg, ⟨0, 0⟩⟩, ⟨.received cutReply6 (by decide), msg, ⟨0, 0⟩⟩]
  obtain ⟨packets, wholes⟩ := packets_readloop size rounds
  have packets : (readloop _ rounds).map Call.packet = [cutReply, cutReply6] := packets
  have first : cutReply ∈ (readloop _ rounds).map Call.packet :=
    packets ▸ List.mem_cons_self
  have second : cutReply6 ∈ (readloop _ rounds).map Call.packet :=
    packets ▸ List.mem_cons_of_mem _ List.mem_cons_self
  obtain ⟨call, member, packet⟩ := List.mem_map.mp first
  obtain ⟨call6, member6, packet6⟩ := List.mem_map.mp second
  refine ⟨_, rounds, size, ⟨call, member, ?_⟩, ⟨call6, member6, ?_⟩⟩
  · rw [inside_iff (lawful_protoV4 .little 1 false) (wholes call member), packet, not_not]
    exact cutReply_cutsTime.1
  · rw [inside_iff (lawful_protoV6 .little 1 false) (wholes call6 member6), packet6, not_not]
    exact cutReply_cutsTime.2

end SocketProgram.Ping
