/-
This file models the IPv4 side of `traceroute`: `recv_v4`, which waits for the answer to a
probe, and `traceloop`, which sends the probes one after the other.

A raw socket receives everything that is ICMP. An error message quotes the datagram it is
about, and the probes differ in the destination port, so the quoted ports say which probe is
answered. `recv_v4` finds them behind two IP headers, each with a length field of its own
that whoever sent the packet has chosen. Every byte it looks at is looked up in the packet
here, and a byte that is not there makes the result undefined; that this never happens is
part of what the file proves.
-/

import Mathlib.Data.List.GetD
import SocketProgram.Kernel
import SocketProgram.Library.Runs
import SocketProgram.Library.Words

namespace SocketProgram.Traceroute

open Runs Words

/-! ### The source -/

/-- `ICMP_TIMXCEED`. -/
def icmpTimxceed : Byte := 11

/-- `ICMP_TIMXCEED_INTRANS`. -/
def icmpTimxceedIntrans : Byte := 0

/-- `ICMP_UNREACH`. -/
def icmpUnreach : Byte := 3

/-- `ICMP_UNREACH_PORT`. -/
def icmpUnreachPort : Byte := 3

/-- `IPPROTO_UDP`. -/
def ipprotoUdp : Byte := 17

/-- `sizeof(struct ip)`. -/
def sizeofIp : Nat := 20

/-- A byte of `recvbuf`. `none` when it is not one of those received. -/
def byteAt (recvbuf : List Byte) (i : Nat) : Option Byte := recvbuf[i]?

/-- A 16-bit field of `recvbuf`. -/
def shortAt (endian : Endian) (recvbuf : List Byte) (i : Nat) : Option Nat := do
  let first ← byteAt recvbuf i
  let second ← byteAt recvbuf (i + 1)
  some (endian.word first second)

/-- `ip_hl<<2`, from the byte that `ip_hl` is in. -/
def headerLength (first : Byte) : Nat := (first &&& 0x0f).toNat <<< 2

/-- `value<size` for an `int` and a `size_t`. A negative `int` becomes a large `size_t`. -/
def LessUnsigned (value : Int) (size : Nat) : Prop := 0 ≤ value ∧ value < size

instance (value : Int) (size : Nat) : Decidable (LessUnsigned value size) :=
  inferInstanceAs (Decidable (_ ∧ _))

/-- `dport+seq`, as the 16 bits that `htons` takes of it. -/
def probePort (dport : Nat) (seq : Int) : Nat := ((dport + seq) % 65536).toNat

/-- What the datagram quoted in an error message is: not all there, some other datagram, or the
probe that was sent. -/
inductive Quote
  | short
  | other
  | probe
  deriving DecidableEq, Repr

section Receive

variable (endian : Endian) (verbose : Bool) (sport dport : Nat) (seq : Int) (recvbuf : List Byte)

/-- The lines of `recv_v4` that both branches share. -/
def inspectQuote (hlen1 : Nat) (icmplen : Int) : Option Quote :=
  if LessUnsigned icmplen (8 + sizeofIp) then some .short
  else do
    let hip := hlen1 + 8
    let first ← byteAt recvbuf hip
    let hlen2 := headerLength first
    if icmplen < 8 + hlen2 + 4 then some .short
    else do
      let udp := hip + hlen2
      let protocol ← byteAt recvbuf (hip + 9)
      if protocol = ipprotoUdp then do
        let source ← shortAt endian recvbuf udp
        if source = endian.htons sport then do
          let destination ← shortAt endian recvbuf (udp + 2)
          some (if destination = endian.htons (probePort dport seq) then .probe else .other)
        else some .other
      else some .other

/-- What `recv_v4` prints. -/
inductive Printed
  | recvfromError
  | icmp (type code : Byte)
  deriving DecidableEq, Repr

/-- How a pass of the loop of `recv_v4` ends. -/
inductive Verdict
  | again (printed : Option Printed)
  | returns (ret : Int)
  deriving DecidableEq, Repr

/-- `if(verbose)` at the end of the loop. -/
def report (hlen1 : Nat) : Option Verdict :=
  if verbose then do
    let type ← byteAt recvbuf hlen1
    let code ← byteAt recvbuf (hlen1 + 1)
    some (.again (some (.icmp type code)))
  else some (.again none)

/-- The loop of `recv_v4` after `recvfrom` has returned a packet. -/
def examine : Option Verdict := do
  let first ← byteAt recvbuf 0
  let hlen1 := headerLength first
  let icmplen : Int := recvbuf.length - hlen1
  if icmplen < 8 then some (.again none)
  else do
    let type ← byteAt recvbuf hlen1
    let transit ←
      if type = icmpTimxceed then
        (byteAt recvbuf (hlen1 + 1)).map fun code => decide (code = icmpTimxceedIntrans)
      else some false
    if transit then do
      match ← inspectQuote endian sport dport seq recvbuf hlen1 icmplen with
      | .short => some (.again none)
      | .probe => some (.returns (-2))
      | .other => report verbose recvbuf hlen1
    else if type = icmpUnreach then do
      match ← inspectQuote endian sport dport seq recvbuf hlen1 icmplen with
      | .short => some (.again none)
      | .probe =>
        let code ← byteAt recvbuf (hlen1 + 1)
        some (.returns (if code = icmpUnreachPort then -1 else code.toNat))
      | .other => report verbose recvbuf hlen1
    else report verbose recvbuf hlen1

end Receive

/-- What `recvfrom` returns. -/
inductive Received
  | packet (bytes : List Byte)
  | error (errno : Errno)
  deriving DecidableEq, Repr

/-- One pass of the loop of `recv_v4`: it finds `gotalarm` set, or calls `recvfrom`. -/
inductive Pass
  | gotalarm
  | recvfrom (received : Received)
  deriving DecidableEq, Repr

section Receive

variable (endian : Endian) (verbose : Bool) (sport dport : Nat) (seq : Int)

/-- The body of the loop. `err_sys` only prints; what it leaves is an `icmplen` below 8. -/
def turn : Pass → Option Verdict
  | .gotalarm => some (.returns (-3))
  | .recvfrom (.error errno) =>
    if errno = .eintr then some (.again none) else some (.again (some .recvfromError))
  | .recvfrom (.packet recvbuf) => examine endian verbose sport dport seq recvbuf

/-- `recv_v4`: what it returns and the passes it has left. `some none` when it still waits, and
`none` when it has looked at a byte it has not received. -/
def recvV4 : List Pass → Option (Option (Int × List Pass))
  | [] => some none
  | pass :: passes => do
    match ← turn endian verbose sport dport seq pass with
    | .again _ => recvV4 passes
    | .returns ret => some (some (ret, passes))

end Receive

/-! ### The packets that answer a probe -/

/-- The IP header that memory begins with is skipped by its length field. -/
def skipHeader (memory : List Byte) : List Byte := memory.drop (headerLength (memory.getD 0 0))

/-- The ICMP message in a packet. -/
def icmpOf (packet : List Byte) : List Byte := skipHeader packet

/-- The IP header that an ICMP error quotes. -/
def quotedIp (packet : List Byte) : List Byte := (icmpOf packet).drop 8

/-- What follows the quoted IP header. -/
def quotedUdp (packet : List Byte) : List Byte := skipHeader (quotedIp packet)

/-- Time exceeded in transit, or unreachable. -/
def IsError (packet : List Byte) : Prop :=
  (icmpOf packet).getD 0 0 = icmpTimxceed ∧ (icmpOf packet).getD 1 0 = icmpTimxceedIntrans ∨
    (icmpOf packet).getD 0 0 = icmpUnreach

/-- A packet quotes a datagram with these ports: the quoted IP header and the first four bytes
behind it are there, and they are UDP and the two ports. -/
structure Quotes (source destination : Nat) (packet : List Byte) : Prop where
  header : sizeofIp ≤ (quotedIp packet).length
  ports : 4 ≤ (quotedUdp packet).length
  protocol : (quotedIp packet).getD 9 0 = ipprotoUdp
  source : Endian.big.word ((quotedUdp packet).getD 0 0) ((quotedUdp packet).getD 1 0) = source
  destination :
    Endian.big.word ((quotedUdp packet).getD 2 0) ((quotedUdp packet).getD 3 0) = destination

/-- A packet is an answer to this probe. -/
def Answers (sport dport : Nat) (seq : Int) (packet : List Byte) : Prop :=
  IsError packet ∧ Quotes (sport % 65536) (probePort dport seq) packet

/-- What `recv_v4` returns for an answer. -/
def answerCode (packet : List Byte) : Int :=
  if (icmpOf packet).getD 0 0 = icmpTimxceed then -2
  else if (icmpOf packet).getD 1 0 = icmpUnreachPort then -1
  else ((icmpOf packet).getD 1 0).toNat

/-! ### One packet -/

/-- A byte that has been received. -/
theorem byteAt_of_lt {recvbuf : List Byte} {i : Nat} (inside : i < recvbuf.length) :
    byteAt recvbuf i = some (recvbuf.getD i 0) := by
  rw [byteAt, List.getElem?_eq_getElem inside, List.getD_eq_getElem _ _ inside]

theorem shortAt_of_byteAt (endian : Endian) {recvbuf : List Byte} {i : Nat} {first second : Byte}
    (here : byteAt recvbuf i = some first) (behind : byteAt recvbuf (i + 1) = some second) :
    shortAt endian recvbuf i = some (endian.word first second) := by
  rw [shortAt, here, behind]
  rfl

theorem shortAt_of_lt (endian : Endian) {recvbuf : List Byte} {i : Nat}
    (inside : i + 1 < recvbuf.length) :
    shortAt endian recvbuf i =
      some (endian.word (recvbuf.getD i 0) (recvbuf.getD (i + 1) 0)) :=
  shortAt_of_byteAt endian (byteAt_of_lt (Nat.lt_of_succ_lt inside)) (byteAt_of_lt inside)

theorem byteAt_drop {recvbuf memory : List Byte} {offset : Nat}
    (behind : memory = recvbuf.drop offset) (i : Nat) (inside : i < memory.length) :
    byteAt recvbuf (offset + i) = some (memory.getD i 0) := by
  subst behind
  rw [byteAt, ← List.getElem?_drop]
  exact byteAt_of_lt inside

theorem shortAt_drop (endian : Endian) {recvbuf memory : List Byte} {offset : Nat}
    (behind : memory = recvbuf.drop offset) (i : Nat) (inside : i + 1 < memory.length) :
    shortAt endian recvbuf (offset + i) =
      some (endian.word (memory.getD i 0) (memory.getD (i + 1) 0)) :=
  shortAt_of_byteAt endian (byteAt_drop behind i (Nat.lt_of_succ_lt inside))
    (byteAt_drop behind (i + 1) inside)

section Packet

variable (endian : Endian) (verbose : Bool) (sport dport : Nat) (seq : Int) {packet : List Byte}

/-- Both branches find out whether the datagram quoted is the probe, and look at nothing that has
not been received. -/
theorem inspectQuote_spec (enough : 8 ≤ (icmpOf packet).length) :
    ∃ quote, inspectQuote endian sport dport seq packet (headerLength (packet.getD 0 0))
        (packet.length - headerLength (packet.getD 0 0)) = some quote ∧
      (quote = .probe ↔ Quotes (sport % 65536) (probePort dport seq) packet) := by
  have hip : quotedIp packet = packet.drop (headerLength (packet.getD 0 0) + 8) :=
    List.drop_drop
  have udp : quotedUdp packet = packet.drop (headerLength (packet.getD 0 0) + 8 +
      headerLength ((quotedIp packet).getD 0 0)) := by
    rw [quotedUdp, skipHeader, hip, List.drop_drop]
  have icmplen : (icmpOf packet).length = packet.length - headerLength (packet.getD 0 0) :=
    List.length_drop
  have hipLength : (quotedIp packet).length =
      packet.length - (headerLength (packet.getD 0 0) + 8) := by rw [hip, List.length_drop]
  have udpLength : (quotedUdp packet).length = packet.length -
      (headerLength (packet.getD 0 0) + 8 + headerLength ((quotedIp packet).getD 0 0)) := by
    rw [udp, List.length_drop]
  have small : probePort dport seq % 65536 = probePort dport seq := by
    unfold probePort
    omega
  rw [inspectQuote]
  by_cases header : sizeofIp ≤ (quotedIp packet).length
  swap
  · have short : LessUnsigned (packet.length - headerLength (packet.getD 0 0)) (8 + sizeofIp) := by
      unfold LessUnsigned
      omega
    rw [if_pos short]
    exact ⟨.short, rfl, iff_of_false nofun fun quotes => header quotes.header⟩
  have long : ¬ LessUnsigned (packet.length - headerLength (packet.getD 0 0)) (8 + sizeofIp) := by
    unfold LessUnsigned
    omega
  unfold sizeofIp at header
  have first := byteAt_drop hip 0 (by omega)
  have protocol := byteAt_drop hip 9 (by omega)
  rw [Nat.add_zero] at first
  rw [if_neg long]
  dsimp only
  rw [first, Option.bind_eq_bind, Option.bind_some]
  by_cases ports : 4 ≤ (quotedUdp packet).length
  swap
  · rw [if_pos (by omega)]
    exact ⟨.short, rfl, iff_of_false nofun fun quotes => ports quotes.ports⟩
  have source := shortAt_drop endian udp 0 (by omega)
  have destination := shortAt_drop endian udp 2 (by omega)
  rw [Nat.add_zero] at source
  rw [if_neg (by omega), protocol, source, destination]
  simp only [Option.bind_eq_bind, Option.bind_some, Endian.word_eq_htons_iff, small]
  split_ifs with isUdp isSource isDestination
  · exact ⟨.probe, rfl, iff_of_true rfl ⟨header, ports, isUdp, isSource, isDestination⟩⟩
  · exact ⟨.other, rfl, iff_of_false nofun fun quotes => isDestination quotes.destination⟩
  · exact ⟨.other, rfl, iff_of_false nofun fun quotes => isSource quotes.source⟩
  · exact ⟨.other, rfl, iff_of_false nofun fun quotes => isUdp quotes.protocol⟩

theorem report_spec (enough : 8 ≤ (icmpOf packet).length) :
    ∃ printed, report verbose packet (headerLength (packet.getD 0 0)) =
      some (.again printed) := by
  have type := byteAt_drop (rfl : icmpOf packet = _) 0 (by omega)
  have code := byteAt_drop (rfl : icmpOf packet = _) 1 (by omega)
  rw [Nat.add_zero] at type
  rw [report, type, code]
  cases verbose
  · exact ⟨none, rfl⟩
  · exact ⟨_, rfl⟩

/-- Of a packet that has its IP header `recv_v4` looks at no byte that it has not received. It
takes the packet for an answer exactly when it is one. -/
theorem examine_spec (delivered : 20 ≤ packet.length) :
    ∃ verdict, examine endian verbose sport dport seq packet = some verdict ∧
      (Answers sport dport seq packet → verdict = .returns (answerCode packet)) ∧
      (¬ Answers sport dport seq packet → ∃ printed, verdict = .again printed) := by
  have first : byteAt packet 0 = some (packet.getD 0 0) := byteAt_of_lt (by omega)
  have icmplen : (icmpOf packet).length = packet.length - headerLength (packet.getD 0 0) :=
    List.length_drop
  have hipLength : (quotedIp packet).length = (icmpOf packet).length - 8 := List.length_drop
  rw [examine, first, Option.bind_eq_bind, Option.bind_some]
  dsimp only
  by_cases enough : 8 ≤ (icmpOf packet).length
  swap
  · rw [if_pos (by omega)]
    refine ⟨_, rfl, fun answers => ?_, fun _ => ⟨none, rfl⟩⟩
    have header := answers.2.header
    unfold sizeofIp at header
    omega
  have type := byteAt_drop (rfl : icmpOf packet = _) 0 (by omega)
  have code := byteAt_drop (rfl : icmpOf packet = _) 1 (by omega)
  obtain ⟨quote, quoted, isProbe⟩ := inspectQuote_spec endian sport dport seq enough
  obtain ⟨printed, reports⟩ := report_spec verbose enough
  rw [Nat.add_zero] at type
  rw [if_neg (by omega), type, code, quoted, reports]
  simp only [Option.bind_eq_bind, Option.bind_some, Option.map_some]
  have skipped : ∀ printed, ¬ Answers sport dport seq packet →
      ∃ verdict, some (Verdict.again printed) = some verdict ∧
        (Answers sport dport seq packet → verdict = .returns (answerCode packet)) ∧
        (¬ Answers sport dport seq packet → ∃ printed, verdict = .again printed) :=
    fun printed no => ⟨_, rfl, fun answers => absurd answers no, fun _ => ⟨printed, rfl⟩⟩
  have returned : ∀ ret, Answers sport dport seq packet → ret = answerCode packet →
      ∃ verdict, some (Verdict.returns ret) = some verdict ∧
        (Answers sport dport seq packet → verdict = .returns (answerCode packet)) ∧
        (¬ Answers sport dport seq packet → ∃ printed, verdict = .again printed) :=
    fun ret answers same => ⟨_, rfl, fun _ => congrArg _ same, fun no => absurd answers no⟩
  have notProbe : quote ≠ .probe → ¬ Answers sport dport seq packet :=
    fun other answers => other (isProbe.mpr answers.2)
  by_cases exceeded : (icmpOf packet).getD 0 0 = icmpTimxceed
  · have notUnreach : (icmpOf packet).getD 0 0 ≠ icmpUnreach := by
      rw [exceeded]
      decide
    rw [if_pos exceeded]
    by_cases transit : (icmpOf packet).getD 1 0 = icmpTimxceedIntrans
    · rw [if_pos (decide_eq_true transit)]
      cases quote with
      | short => exact skipped none (notProbe nofun)
      | other => exact skipped printed (notProbe nofun)
      | probe => exact returned _ ⟨.inl ⟨exceeded, transit⟩, isProbe.mp rfl⟩ (if_pos exceeded).symm
    · rw [decide_eq_false transit, if_neg Bool.false_ne_true, if_neg notUnreach]
      refine skipped printed fun answers => ?_
      rcases answers.1 with isTransit | unreach
      · exact transit isTransit.2
      · exact notUnreach unreach
  · rw [if_neg exceeded, if_neg Bool.false_ne_true]
    by_cases unreach : (icmpOf packet).getD 0 0 = icmpUnreach
    · rw [if_pos unreach]
      cases quote with
      | short => exact skipped none (notProbe nofun)
      | other => exact skipped printed (notProbe nofun)
      | probe => exact returned _ ⟨.inr unreach, isProbe.mp rfl⟩ (if_neg exceeded).symm
    · rw [if_neg unreach]
      refine skipped printed fun answers => ?_
      rcases answers.1 with isTransit | isUnreach
      · exact exceeded isTransit.1
      · exact unreach isUnreach

end Packet

/-! ### `recv_v4` -/

/-- What `recvfrom` on the raw socket delivers begins with a whole IP header. -/
def Pass.Delivered : Pass → Prop
  | .recvfrom (.packet packet) => 20 ≤ packet.length
  | _ => True

section Receive

variable (endian : Endian) (verbose : Bool) (sport dport : Nat) (seq : Int)

/-- A pass ends the wait: the alarm has gone off, or a packet is an answer. -/
inductive Ends : Pass → Int → Prop
  | gotalarm : Ends .gotalarm (-3)
  | answer {packet : List Byte} (answers : Answers sport dport seq packet) :
      Ends (.recvfrom (.packet packet)) (answerCode packet)

variable {sport dport seq} {pass : Pass}

theorem turn_ends {ret : Int} (delivered : pass.Delivered) (ends : Ends sport dport seq pass ret) :
    turn endian verbose sport dport seq pass = some (.returns ret) := by
  cases ends with
  | gotalarm => rfl
  | answer answers =>
    obtain ⟨verdict, examined, answered, -⟩ :=
      examine_spec endian verbose sport dport seq delivered
    rw [turn, examined, answered answers]

theorem turn_again (delivered : pass.Delivered)
    (goesOn : ∀ ret, ¬ Ends sport dport seq pass ret) :
    ∃ printed, turn endian verbose sport dport seq pass = some (.again printed) := by
  cases pass with
  | gotalarm => exact absurd .gotalarm (goesOn (-3))
  | recvfrom received =>
    cases received with
    | error errno =>
      rw [turn]
      split_ifs
      · exact ⟨_, rfl⟩
      · exact ⟨_, rfl⟩
    | packet packet =>
      obtain ⟨verdict, examined, -, skips⟩ :=
        examine_spec endian verbose sport dport seq delivered
      obtain ⟨printed, again⟩ := skips fun answers => goesOn _ (.answer answers)
      exact ⟨printed, by rw [turn, examined, again]⟩

/-- What ends the wait is what `recv_v4` says ended it. -/
theorem ends_of_turn {ret : Int} (delivered : pass.Delivered)
    (returns : turn endian verbose sport dport seq pass = some (.returns ret)) :
    Ends sport dport seq pass ret := by
  by_contra other
  by_cases ends : ∃ ret', Ends sport dport seq pass ret'
  · obtain ⟨ret', ends⟩ := ends
    rw [turn_ends endian verbose delivered ends] at returns
    cases returns
    exact other ends
  · obtain ⟨printed, again⟩ := turn_again endian verbose delivered
      fun ret' ends' => ends ⟨ret', ends'⟩
    rw [again] at returns
    cases returns

/-- `recv_v4` skips every pass that does not end the wait. -/
theorem recvV4_skips {skipped : List Pass} (rest : List Pass)
    (delivered : ∀ pass ∈ skipped, pass.Delivered)
    (goesOn : ∀ pass ∈ skipped, ∀ ret, ¬ Ends sport dport seq pass ret) :
    recvV4 endian verbose sport dport seq (skipped ++ rest) =
      recvV4 endian verbose sport dport seq rest := by
  induction skipped with
  | nil => rfl
  | cons pass skipped inductionHypothesis =>
    obtain ⟨printed, again⟩ := turn_again endian verbose
      (delivered pass List.mem_cons_self) (goesOn pass List.mem_cons_self)
    rw [List.cons_append, recvV4, again]
    exact inductionHypothesis (fun other member => delivered other (List.mem_cons_of_mem _ member))
      fun other member => goesOn other (List.mem_cons_of_mem _ member)

/-- `recv_v4` waits until the first pass that ends the wait, and never looks at a byte that it
has not received. -/
theorem recvV4_spec {passes : List Pass} (delivered : ∀ pass ∈ passes, pass.Delivered) :
    ((∀ pass ∈ passes, ∀ ret, ¬ Ends sport dport seq pass ret) ∧
        recvV4 endian verbose sport dport seq passes = some none) ∨
      ∃ skipped last rest ret, passes = skipped ++ last :: rest ∧
        (∀ pass ∈ skipped, ∀ ret, ¬ Ends sport dport seq pass ret) ∧
        Ends sport dport seq last ret ∧
        recvV4 endian verbose sport dport seq passes = some (some (ret, rest)) := by
  induction passes with
  | nil => exact .inl ⟨fun pass member => absurd member List.not_mem_nil, rfl⟩
  | cons pass passes inductionHypothesis =>
    have here := delivered pass List.mem_cons_self
    have later := fun other member => delivered other (List.mem_cons_of_mem _ member)
    by_cases ends : ∃ ret, Ends sport dport seq pass ret
    · obtain ⟨ret, ends⟩ := ends
      refine .inr ⟨[], pass, passes, ret, rfl, fun other member => ?_, ends, ?_⟩
      · exact absurd member List.not_mem_nil
      · rw [recvV4, turn_ends endian verbose here ends]
        rfl
    · have goesOn : ∀ ret, ¬ Ends sport dport seq pass ret := not_exists.mp ends
      have skips : recvV4 endian verbose sport dport seq ([pass] ++ passes) = _ :=
        recvV4_skips endian verbose passes (List.forall_mem_singleton.mpr here)
          (List.forall_mem_singleton.mpr goesOn)
      rcases inductionHypothesis later with ⟨none, waits⟩ |
        ⟨skipped, last, rest, ret, split, before, ends, returns⟩
      · exact .inl ⟨List.forall_mem_cons.mpr ⟨goesOn, none⟩, skips.trans waits⟩
      · refine .inr ⟨pass :: skipped, last, rest, ret, by rw [split]; rfl,
          List.forall_mem_cons.mpr ⟨goesOn, before⟩, ends, skips.trans returns⟩

end Receive

/-! ### `traceloop` -/

/-- What `traceloop` starts from: the order of the machine, the options, and the process id. -/
structure Setup where
  endian : Endian
  verbose : Bool
  pid : Nat
  dport : Nat
  maxTtl : Int
  nprobes : Int

/-- `sport=(getpid()&0xffff) | 0x8000`. -/
def Setup.sport (setup : Setup) : Nat := (setup.pid &&& 0xffff) ||| 0x8000

/-- `pr->salen`, as `proto_v4` is initialized. -/
def salen : Nat := 0

/-- What `traceloop` does: it sets the TTL, sends a probe, receives something, prints something
inside `recv_v4`, and prints a star or an answer for a probe, with the pass that ended the wait
for it. -/
inductive Event
  | setsockopt (ttl : Int)
  | sendto (recSeq recTtl : Int) (port salen : Nat)
  | recvfrom (received : Received)
  | verbose (printed : Printed)
  | timeout (seq : Int)
  | reply (seq : Int) (pass : Pass) (code : Int)
  deriving DecidableEq, Repr

/-- Where `traceloop` is: at the test of one of its two loops, inside `recv_v4`, or at its end. -/
inductive Pc
  | ttl
  | probe
  | recv
  | ended
  deriving DecidableEq, Repr

/-- The variables of `traceloop`. -/
structure Loop where
  pc : Pc
  ttl : Int
  probe : Int
  seq : Int
  done : Int
  deriving DecidableEq, Repr

/-- What a pass of the loop of `recv_v4` receives. -/
def Pass.events : Pass → List Event
  | .gotalarm => []
  | .recvfrom received => [.recvfrom received]

/-- What is printed for a probe, by what `recv_v4` returned for it. -/
def answered (seq : Int) (pass : Pass) (code : Int) : Event :=
  if code = -3 then .timeout seq else .reply seq pass code

/-- One step. -/
inductive Step (setup : Setup) : Loop → List Event → Loop → Prop
  | ttl {loop : Loop} (here : loop.pc = .ttl)
      (more : loop.ttl ≤ setup.maxTtl ∧ loop.done = 0) :
      Step setup loop [.setsockopt loop.ttl] { loop with pc := .probe, probe := 0 }
  | finish {loop : Loop} (here : loop.pc = .ttl)
      (noMore : ¬ (loop.ttl ≤ setup.maxTtl ∧ loop.done = 0)) :
      Step setup loop [] { loop with pc := .ended }
  | probe {loop : Loop} (here : loop.pc = .probe) (more : loop.probe < setup.nprobes) :
      Step setup loop
        [.sendto (loop.seq + 1) loop.ttl (probePort setup.dport (loop.seq + 1)) salen]
        { loop with pc := .recv, seq := loop.seq + 1 }
  | next {loop : Loop} (here : loop.pc = .probe) (noMore : ¬ loop.probe < setup.nprobes) :
      Step setup loop [] { loop with pc := .ttl, ttl := loop.ttl + 1 }
  | again {loop : Loop} {pass : Pass} {printed : Option Printed} (here : loop.pc = .recv)
      (delivered : pass.Delivered)
      (goesOn : turn setup.endian setup.verbose setup.sport setup.dport loop.seq pass =
        some (.again printed)) :
      Step setup loop (pass.events ++ printed.toList.map .verbose) loop
  | returns {loop : Loop} {pass : Pass} {code : Int} (here : loop.pc = .recv)
      (delivered : pass.Delivered)
      (ends : turn setup.endian setup.verbose setup.sport setup.dport loop.seq pass =
        some (.returns code)) :
      Step setup loop (pass.events ++ [answered loop.seq pass code])
        { loop with
          pc := .probe
          probe := loop.probe + 1
          done := if code = -1 then loop.done + 1 else loop.done }

/-- `traceloop`, one probe and one packet at a time. -/
def traceloop (setup : Setup) : System Loop Event where
  start history loop := history = [] ∧ loop = ⟨.ttl, 1, 0, 0, 0⟩
  step := Step setup

/-- An event is in order: a probe carries the port of its number, and an answer is printed only
for a packet that answers the probe. -/
def Event.Attributed (setup : Setup) : Event → Prop
  | .sendto recSeq _ port _ => port = probePort setup.dport recSeq
  | .reply seq pass _ => ∃ packet, pass = .recvfrom (.packet packet) ∧
      Answers setup.sport setup.dport seq packet
  | _ => True

theorem answered_attributed {setup : Setup} {seq : Int} {pass : Pass} {code : Int}
    (ends : Ends setup.sport setup.dport seq pass code) :
    (answered seq pass code).Attributed setup := by
  unfold answered
  split_ifs with timeout
  · exact True.intro
  · cases ends with
    | gotalarm => exact absurd rfl timeout
    | @answer packet answers => exact ⟨packet, rfl, answers⟩

theorem step_attributed {setup : Setup} {loop next : Loop} {events : List Event}
    (steps : Step setup loop events next) : ∀ event ∈ events, event.Attributed setup := by
  have received : ∀ (pass : Pass), ∀ event ∈ pass.events, event.Attributed setup := by
    intro pass event member
    cases pass with
    | gotalarm => exact absurd member List.not_mem_nil
    | recvfrom received =>
      rw [List.mem_singleton.mp member]
      exact True.intro
  cases steps with
  | ttl here more => exact List.forall_mem_singleton.mpr True.intro
  | finish here noMore => exact fun event member => absurd member List.not_mem_nil
  | probe here more => exact List.forall_mem_singleton.mpr rfl
  | next here noMore => exact fun event member => absurd member List.not_mem_nil
  | @again pass printed here delivered goesOn =>
    refine List.forall_mem_append.mpr ⟨received pass, fun event member => ?_⟩
    obtain ⟨text, -, rfl⟩ := List.mem_map.mp member
    exact True.intro
  | @returns pass code here delivered ends =>
    exact List.forall_mem_append.mpr ⟨received pass,
      List.forall_mem_singleton.mpr (answered_attributed (ends_of_turn _ _ delivered ends))⟩

theorem run_attributed {setup : Setup} {history : List Event} {loop : Loop}
    (run : Run (traceloop setup) history loop) : ∀ event ∈ history, event.Attributed setup := by
  refine run.invariant (fun history _ => ∀ event ∈ history, event.Attributed setup) ?_ ?_
  · rintro history loop ⟨rfl, -⟩ event member
    exact absurd member List.not_mem_nil
  · intro history loop events next attributed steps
    exact List.forall_mem_append.mpr ⟨attributed, step_attributed steps⟩

/-- A packet does not answer two probes unless 65536 have been sent in between. -/
theorem probes_apart {sport dport : Nat} {s t : Int} {packet : List Byte}
    (first : Answers sport dport s packet) (second : Answers sport dport t packet) :
    s = t ∨ 65536 ≤ (s - t).natAbs := by
  have same : probePort dport s = probePort dport t :=
    first.2.destination.symm.trans second.2.destination
  unfold probePort at same
  omega

/-- Whatever packets a raw socket delivers, `recv_v4` looks only at bytes it has received, and
returns for the first packet that answers its probe, as long as the alarm has not gone off, what
that packet says. Therefore `traceloop` never prints an answer to one probe for another, unless
65536 probes lie between them. -/
theorem answers_attributed :
    (∀ (endian : Endian) (verbose : Bool) (sport dport : Nat) (seq : Int) (passes : List Pass),
      (∀ pass ∈ passes, pass.Delivered) →
      ((∀ pass ∈ passes, ∀ ret, ¬ Ends sport dport seq pass ret) ∧
          recvV4 endian verbose sport dport seq passes = some none) ∨
        ∃ skipped last rest ret, passes = skipped ++ last :: rest ∧
          (∀ pass ∈ skipped, ∀ ret, ¬ Ends sport dport seq pass ret) ∧
          Ends sport dport seq last ret ∧
          recvV4 endian verbose sport dport seq passes = some (some (ret, rest))) ∧
    ∀ (setup : Setup) (history : List Event) (loop : Loop),
      Run (traceloop setup) history loop →
      (∀ recSeq recTtl port salen, .sendto recSeq recTtl port salen ∈ history →
        port = probePort setup.dport recSeq) ∧
      ∀ t pass code, .reply t pass code ∈ history →
        ∃ packet, pass = .recvfrom (.packet packet) ∧
          ∀ s, 0 < (s - t).natAbs → (s - t).natAbs < 65536 →
            ¬ Answers setup.sport setup.dport s packet := by
  refine ⟨fun endian verbose sport dport seq passes delivered =>
    recvV4_spec endian verbose delivered, fun setup history loop run => ⟨?_, ?_⟩⟩
  · intro recSeq recTtl port salen sent
    exact run_attributed run _ sent
  · intro t pass code replied
    obtain ⟨packet, received, answers⟩ := run_attributed run _ replied
    refine ⟨packet, received, fun s apart near other => ?_⟩
    have far := probes_apart other answers
    omega

/-- A port unreachable, about the datagram from port 32769 to this port. -/
def portUnreachable (port : Nat) : List Byte :=
  [0x45] ++ List.replicate 19 0 ++ [3, 3] ++ List.replicate 6 0 ++
    [0x45] ++ List.replicate 8 0 ++ [17] ++ List.replicate 10 0 ++
    Endian.big.bytes 32769 ++ Endian.big.bytes port

/-- The defaults of the program, run by process 1. -/
def defaults : Setup := ⟨.little, false, 1, 32768 + 666, 30, 3⟩

/-- Waiting for the answer to its first probe, `traceloop` skips one to the second. -/
theorem run_defaults : Run (traceloop defaults)
    ([] ++ [.setsockopt 1] ++ [.sendto 1 1 33435 0] ++
      [.recvfrom (.packet (portUnreachable 33436))] ++
      [.recvfrom (.packet (portUnreachable 33435)),
        .reply 1 (.recvfrom (.packet (portUnreachable 33435))) (-1)])
    ⟨.probe, 1, 1, 1, 1⟩ := by
  have start : Run (traceloop defaults) [] ⟨.ttl, 1, 0, 0, 0⟩ := .start ⟨rfl, rfl⟩
  have ttl : Step defaults ⟨.ttl, 1, 0, 0, 0⟩ [.setsockopt 1] ⟨.probe, 1, 0, 0, 0⟩ :=
    .ttl rfl (by decide)
  have probe : Step defaults ⟨.probe, 1, 0, 0, 0⟩ [.sendto 1 1 33435 0] ⟨.recv, 1, 0, 1, 0⟩ :=
    .probe rfl (by decide)
  have again : Step defaults ⟨.recv, 1, 0, 1, 0⟩
      (Pass.events (.recvfrom (.packet (portUnreachable 33436))) ++
        (none : Option Printed).toList.map .verbose) ⟨.recv, 1, 0, 1, 0⟩ :=
    .again rfl (show 20 ≤ (portUnreachable 33436).length by decide) (by decide)
  have returns : Step defaults ⟨.recv, 1, 0, 1, 0⟩
      (Pass.events (.recvfrom (.packet (portUnreachable 33435))) ++
        [answered 1 (.recvfrom (.packet (portUnreachable 33435))) (-1)])
      ⟨.probe, 1, 1, 1, if (-1 : Int) = -1 then 0 + 1 else 0⟩ :=
    .returns rfl (show 20 ≤ (portUnreachable 33435).length by decide) (by decide)
  exact (((start.step ttl).step probe).step again).step returns

theorem answers_attributed_defaults :
    recvV4 .little false 32769 33434 1 [.recvfrom (.packet (portUnreachable 33436))] ≠ none ∧
      ¬ Answers defaults.sport defaults.dport 2 (portUnreachable 33435) := by
  refine ⟨?_, ?_⟩
  · have delivered : ∀ pass ∈ [Pass.recvfrom (.packet (portUnreachable 33436))],
        pass.Delivered :=
      List.forall_mem_singleton.mpr (show 20 ≤ (portUnreachable 33436).length by decide)
    rcases answers_attributed.1 .little false 32769 33434 1 _ delivered with ⟨-, waits⟩ |
      ⟨skipped, last, rest, ret, -, -, -, returns⟩
    · rw [waits]
      exact Option.some_ne_none _
    · rw [returns]
      exact Option.some_ne_none _
  · obtain ⟨packet, same, others⟩ :=
      (answers_attributed.2 _ _ _ run_defaults).2 1 _ (-1) (List.mem_append_right _
        (List.mem_cons_of_mem _ List.mem_cons_self))
    cases same
    exact others 2 (by decide) (by decide)

end SocketProgram.Traceroute
