/-
This file models `udp_read` and `udp_check` of `udpcksum/udpread.c`, with the length that
`next_pcap` hands them.

Of a captured frame the header of its link is skipped, the header of the IP packet behind
it is checked, and what is returned is the packet as a `struct udpiphdr`. Both lengths are
`int`s, and they are compared with `size_t`s. A frame that ends before the header of its
link does is left with a negative length, which no such comparison finds too small; the
bytes that are then looked at have not been captured. That is the only way to get there.

The structure that is returned has the UDP header 20 bytes behind its beginning. That is
where the packet has its own only if its IP header has no options.
-/

import Mathlib.Tactic.IntervalCases
import SocketProgram.Checksum
import SocketProgram.Traceroute
import SocketProgram.UdpWrite

namespace SocketProgram.UdpCksum

open Memory Words
open Traceroute (byteAt shortAt byteAt_of_lt shortAt_of_lt headerLength LessUnsigned sizeofIp)

/-! ### The source -/

/-- `IPVERSION`. -/
def ipversion : Nat := 4

/-- `ETHERTYPE_IP`. -/
def ethertypeIp : Nat := 0x0800

/-- What `pcap_datalink` says of the capture device: a type that `udp_read` supports, or another
one. -/
inductive Datalink
  | null
  | en10mb
  | slip
  | ppp
  | other (datalink : Int)
  deriving DecidableEq, Repr

/-- Why the program ends: what `err_quit` is called with. -/
inductive Quit
  /-- `"Ethernet type %x not IP"` -/
  | etherType (etherType : Nat)
  /-- `"unsupported datalink (%d)"` -/
  | datalink (datalink : Int)
  /-- `"len=%d"` -/
  | len (len : Int)
  /-- `"ip_v=%d"` -/
  | ipV (ipV : Nat)
  /-- `"ip_hl = %d"` -/
  | ipHl (ipHl : Nat)
  /-- `"len=%d, hlen=%d"` -/
  | hlen (len : Int) (hlen : Nat)
  /-- `"ip checksum error"` -/
  | checksum
  /-- `"not a UDP packet"` -/
  | protocol
  deriving DecidableEq, Repr

/-- How a call ends: it ends the program, or returns a pointer, from which on memory is `ui`. -/
inductive Outcome
  | quits (quit : Quit)
  | returns (ui : List Byte)
  deriving DecidableEq, Repr

/-- A signed integer of 32 bits: what the conversion to `int` and its arithmetic leave of a
value. -/
def int (value : Int) : Int := value.bmod 4294967296

/-- The first bytes of some memory. `none` when they are not all there. -/
def bytesAt (memory : List Byte) (count : Nat) : Option (List Byte) :=
  if count ≤ memory.length then some (memory.take count) else none

/-- `udp_check(ptr,len)`, where `ptr` is what has been captured from the pointer on. `none` when it
looks at a byte that has not been captured. -/
def udpCheck (endian : Endian) (ptr : List Byte) (len : Int) : Option Outcome :=
  if LessUnsigned len (sizeofIp + sizeofUdphdr) then some (.quits (.len len))
  else do
    let first ← byteAt ptr 0
    if (first >>> 4).toNat ≠ ipversion then some (.quits (.ipV (first >>> 4).toNat))
    else
      let hlen := headerLength first
      if hlen < sizeofIp then some (.quits (.ipHl (first &&& 0x0f).toNat))
      else if LessUnsigned len (hlen + sizeofUdphdr) then some (.quits (.hlen len hlen))
      else do
        let header ← bytesAt ptr hlen
        let ipSum := inCksum endian header hlen
        let ip := overwrite ptr 10 (endian.bytes ipSum)
        if ipSum ≠ 0 then some (.quits .checksum)
        else do
          let ipP ← byteAt ip 9
          if ipP = ipprotoUdp then some (.returns ip) else some (.quits .protocol)

/-- `udp_read()`, for the frame that `next_pcap` returns; `len` is its `caplen`. `none` when a byte
outside the frame is looked at. -/
def udpRead (endian : Endian) (datalink : Datalink) (frame : List Byte) : Option Outcome :=
  let ptr := frame
  let len := int frame.length
  match datalink with
  | .null => udpCheck endian (ptr.drop 4) (int (len - 4))
  | .en10mb => do
    let etherType ← shortAt endian ptr 12
    if endian.htons etherType ≠ ethertypeIp then
      some (.quits (.etherType (endian.htons etherType)))
    else udpCheck endian (ptr.drop 14) (int (len - 14))
  | .slip => udpCheck endian (ptr.drop 24) (int (len - 24))
  | .ppp => udpCheck endian (ptr.drop 24) (int (len - 24))
  | .other datalink => some (.quits (.datalink datalink))

/-- The header of a link that `udp_read` skips. -/
def Datalink.header : Datalink → Nat
  | .null => 4
  | .en10mb => 14
  | .slip => 24
  | .ppp => 24
  | .other _ => 0

/-- The packet in a frame. -/
def Datalink.packet (datalink : Datalink) (frame : List Byte) : List Byte :=
  frame.drop datalink.header

/-- `ip_hl*4` of a packet. -/
def ipHlen (packet : List Byte) : Nat := headerLength (packet.getD 0 0)

/-! ### What is accepted -/

/-- A packet that `udp_check` accepts, and what it returns: only the checksum of the IP header has
become zero. -/
structure Accepted (endian : Endian) (packet ui : List Byte) : Prop where
  version : (packet.getD 0 0 >>> 4).toNat = ipversion
  header : sizeofIp ≤ ipHlen packet
  udp : ipHlen packet + sizeofUdphdr ≤ packet.length
  checksum : inCksum endian (packet.take (ipHlen packet)) (ipHlen packet) = 0
  protocol : packet.getD 9 0 = ipprotoUdp
  stored : ui = overwrite packet 10 (endian.bytes 0)

theorem headerLength_le (first : Byte) : headerLength first ≤ 60 := by
  have small : (first &&& 0x0f).toNat ≤ 15 := by
    rw [UInt8.toNat_and]
    exact Nat.and_le_right
  rw [headerLength, Nat.shiftLeft_eq]
  omega

/-- A length that says no more than what has been captured. A header and the UDP header behind it
have at most 68 bytes. -/
def Honest (packet : List Byte) (len : Int) : Prop :=
  ∀ size ≤ 68, ¬ LessUnsigned len size → size ≤ packet.length

theorem quits_ne_returns (quit : Quit) (ui : List Byte) : Outcome.quits quit ≠ .returns ui := by
  intro same
  cases same

/-- With an honest length `udp_check` looks only at what has been captured, and accepts exactly
what it should, as far as the length goes. -/
theorem udpCheck_spec (endian : Endian) {packet : List Byte} {len : Int}
    (honest : Honest packet len) :
    ∃ outcome, udpCheck endian packet len = some outcome ∧ ∀ ui, outcome = .returns ui ↔
      Accepted endian packet ui ∧ ¬ LessUnsigned len (ipHlen packet + sizeofUdphdr) := by
  have small : ipHlen packet ≤ 60 := headerLength_le _
  rw [udpCheck]
  by_cases short : LessUnsigned len (sizeofIp + sizeofUdphdr)
  · rw [if_pos short]
    refine ⟨_, rfl, fun ui => iff_of_false (quits_ne_returns _ ui) ?_⟩
    rintro ⟨accepted, long⟩
    have header := accepted.header
    unfold LessUnsigned at short long
    omega
  have captured : sizeofIp + sizeofUdphdr ≤ packet.length := honest _ (by decide) short
  unfold sizeofIp at captured
  have hlen : headerLength (packet.getD 0 0) = ipHlen packet := rfl
  rw [if_neg short, byteAt_of_lt (show 0 < packet.length by omega)]
  simp only [Option.bind_eq_bind, Option.bind_some, hlen]
  by_cases version : (packet.getD 0 0 >>> 4).toNat = ipversion
  swap
  · rw [if_pos version]
    exact ⟨_, rfl, fun ui =>
      iff_of_false (quits_ne_returns _ ui) fun both => version both.1.version⟩
  rw [if_neg (not_not.mpr version)]
  by_cases header : sizeofIp ≤ ipHlen packet
  swap
  · rw [if_pos (Nat.not_le.mp header)]
    exact ⟨_, rfl, fun ui =>
      iff_of_false (quits_ne_returns _ ui) fun both => header both.1.header⟩
  rw [if_neg (Nat.not_lt.mpr header)]
  by_cases long : LessUnsigned len (ipHlen packet + sizeofUdphdr)
  · rw [if_pos long]
    exact ⟨_, rfl, fun ui =>
      iff_of_false (quits_ne_returns _ ui) fun both => both.2 long⟩
  have udp : ipHlen packet + sizeofUdphdr ≤ packet.length :=
    honest _ (Nat.add_le_add_right small 8) long
  have whole : bytesAt packet (ipHlen packet) = some (packet.take (ipHlen packet)) :=
    if_pos ((Nat.le_add_right _ _).trans udp)
  rw [if_neg long, whole, Option.bind_some]
  by_cases checksum : inCksum endian (packet.take (ipHlen packet)) (ipHlen packet) = 0
  swap
  · rw [if_pos checksum]
    exact ⟨_, rfl, fun ui =>
      iff_of_false (quits_ne_returns _ ui) fun both => checksum both.1.checksum⟩
  have ipP : byteAt (overwrite packet 10 (endian.bytes 0)) 9 = some (packet.getD 9 0) := by
    rw [← byteAt_of_lt (show 9 < packet.length by omega), byteAt, byteAt]
    exact getElem?_overwrite_before packet _ (by decide) (by omega)
  rw [if_neg (not_not.mpr checksum), checksum, ipP, Option.bind_some]
  by_cases protocol : packet.getD 9 0 = ipprotoUdp
  · rw [if_pos protocol]
    refine ⟨_, rfl, fun ui => ⟨?_, ?_⟩⟩
    · intro returned
      cases returned
      exact ⟨⟨version, header, udp, checksum, protocol, rfl⟩, long⟩
    · rintro ⟨accepted, -⟩
      rw [accepted.stored]
  · rw [if_neg protocol]
    exact ⟨_, rfl, fun ui =>
      iff_of_false (quits_ne_returns _ ui) fun both => protocol both.1.protocol⟩

/-! ### Frames -/

/-- What the conversion to `int` makes of a size is no more than the size, and negative only for
a large one. -/
theorem int_natCast (size : Nat) : int size ≤ size ∧ (int size < 0 → 2147483648 ≤ size) := by
  unfold int Int.bmod
  dsimp only
  split_ifs <;> omega

/-- The length that is left behind the header of a link is honest, if the frame has that header. -/
theorem honest_drop (frame : List Byte) {header : Nat} (whole : header ≤ frame.length) :
    Honest (frame.drop header) (int (int frame.length - header)) := by
  intro size small long
  have left : int (int frame.length - header) = int ((frame.length - header : Nat) : Int) := by
    rw [Int.ofNat_sub whole]
    exact Int.bmod_sub_bmod
  obtain ⟨bounded, negative⟩ := int_natCast (frame.length - header)
  rw [left] at long
  rw [List.length_drop]
  unfold LessUnsigned at long
  omega

/-- Where the frame ends before the header of its link does, what is looked at first has not been
captured. -/
theorem udpCheck_short (endian : Endian) {frame : List Byte} {header : Nat}
    (few : header ≤ 24) (short : frame.length < header) :
    udpCheck endian (frame.drop header) (int (int frame.length - header)) = none := by
  have exact' : int (int frame.length - header) = frame.length - header := by
    have whole : int frame.length = frame.length := Int.bmod_eq_of_le (by omega) (by omega)
    rw [whole]
    exact Int.bmod_eq_of_le (by omega) (by omega)
  have passes : ¬ LessUnsigned (int (int frame.length - header)) (sizeofIp + sizeofUdphdr) := by
    rw [exact']
    unfold LessUnsigned
    omega
  rw [udpCheck, if_neg passes, List.drop_eq_nil_of_le short.le]
  rfl

/-- How `udp_read` comes to `udp_check`: an Ethernet frame has first to say that it has an IP packet
in it. -/
theorem udpRead_eq (endian : Endian) (datalink : Datalink) (frame : List Byte)
    (whole : datalink.header ≤ frame.length) :
    (∃ quit, udpRead endian datalink frame = some (.quits quit)) ∨
      udpRead endian datalink frame = udpCheck endian (datalink.packet frame)
        (int (int frame.length - datalink.header)) := by
  cases datalink with
  | null => exact .inr rfl
  | slip => exact .inr rfl
  | ppp => exact .inr rfl
  | other datalink => exact .inl ⟨_, rfl⟩
  | en10mb =>
    have enough : 14 ≤ frame.length := whole
    rw [udpRead, shortAt_of_lt endian (show 12 + 1 < frame.length by omega), Option.bind_eq_bind,
      Option.bind_some]
    split_ifs
    · exact .inl ⟨_, rfl⟩
    · exact .inr rfl

/-- What `udp_read` returns of a frame that has the header of its link is a packet it accepts. -/
theorem udpRead_spec (endian : Endian) (datalink : Datalink) (frame : List Byte)
    (whole : datalink.header ≤ frame.length) :
    ∃ outcome, udpRead endian datalink frame = some outcome ∧
      ∀ ui, outcome = .returns ui → Accepted endian (datalink.packet frame) ui := by
  rcases udpRead_eq endian datalink frame whole with ⟨quit, quits⟩ | checks
  · exact ⟨_, quits, fun ui same => absurd same (quits_ne_returns quit ui)⟩
  · obtain ⟨outcome, checked, accepts⟩ := udpCheck_spec endian (honest_drop frame whole)
    exact ⟨outcome, checks.trans checked, fun ui returned => ((accepts ui).mp returned).1⟩

/-- Of a frame that ends before the header of its link does, bytes are looked at that have not been
captured. -/
theorem udpRead_short (endian : Endian) {datalink : Datalink} {frame : List Byte}
    (short : frame.length < datalink.header) : udpRead endian datalink frame = none := by
  cases datalink with
  | null => exact udpCheck_short endian (by decide) short
  | slip => exact udpCheck_short endian (by decide) short
  | ppp => exact udpCheck_short endian (by decide) short
  | other datalink => exact absurd short (Nat.not_lt_zero _)
  | en10mb =>
    have missing : shortAt endian frame 12 = none := by
      have last : byteAt frame 13 = none := List.getElem?_eq_none (Nat.lt_succ_iff.mp short)
      rw [shortAt, last]
      cases byteAt frame 12 <;> rfl
    rw [udpRead, missing]
    rfl

/-- What `udp_read` should do with a frame: look only at what has been captured, and end the program
or return a packet whose IP header and UDP header have been captured. -/
def StaysInside (datalink : Datalink) (frame : List Byte) (outcome : Option Outcome) : Prop :=
  ∃ ends, outcome = some ends ∧ ∀ ui, ends = .returns ui →
    datalink.header + ipHlen (datalink.packet frame) + sizeofUdphdr ≤ frame.length

/-- `udp_read` stays inside a captured frame exactly when the frame has the header of its link. -/
theorem udpRead_inside_iff (endian : Endian) (datalink : Datalink) (frame : List Byte) :
    StaysInside datalink frame (udpRead endian datalink frame) ↔
      datalink.header ≤ frame.length := by
  constructor
  · rintro ⟨ends, reads, -⟩
    by_contra short
    rw [udpRead_short endian (Nat.not_le.mp short)] at reads
    cases reads
  · intro whole
    obtain ⟨outcome, reads, accepts⟩ := udpRead_spec endian datalink frame whole
    refine ⟨outcome, reads, fun ui returned => ?_⟩
    have udp := (accepts ui returned).udp
    have length : (datalink.packet frame).length = frame.length - datalink.header :=
      List.length_drop
    unfold sizeofUdphdr at udp ⊢
    omega

/-- A frame of three bytes, captured on a loopback interface. -/
theorem not_udpRead_inside :
    ¬ ∀ (endian : Endian) (datalink : Datalink) (frame : List Byte),
      StaysInside datalink frame (udpRead endian datalink frame) := by
  intro inside
  obtain ⟨ends, reads, -⟩ := inside .little .null [2, 0, 0]
  have short : udpRead .little .null [2, 0, 0] = none := udpRead_short .little (by decide)
  rw [short] at reads
  cases reads

/-! ### The checksum of the packet -/

/-- What `test_udp` prints: `"UDP checksums off"` or `"UDP checksums on"`, and if it is verbose the
checksum received. -/
structure Report where
  off : Bool
  received : Option Nat
  deriving DecidableEq, Repr

/-- The end of `test_udp`, from what `udp_read` has returned. -/
def report (endian : Endian) (verbose : Bool) (ui : List Byte) : Option Report := do
  let uiSum ← shortAt endian ui Udpiphdr.sum.offset
  some ⟨decide (uiSum = 0), if verbose then some (endian.htons uiSum) else none⟩

/-- What `udp_check` should hand back: the checksum that `test_udp` reads is that of the packet's
own UDP header, so that checksums are reported off exactly when that is zero. -/
def HandsBackOwn (endian : Endian) (verbose : Bool) (packet ui : List Byte) : Prop :=
  ∃ own, shortAt endian packet (ipHlen packet + 6) = some own ∧
    shortAt endian ui Udpiphdr.sum.offset = some own ∧
    ∃ printed, report endian verbose ui = some printed ∧ (printed.off = true ↔ own = 0)

/-- A packet as it should be: an IP header with a correct checksum, the whole of a UDP datagram
behind it, and the length of each. -/
structure WellFormed (packet : List Byte) : Prop where
  version : (packet.getD 0 0 >>> 4).toNat = ipversion
  header : sizeofIp ≤ ipHlen packet
  total : Endian.big.word (packet.getD 2 0) (packet.getD 3 0) = packet.length
  unfragmented : packet.getD 6 0 &&& 0x3f = 0 ∧ packet.getD 7 0 = 0
  protocol : packet.getD 9 0 = ipprotoUdp
  checksum : checksum .big (packet.take (ipHlen packet)) = 65535
  udp : ipHlen packet + sizeofUdphdr ≤ packet.length
  ulen : ipHlen packet + Endian.big.word (packet.getD (ipHlen packet + 4) 0)
    (packet.getD (ipHlen packet + 5) 0) = packet.length

/-- The packet's own checksum is handed back just where the bytes that `test_udp` reads are the same
as those of the packet's own field. -/
theorem handsBackOwn_iff {endian : Endian} (verbose : Bool) {packet ui : List Byte}
    (accepted : Accepted endian packet ui) :
    HandsBackOwn endian verbose packet ui ↔
      packet.getD 26 0 = packet.getD (ipHlen packet + 6) 0 ∧
        packet.getD 27 0 = packet.getD (ipHlen packet + 7) 0 := by
  have header := accepted.header
  have udp := accepted.udp
  unfold sizeofIp at header
  unfold sizeofUdphdr at udp
  have field : shortAt endian packet (ipHlen packet + 6) = some (endian.word
      (packet.getD (ipHlen packet + 6) 0) (packet.getD (ipHlen packet + 7) 0)) :=
    shortAt_of_lt endian (by omega)
  have behind (i : Nat) (far : 12 ≤ i) : byteAt ui i = byteAt packet i := by
    rw [byteAt, byteAt, accepted.stored]
    exact getElem?_overwrite_behind packet _ (by rw [Endian.length_bytes]; exact far) (by omega)
  have read : shortAt endian ui Udpiphdr.sum.offset =
      some (endian.word (packet.getD 26 0) (packet.getD 27 0)) := by
    rw [← shortAt_of_lt endian (show 26 + 1 < packet.length by omega), shortAt, shortAt]
    show ((byteAt ui 26).bind fun first => (byteAt ui 27).bind fun second => _) = _
    rw [behind 26 (by decide), behind 27 (by decide)]
    rfl
  rw [← Endian.word_inj endian]
  constructor
  · rintro ⟨own, isOwn, isRead, -⟩
    rw [field] at isOwn
    rw [read] at isRead
    exact Option.some.inj (isRead.trans isOwn.symm)
  · intro same
    refine ⟨_, field, read.trans (congrArg some same), ?_⟩
    rw [report, read, Option.bind_eq_bind, Option.bind_some, same]
    exact ⟨_, rfl, decide_eq_true_iff⟩

/-! ### Packets with options -/

/-- An IP header of so many words, with options that do nothing behind its first five, its checksum
filled in. -/
def headerOf (ipHl : Nat) : List Byte :=
  fillCksum .big ([UInt8.ofNat (0x40 + ipHl), 0] ++ Endian.big.bytes (4 * ipHl + 8) ++
    [0, 0, 0, 0, 64, ipprotoUdp, 0, 0, 192, 168, 0, 2, 192, 168, 0, 1] ++
    List.replicate (4 * ipHl - 20) 1) 10 (4 * ipHl)

/-- A packet with that header and an empty datagram that has no checksum. -/
def packetOf (ipHl : Nat) : List Byte := headerOf ipHl ++ [0, 53, 0x30, 0x39, 0, 8, 0, 0]

/-- Those packets are well-formed, and the bytes 26 bytes from their beginning are not the checksum
if there are options. -/
theorem packetOf_wellFormed {ipHl : Nat} (fewest : 5 ≤ ipHl) (most : ipHl ≤ 15) :
    WellFormed (packetOf ipHl) ∧ ipHlen (packetOf ipHl) = 4 * ipHl ∧
      (ipHl ≠ 5 → (packetOf ipHl).getD 26 0 ≠ (packetOf ipHl).getD (4 * ipHl + 6) 0) := by
  interval_cases ipHl <;>
    exact ⟨⟨by decide, by decide, by decide, by decide, by decide, by decide, by decide,
      by decide⟩, by decide, by decide⟩

/-- A well-formed packet is accepted, whatever the byte order of the machine. -/
theorem WellFormed.accepted {packet : List Byte} (wellFormed : WellFormed packet)
    (endian : Endian) : Accepted endian packet (overwrite packet 10 (endian.bytes 0)) := by
  have udp := wellFormed.udp
  have length : (packet.take (ipHlen packet)).length = ipHlen packet := by
    rw [List.length_take, Nat.min_eq_left ((Nat.le_add_right _ _).trans udp)]
  have max : Words.checksum endian (packet.take (ipHlen packet)) = 65535 := by
    cases endian with
    | little => exact (checksum_eq_max_big_iff _).mp wellFormed.checksum
    | big => exact wellFormed.checksum
  have few : ipHlen packet ≤ 60 := headerLength_le _
  have zero := (inCksum_eq_zero_iff (by rw [length]; omega)).mpr max
  rw [length] at zero
  exact ⟨wellFormed.version, wellFormed.header, udp, zero, wellFormed.protocol, rfl⟩

/-- A packet as it is captured on a loopback interface. -/
def loopback (packet : List Byte) : List Byte := [2, 0, 0, 0] ++ packet

theorem packet_loopback (packet : List Byte) : Datalink.null.packet (loopback packet) = packet :=
  rfl

/-- A well-formed packet is returned when it is captured there. -/
theorem udpRead_loopback {packet : List Byte} (wellFormed : WellFormed packet)
    (endian : Endian) : udpRead endian .null (loopback packet) =
      some (.returns (overwrite packet 10 (endian.bytes 0))) := by
  have short : packet.length < 65536 := wellFormed.total ▸ Endian.word_lt _ _ _
  have udp := wellFormed.udp
  have caplen : int (int (loopback packet).length - 4) = packet.length := by
    have length : (loopback packet).length = packet.length + 4 := by
      rw [loopback, List.length_append, Nat.add_comm]
      rfl
    have frame : int (packet.length + 4 : Nat) = packet.length + 4 :=
      Int.bmod_eq_of_le (by omega) (by omega)
    rw [length, frame, Int.add_sub_cancel]
    exact Int.bmod_eq_of_le (by omega) (by omega)
  have honest : Honest packet packet.length := by
    intro size small long
    unfold LessUnsigned at long
    omega
  obtain ⟨outcome, checked, accepts⟩ := udpCheck_spec endian honest
  have long : ¬ LessUnsigned packet.length (ipHlen packet + sizeofUdphdr) := by
    unfold LessUnsigned
    omega
  show udpCheck endian packet (int (int (loopback packet).length - 4)) = _
  rw [caplen, checked, (accepts _).mpr ⟨wellFormed.accepted endian, long⟩]

/-- Of every packet that `udp_check` accepts, the checksum that `test_udp` reads is the packet's own
exactly when the bytes 26 and 27 of the packet are those of its checksum. Of all well-formed packets
with a header of one length this holds if that header has no options, and for no other length. -/
theorem uiSum_own_iff (endian : Endian) (verbose : Bool) :
    (∀ (datalink : Datalink) (frame ui : List Byte),
      udpRead endian datalink frame = some (.returns ui) →
      (HandsBackOwn endian verbose (datalink.packet frame) ui ↔
        (datalink.packet frame).getD 26 0 =
            (datalink.packet frame).getD (ipHlen (datalink.packet frame) + 6) 0 ∧
          (datalink.packet frame).getD 27 0 =
            (datalink.packet frame).getD (ipHlen (datalink.packet frame) + 7) 0)) ∧
    ∀ ipHl, 5 ≤ ipHl → ipHl ≤ 15 →
      ((∀ (datalink : Datalink) (frame ui : List Byte), WellFormed (datalink.packet frame) →
        ipHlen (datalink.packet frame) = 4 * ipHl →
        udpRead endian datalink frame = some (.returns ui) →
        HandsBackOwn endian verbose (datalink.packet frame) ui) ↔ ipHl = 5) := by
  have accepted (datalink : Datalink) (frame ui : List Byte)
      (returned : udpRead endian datalink frame = some (.returns ui)) :
      Accepted endian (datalink.packet frame) ui := by
    by_cases whole : datalink.header ≤ frame.length
    · obtain ⟨outcome, reads, accepts⟩ := udpRead_spec endian datalink frame whole
      exact accepts ui (Option.some.inj (reads.symm.trans returned))
    · rw [udpRead_short endian (Nat.not_le.mp whole)] at returned
      cases returned
  refine ⟨?_, ?_⟩
  · intro datalink frame ui returned
    exact handsBackOwn_iff verbose (accepted datalink frame ui returned)
  · intro ipHl fewest most
    constructor
    · intro own
      by_contra options
      obtain ⟨wellFormed, hlen, elsewhere⟩ := packetOf_wellFormed fewest most
      have back := own .null (loopback (packetOf ipHl))
        (overwrite (packetOf ipHl) 10 (endian.bytes 0))
      rw [packet_loopback] at back
      obtain ⟨first, -⟩ := (handsBackOwn_iff verbose (wellFormed.accepted endian)).mp
        (back wellFormed hlen (udpRead_loopback wellFormed endian))
      rw [hlen] at first
      exact elsewhere options first
    · rintro rfl datalink frame ui - hlen returned
      rw [handsBackOwn_iff verbose (accepted datalink frame ui returned), hlen]
      exact ⟨rfl, rfl⟩

/-- A packet without options, captured on a loopback interface. -/
theorem uiSum_own_iff_plain :
    WellFormed (Datalink.null.packet (loopback (packetOf 5))) ∧
      HandsBackOwn .little true (Datalink.null.packet (loopback (packetOf 5)))
        (overwrite (packetOf 5) 10 (Endian.little.bytes 0)) := by
  obtain ⟨wellFormed, hlen, -⟩ := @packetOf_wellFormed 5 (by decide) (by decide)
  refine ⟨wellFormed, ?_⟩
  refine ((uiSum_own_iff .little true).2 5 (by decide) (by decide)).mpr rfl .null _ _ wellFormed
    hlen (udpRead_loopback wellFormed .little)

/-- With one word of options the destination port is read: the packet has no checksum, and checksums
are reported on. -/
theorem not_uiSum_own :
    ¬ ∀ (endian : Endian) (verbose : Bool) (datalink : Datalink) (frame ui : List Byte),
      WellFormed (datalink.packet frame) → udpRead endian datalink frame = some (.returns ui) →
        HandsBackOwn endian verbose (datalink.packet frame) ui := by
  intro own
  obtain ⟨wellFormed, hlen, elsewhere⟩ := @packetOf_wellFormed 6 (by decide) (by decide)
  have back := own .little false .null (loopback (packetOf 6)) _ wellFormed
    (udpRead_loopback wellFormed .little)
  obtain ⟨first, -⟩ := (handsBackOwn_iff false (wellFormed.accepted .little)).mp back
  exact elsewhere (by decide) (hlen ▸ first)

end SocketProgram.UdpCksum
