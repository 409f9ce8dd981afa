/-
This file models `udp_write` of `udpcksum/udpwrite.c`. The header of a datagram is built
over the first 28 bytes of its buffer as a `struct udpiphdr`, whose leading zeros,
protocol and length stand for the pseudo-header; the checksum is taken over that, and
then the fields of the IP header are written over the same memory.

The overlay has the same words as the pseudo-header and the UDP header in front of the
payload, in another order and with the length once more in place of none. So the
complement of its sum is what the checksum field has to hold for a receiver to find all
ones. What is written afterwards ends before the protocol.
-/

import SocketProgram.InCksum
import SocketProgram.Library.Memory

namespace SocketProgram

open Memory Words

/-! ### Addresses -/

/-- `sin_addr.s_addr`, as it stands in memory. -/
structure InAddr where
  a : Byte
  b : Byte
  c : Byte
  d : Byte
  deriving DecidableEq, Repr

/-- `struct sockaddr_in`: an address, and a port as it stands in memory. -/
structure SockaddrIn where
  sinAddr : InAddr
  sinPort : Byte × Byte
  deriving DecidableEq, Repr

def InAddr.bytes (address : InAddr) : List Byte := [address.a, address.b, address.c, address.d]

def SockaddrIn.port (address : SockaddrIn) : List Byte :=
  [address.sinPort.1, address.sinPort.2]

/-! ### The source -/

/-- Offsets of the fields of `struct udpiphdr`: nine zero bytes, the protocol, the length, the
addresses, and the UDP header. -/
inductive Udpiphdr
  | pr | len | src | dst | sport | dport | ulen | sum

def Udpiphdr.offset : Udpiphdr → Nat
  | .pr => 9
  | .len => 10
  | .src => 12
  | .dst => 16
  | .sport => 20
  | .dport => 22
  | .ulen => 24
  | .sum => 26

/-- `sizeof(struct udpiphdr)`. -/
abbrev sizeofUdpiphdr : Nat := 28

/-- `sizeof(struct udphdr)`. -/
abbrev sizeofUdphdr : Nat := 8

/-- `IPPROTO_UDP`. -/
abbrev ipprotoUdp : Byte := 17

/-- `TTL_OUT`. -/
abbrev ttlOut : Byte := 64

/-- A field of the header is stored. -/
def setField (field : Udpiphdr) (data buf : List Byte) : List Byte :=
  overwrite buf field.offset data

/-- The first part of `udp_write`: the header as a `struct udpiphdr`, without its checksum.
`userlen` is the length of the payload. -/
def udpiphdr (endian : Endian) (loc dest : SockaddrIn) (buf : List Byte) (userlen : Nat) :
    List Byte :=
  let ui := overwrite buf 0 (List.replicate sizeofUdpiphdr 0)
  let ui := setField .len (endian.bytes (endian.htons ((sizeofUdphdr + userlen) % 65536))) ui
  let ui := setField .pr [ipprotoUdp] ui
  let ui := setField .src loc.sinAddr.bytes ui
  let ui := setField .dst dest.sinAddr.bytes ui
  let ui := setField .sport loc.port ui
  let ui := setField .dport dest.port ui
  setField .ulen ((ui.drop Udpiphdr.len.offset).take 2) ui

/-- The second part: the checksum, unless `zerosum` asks for none. `userlen` is the length of the
datagram. -/
def udpSum (endian : Endian) (zerosum : Int) (ui : List Byte) (userlen : Nat) : List Byte :=
  if zerosum = 0 then
    let uiSum := inCksum endian ui userlen
    setField .sum (endian.bytes (if uiSum = 0 then 0xffff else uiSum)) ui
  else ui

/-- The third part: the rest of the IP header. `networkOrder` is `linux` or `__OpenBSD__`, where
`ip_len` is in network order. -/
def ipHeader (endian : Endian) (networkOrder : Bool) (ip : List Byte) (userlen : Nat) :
    List Byte :=
  let ip := overwrite ip 0 [(ip.headD 0 &&& 0x0f) ||| 0x40]
  let ip := overwrite ip 0 [(ip.headD 0 &&& 0xf0) ||| 0x05]
  let ip := overwrite ip 1 [0]
  let ip := overwrite ip 2
    (endian.bytes (if networkOrder then endian.htons userlen else userlen))
  let ip := overwrite ip 4 (endian.bytes 0)
  let ip := overwrite ip 6 (endian.bytes 0)
  overwrite ip 8 [ttlOut]

/-- `udp_write(buf,userlen)`: what is handed to `sendto` for `dest`. -/
def udpWrite (endian : Endian) (networkOrder : Bool) (zerosum : Int) (loc dest : SockaddrIn)
    (buf : List Byte) (userlen : Nat) : List Byte :=
  let ui := udpiphdr endian loc dest buf userlen
  let userlen := userlen + sizeofUdpiphdr
  let ui := udpSum endian zerosum ui userlen
  let ip := ipHeader endian networkOrder ui userlen
  ip.take userlen

/-! ### What a receiver expects -/

/-- The pseudo-header: the addresses, a zero, the protocol and the length of the UDP datagram,
in network order. -/
def pseudoHeader (source destination : InAddr) (length : Nat) : List Byte :=
  source.bytes ++ destination.bytes ++ [0, ipprotoUdp] ++ Endian.big.bytes length

/-- The header of the datagram as a `struct udpiphdr`. -/
def overlay (loc dest : SockaddrIn) (length : Nat) (uiSum : List Byte) : List Byte :=
  List.replicate 9 0 ++ [ipprotoUdp] ++ Endian.big.bytes length ++ loc.sinAddr.bytes ++
    dest.sinAddr.bytes ++ loc.port ++ dest.port ++ Endian.big.bytes length ++ uiSum

/-- The UDP header. -/
def udphdr (loc dest : SockaddrIn) (length : Nat) (uhSum : List Byte) : List Byte :=
  loc.port ++ dest.port ++ Endian.big.bytes length ++ uhSum

/-- What `bzero` leaves of a buffer. -/
theorem bzero_eq (buf : List Byte) (size : Nat) :
    overwrite buf 0 (List.replicate size 0) = List.replicate size 0 ++ buf.drop size := by
  rw [overwrite, List.take_zero, List.nil_append, List.length_replicate, Nat.zero_add]

/-- The first part leaves the overlay in front of the payload. -/
theorem udpiphdr_eq (endian : Endian) (loc dest : SockaddrIn) (buf : List Byte) (userlen : Nat)
    (fits : sizeofUdphdr + userlen < 65536) :
    udpiphdr endian loc dest buf userlen =
      overlay loc dest (sizeofUdphdr + userlen) [0, 0] ++ buf.drop sizeofUdpiphdr := by
  unfold udpiphdr
  obtain ⟨high, low, bytes⟩ : ∃ high low,
      Endian.big.bytes (sizeofUdphdr + userlen) = [high, low] := ⟨_, _, rfl⟩
  rw [bzero_eq, Endian.bytes_htons, Nat.mod_eq_of_lt fits, overlay, bytes]
  generalize buf.drop sizeofUdpiphdr = payload
  simp only [setField, overwrite, Udpiphdr.offset, InAddr.bytes, SockaddrIn.port,
    List.replicate_succ, List.replicate_zero, List.cons_append, List.nil_append,
    List.take_succ_cons, List.take_zero, List.drop_succ_cons, List.drop_zero, List.length_cons,
    List.length_nil]

/-- The second part stores the two bytes of the checksum. -/
theorem setField_sum (loc dest : SockaddrIn) (length : Nat) (old new : List Byte)
    (oldTwo : old.length = 2) (newTwo : new.length = 2) (payload : List Byte) :
    setField .sum new (overlay loc dest length old ++ payload) =
      overlay loc dest length new ++ payload := by
  have before : (overlay loc dest length []).length = Udpiphdr.offset .sum := rfl
  have split (uiSum : List Byte) :
      overlay loc dest length uiSum = overlay loc dest length [] ++ uiSum := by
    unfold overlay
    rw [List.append_nil]
  have after : (overlay loc dest length [] ++ old).length =
      (overlay loc dest length []).length + new.length := by
    rw [List.length_append, oldTwo, newTwo]
  rw [setField, overwrite, split old, split new, ← before, ← after, List.drop_left,
    List.append_assoc _ old, List.take_left]

/-- What is written last ends before the protocol. -/
theorem sameFrom_ipHeader (endian : Endian) (networkOrder : Bool) (ip : List Byte)
    (userlen : Nat) (room : 9 ≤ ip.length) :
    SameFrom 9 (ipHeader endian networkOrder ip userlen) ip := by
  unfold ipHeader
  refine SameFrom.overwrite ?_ (show 8 + 1 ≤ 9 by decide) room
  refine SameFrom.overwrite ?_ (by rw [Endian.length_bytes]; decide) room
  refine SameFrom.overwrite ?_ (by rw [Endian.length_bytes]; decide) room
  refine SameFrom.overwrite ?_ (by rw [Endian.length_bytes]; decide) room
  refine SameFrom.overwrite ?_ (show 1 + 1 ≤ 9 by decide) room
  refine SameFrom.overwrite ?_ (show 0 + 1 ≤ 9 by decide) room
  exact (SameFrom.refl 9 ip).overwrite (show 0 + 1 ≤ 9 by decide) room

/-! ### The checksum -/

/-- The words of the pseudo-header and the UDP header are those of the overlay, but for the
checksum. -/
theorem sum_words_udp (endian : Endian) (loc dest : SockaddrIn) (length : Nat)
    (uhSum payload : List Byte) (two : uhSum.length = 2) :
    (words endian (pseudoHeader loc.sinAddr dest.sinAddr length ++
      (udphdr loc dest length uhSum ++ payload))).sum =
      (words endian (overlay loc dest length [0, 0] ++ payload)).sum +
        (words endian uhSum).sum := by
  obtain ⟨high, low, bytes⟩ : ∃ high low, Endian.big.bytes length = [high, low] := ⟨_, _, rfl⟩
  obtain ⟨first, second, rfl⟩ := List.length_eq_two.mp two
  have zero : endian.word 0 0 = 0 := by cases endian <;> rfl
  rw [pseudoHeader, udphdr, overlay, bytes]
  simp only [InAddr.bytes, SockaddrIn.port, List.replicate_succ, List.replicate_zero,
    List.cons_append, List.nil_append, words, List.sum_cons, List.sum_nil, zero]
  omega

/-- The checksum field for the overlay: what `in_cksum` gives, with all ones for zero. -/
def uiSum (endian : Endian) (loc dest : SockaddrIn) (payload : List Byte) : Nat :=
  let sum := inCksum endian
    (overlay loc dest (sizeofUdphdr + payload.length) [0, 0] ++ payload)
    (sizeofUdpiphdr + payload.length)
  if sum = 0 then 0xffff else sum

section Sum

variable (endian : Endian) (loc dest : SockaddrIn) (payload : List Byte)

theorem uiSum_range :
    uiSum endian loc dest payload ≠ 0 ∧ uiSum endian loc dest payload ≤ 0xffff := by
  unfold uiSum
  dsimp only
  split_ifs with zero
  · exact ⟨by decide, Nat.le_refl _⟩
  · exact ⟨zero, Nat.lt_succ_iff.mp (Nat.mod_lt _ (by decide))⟩

theorem bytes_uiSum_ne_zero : endian.bytes (uiSum endian loc dest payload) ≠ [0, 0] := by
  intro zero
  have word : words endian (endian.bytes (uiSum endian loc dest payload)) = _ := words_bytes _
  obtain ⟨nonzero, small⟩ := uiSum_range endian loc dest payload
  rw [zero, Nat.mod_eq_of_lt (Nat.lt_succ_of_le small)] at word
  refine nonzero ((List.cons.inj word).1.symm.trans ?_)
  cases endian <;> rfl

/-- With it the sum over pseudo-header, UDP header and payload comes out as all ones. -/
theorem checksum_uiSum (fits : sizeofUdpiphdr + payload.length ≤ 65535) :
    checksum endian (pseudoHeader loc.sinAddr dest.sinAddr (sizeofUdphdr + payload.length) ++
      (udphdr loc dest (sizeofUdphdr + payload.length)
        (endian.bytes (uiSum endian loc dest payload)) ++ payload)) = 0xffff := by
  have small := (uiSum_range endian loc dest payload).2
  rw [checksum_eq_digit, sum_words_udp _ _ _ _ _ _ (Endian.length_bytes _ _), words_bytes,
    List.sum_singleton, Nat.mod_eq_of_lt (Nat.lt_succ_of_le small)]
  refine OnesComplement.digit_add_complement (show 2 ≤ 65536 by decide) _ _ ?_
  have whole : (overlay loc dest (sizeofUdphdr + payload.length) [0, 0] ++ payload).length =
      sizeofUdpiphdr + payload.length := List.length_append
  rw [uiSum, inCksum_eq_complement _ _ _ (by rw [List.length_take]; omega), ← whole,
    List.take_length, checksum_eq_digit]

end Sum

/-! ### The datagram -/

theorem length_overlay (loc dest : SockaddrIn) (length : Nat) (uiSum : List Byte)
    (two : uiSum.length = 2) : (overlay loc dest length uiSum).length = sizeofUdpiphdr := by
  obtain ⟨first, second, rfl⟩ := List.length_eq_two.mp two
  rfl

/-- The overlay in front of a buffer's payload, cut where the datagram ends. -/
theorem take_overlay (loc dest : SockaddrIn) (length : Nat) (uiSum rest : List Byte)
    (two : uiSum.length = 2) (userlen : Nat) :
    (overlay loc dest length uiSum ++ rest).take (userlen + sizeofUdpiphdr) =
      overlay loc dest length uiSum ++ rest.take userlen := by
  rw [← length_overlay loc dest length uiSum two, Nat.add_comm, List.take_length_add_append]

section Datagram

variable (endian : Endian) (zerosum : Int) (loc dest : SockaddrIn) (buf : List Byte)
  (userlen : Nat)

/-- The checksum field as it is sent. -/
def sumField : List Byte :=
  if zerosum = 0 then endian.bytes (uiSum endian loc dest ((buf.drop sizeofUdpiphdr).take userlen))
  else [0, 0]

theorem length_sumField : (sumField endian zerosum loc dest buf userlen).length = 2 := by
  unfold sumField
  split_ifs
  · exact Endian.length_bytes _ _
  · rfl

theorem length_payload (room : sizeofUdpiphdr + userlen ≤ buf.length) :
    ((buf.drop sizeofUdpiphdr).take userlen).length = userlen := by
  rw [List.length_take, List.length_drop]
  omega

/-- The buffer of a payload after the header has been built and summed. -/
theorem udpSum_udpiphdr (room : sizeofUdpiphdr + userlen ≤ buf.length)
    (fits : sizeofUdpiphdr + userlen ≤ 65535) :
    udpSum endian zerosum (udpiphdr endian loc dest buf userlen) (userlen + sizeofUdpiphdr) =
      overlay loc dest (sizeofUdphdr + userlen) (sumField endian zerosum loc dest buf userlen) ++
        buf.drop sizeofUdpiphdr := by
  have payload := length_payload buf userlen room
  have header : sizeofUdphdr + userlen < 65536 :=
    Nat.lt_succ_of_le ((Nat.add_le_add_right (by decide) userlen).trans fits)
  rw [udpiphdr_eq endian loc dest buf userlen header, udpSum, sumField]
  split_ifs with sums
  · rw [← inCksum_take, take_overlay _ _ _ _ _ rfl, uiSum, payload,
      Nat.add_comm userlen sizeofUdpiphdr]
    exact setField_sum loc dest _ _ _ rfl (Endian.length_bytes _ _) _
  · rfl

/-- The datagram is the overlay and the payload with an IP header over their front. -/
theorem udpWrite_eq (networkOrder : Bool) (room : sizeofUdpiphdr + userlen ≤ buf.length)
    (fits : sizeofUdpiphdr + userlen ≤ 65535) :
    udpWrite endian networkOrder zerosum loc dest buf userlen =
      (ipHeader endian networkOrder
        (overlay loc dest (sizeofUdphdr + userlen)
          (sumField endian zerosum loc dest buf userlen) ++ buf.drop sizeofUdpiphdr)
        (userlen + sizeofUdpiphdr)).take (userlen + sizeofUdpiphdr) := by
  rw [← udpSum_udpiphdr endian zerosum loc dest buf userlen room fits]
  rfl

/-- With checksums on the field is not zero, and the words of pseudo-header, UDP header and
payload add up to all ones. -/
theorem checksum_sumField (sums : zerosum = 0) (room : sizeofUdpiphdr + userlen ≤ buf.length)
    (fits : sizeofUdpiphdr + userlen ≤ 65535) :
    sumField endian zerosum loc dest buf userlen ≠ [0, 0] ∧
      checksum .big (pseudoHeader loc.sinAddr dest.sinAddr (sizeofUdphdr + userlen) ++
        (udphdr loc dest (sizeofUdphdr + userlen)
          (sumField endian zerosum loc dest buf userlen) ++
            (buf.drop sizeofUdpiphdr).take userlen)) = 0xffff := by
  have payload := length_payload buf userlen room
  rw [sumField, if_pos sums]
  refine ⟨bytes_uiSum_ne_zero endian loc dest _, ?_⟩
  have max := checksum_uiSum endian loc dest ((buf.drop sizeofUdpiphdr).take userlen)
    (by rw [payload]; exact fits)
  rw [payload] at max
  exact checksum_big_eq_max max

theorem length_built (room : sizeofUdpiphdr + userlen ≤ buf.length) :
    (overlay loc dest (sizeofUdphdr + userlen)
      (sumField endian zerosum loc dest buf userlen) ++ buf.drop sizeofUdpiphdr).length =
        buf.length := by
  rw [List.length_append, length_overlay _ _ _ _ (length_sumField _ _ _ _ _ _),
    List.length_drop]
  exact Nat.add_sub_cancel' ((Nat.le_add_right _ _).trans room)

/-- The IP header leaves what was built from the protocol on. -/
theorem sameFrom_built (networkOrder : Bool) (room : sizeofUdpiphdr + userlen ≤ buf.length) :
    SameFrom 9
      (ipHeader endian networkOrder
        (overlay loc dest (sizeofUdphdr + userlen)
          (sumField endian zerosum loc dest buf userlen) ++ buf.drop sizeofUdpiphdr)
        (userlen + sizeofUdpiphdr))
      (overlay loc dest (sizeofUdphdr + userlen)
        (sumField endian zerosum loc dest buf userlen) ++ buf.drop sizeofUdpiphdr) := by
  refine sameFrom_ipHeader endian networkOrder _ _ ?_
  rw [length_built endian zerosum loc dest buf userlen room]
  exact (show 9 ≤ sizeofUdpiphdr by decide).trans ((Nat.le_add_right _ _).trans room)

theorem length_udpWrite (networkOrder : Bool) (room : sizeofUdpiphdr + userlen ≤ buf.length)
    (fits : sizeofUdpiphdr + userlen ≤ 65535) :
    (udpWrite endian networkOrder zerosum loc dest buf userlen).length =
      sizeofUdpiphdr + userlen := by
  rw [udpWrite_eq endian zerosum loc dest buf userlen networkOrder room fits, List.length_take,
    (sameFrom_built endian zerosum loc dest buf userlen networkOrder room).length,
    length_built endian zerosum loc dest buf userlen room, Nat.add_comm, Nat.min_eq_left room]

/-- From the protocol on the datagram is what was built and summed. -/
theorem drop_udpWrite (networkOrder : Bool) (room : sizeofUdpiphdr + userlen ≤ buf.length)
    (fits : sizeofUdpiphdr + userlen ≤ 65535) :
    (udpWrite endian networkOrder zerosum loc dest buf userlen).drop 9 =
      ((udpSum endian zerosum (udpiphdr endian loc dest buf userlen)
        (userlen + sizeofUdpiphdr)).take (userlen + sizeofUdpiphdr)).drop 9 := by
  rw [udpWrite_eq endian zerosum loc dest buf userlen networkOrder room fits, List.drop_take,
    (sameFrom_built endian zerosum loc dest buf userlen networkOrder room).drop, ← List.drop_take,
    udpSum_udpiphdr endian zerosum loc dest buf userlen room fits]

/-- From the protocol on the datagram is the overlay and the payload. -/
theorem drop_udpWrite_eq (networkOrder : Bool) (room : sizeofUdpiphdr + userlen ≤ buf.length)
    (fits : sizeofUdpiphdr + userlen ≤ 65535) :
    (udpWrite endian networkOrder zerosum loc dest buf userlen).drop 9 =
      [ipprotoUdp] ++ Endian.big.bytes (sizeofUdphdr + userlen) ++ loc.sinAddr.bytes ++
        dest.sinAddr.bytes ++ (udphdr loc dest (sizeofUdphdr + userlen)
          (sumField endian zerosum loc dest buf userlen) ++
            (buf.drop sizeofUdpiphdr).take userlen) := by
  rw [drop_udpWrite endian zerosum loc dest buf userlen networkOrder room fits,
    udpSum_udpiphdr endian zerosum loc dest buf userlen room fits,
    take_overlay _ _ _ _ _ (length_sumField _ _ _ _ _ _)]
  rfl

end Datagram

/-- A receiver accepts what `udp_write` sends. The IP header leaves everything from the protocol
on as it was built and summed: the addresses, ports and payload are those asked for and the
length is that of the UDP datagram. With checksums on, the words of pseudo-header, UDP header
and payload add up to all ones and the checksum is not zero; with checksums off it is zero. -/
theorem udpWrite_accepted (endian : Endian) (networkOrder : Bool) (zerosum : Int)
    (loc dest : SockaddrIn) (buf : List Byte) (userlen : Nat)
    (room : sizeofUdpiphdr + userlen ≤ buf.length)
    (fits : sizeofUdpiphdr + userlen ≤ 65535) :
    let built := udpSum endian zerosum (udpiphdr endian loc dest buf userlen)
      (userlen + sizeofUdpiphdr)
    let datagram := udpWrite endian networkOrder zerosum loc dest buf userlen
    let uhSum := (datagram.drop 26).take 2
    let payload := (buf.drop sizeofUdpiphdr).take userlen
    datagram.length = sizeofUdpiphdr + userlen ∧
      datagram.drop 9 = (built.take (userlen + sizeofUdpiphdr)).drop 9 ∧
      datagram[9]? = some ipprotoUdp ∧
      (datagram.drop 12).take 4 = loc.sinAddr.bytes ∧
      (datagram.drop 16).take 4 = dest.sinAddr.bytes ∧
      datagram.drop 20 = udphdr loc dest (sizeofUdphdr + userlen) uhSum ++ payload ∧
      words .big ((datagram.drop 24).take 2) = [sizeofUdphdr + userlen] ∧
      (zerosum = 0 → uhSum ≠ [0, 0] ∧
        checksum .big (pseudoHeader loc.sinAddr dest.sinAddr (sizeofUdphdr + userlen) ++
          datagram.drop 20) = 0xffff) ∧
      (zerosum ≠ 0 → uhSum = [0, 0]) := by
  intro built datagram uhSum payload
  have tail : datagram.drop 9 = _ :=
    drop_udpWrite_eq endian zerosum loc dest buf userlen networkOrder room fits
  obtain ⟨first, second, field⟩ :=
    List.length_eq_two.mp (length_sumField endian zerosum loc dest buf userlen)
  have later (more : Nat) : datagram.drop (9 + more) = (datagram.drop 9).drop more := by
    rw [List.drop_drop]
  have sent : uhSum = sumField endian zerosum loc dest buf userlen := by
    show (datagram.drop (9 + 17)).take 2 = _
    rw [later, tail, field]
    rfl
  have udp : datagram.drop 20 =
      udphdr loc dest (sizeofUdphdr + userlen) uhSum ++ payload := by
    rw [sent]
    exact (later 11).trans (congrArg (List.drop 11) tail)
  refine ⟨length_udpWrite endian zerosum loc dest buf userlen networkOrder room fits,
    drop_udpWrite endian zerosum loc dest buf userlen networkOrder room fits, ?_, ?_, ?_, udp,
    ?_, ?_, ?_⟩
  · have head := congrArg List.head? tail
    rwa [List.head?_drop] at head
  · show (datagram.drop (9 + 3)).take 4 = _
    rw [later, tail]
    rfl
  · show (datagram.drop (9 + 7)).take 4 = _
    rw [later, tail]
    rfl
  · have lengths : (datagram.drop 24).take 2 = Endian.big.bytes (sizeofUdphdr + userlen) := by
      show (datagram.drop (9 + 15)).take 2 = _
      rw [later, tail]
      rfl
    rw [lengths, words_bytes, Nat.mod_eq_of_lt]
    exact Nat.lt_succ_of_le ((Nat.add_le_add_right (by decide) userlen).trans fits)
  · intro sums
    rw [udp, sent]
    exact checksum_sumField endian zerosum loc dest buf userlen sums room fits
  · intro off
    rw [sent, sumField, if_neg off]

/-- A payload of three bytes, sent with checksums on by a little-endian host. -/
theorem udpWrite_accepted_example :
    let loc : SockaddrIn := ⟨⟨192, 168, 0, 1⟩, (156, 64)⟩
    let dest : SockaddrIn := ⟨⟨192, 168, 0, 2⟩, (0, 53)⟩
    let datagram := udpWrite .little true 0 loc dest (List.replicate 31 7) 3
    datagram.length = 31 ∧ (datagram.drop 26).take 2 ≠ [0, 0] ∧
      checksum .big (pseudoHeader loc.sinAddr dest.sinAddr 11 ++ datagram.drop 20) = 0xffff := by
  intro loc dest datagram
  obtain ⟨length, -, -, -, -, -, -, sums, -⟩ :=
    udpWrite_accepted .little true 0 loc dest (List.replicate 31 7) 3 (by decide) (by decide)
  exact ⟨length, sums rfl⟩

end SocketProgram
