/-
This file models the two `send_dns_query`s of `udpcksum`. That of `senddnsquery-raw.c` writes a
query behind room for the headers and has `udp_write` build those; that of
`senddnsquery-libnet.c` hands the same values to the builders of libnet. The two should put the
same datagram on the wire.

Two things are not the same. The builders take ports in host order, and what they are handed is
`sin_port`, which is in network order already: the ports are swapped on a little-endian
machine, and only a port that is its own swap comes out right. And the type and class of the
query are made of `l`, the libnet descriptor, where a one was meant.
-/

import SocketProgram.UdpWrite

namespace SocketProgram.DnsQuery

open Memory Words

/-! ### `senddnsquery-raw.c` -/

/-- `buf` and `ptr`, as an offset into it. -/
structure Cursor where
  buf : List Byte
  ptr : Nat
  deriving DecidableEq, Repr

/-- Bytes are stored at `ptr`, and `ptr` is moved behind them. -/
def Cursor.put (data : List Byte) (cursor : Cursor) : Cursor :=
  ⟨overwrite cursor.buf cursor.ptr data, cursor.ptr + data.length⟩

/-- `*((uint16_t *)ptr)=htons(value); ptr+=2;`. -/
def Cursor.putShort (endian : Endian) (value : Nat) (cursor : Cursor) : Cursor :=
  cursor.put (endian.bytes (endian.htons value))

/-- `"\001a\014root-servers\003net\000"`. -/
def queryName : List Byte :=
  [1, 97, 12, 114, 111, 111, 116, 45, 115, 101, 114, 118, 101, 114, 115, 3, 110, 101, 116, 0]

/-- `send_dns_query` of `senddnsquery-raw.c`: what is handed to `sendto`, where `buf` is what
`malloc` gives. -/
def sendRaw (endian : Endian) (networkOrder : Bool) (zerosum : Int) (loc dest : SockaddrIn)
    (buf : List Byte) : List Byte :=
  let ptr : Cursor := ⟨buf, sizeofUdpiphdr⟩
  let ptr := ptr.putShort endian 1234
  let ptr := ptr.putShort endian 0x0100
  let ptr := ptr.putShort endian 1
  let ptr := ptr.putShort endian 0
  let ptr := ptr.putShort endian 0
  let ptr := ptr.putShort endian 0
  let ptr := ptr.put queryName
  let ptr := ptr.putShort endian 1
  let ptr := ptr.putShort endian 1
  let nbytes := ptr.ptr - sizeofUdpiphdr
  udpWrite endian networkOrder zerosum loc dest ptr.buf nbytes

/-! ### `senddnsquery-libnet.c` -/

/-- The arguments of `libnet_build_dnsv4`. -/
structure Dnsv4 where
  id : Nat
  flags : Nat
  numQ : Nat
  numAnswRr : Nat
  numAuthRr : Nat
  numAddiRr : Nat
  payload : List Byte
  deriving DecidableEq, Repr

/-- The arguments of `libnet_build_udp`, which is given no payload. -/
structure Udp where
  sp : Nat
  dp : Nat
  len : Nat
  sum : Nat
  deriving DecidableEq, Repr

/-- The arguments of `libnet_build_ipv4`, which is given no payload. Addresses are as they stand in
memory. -/
structure Ipv4 where
  len : Nat
  tos : Byte
  id : Nat
  frag : Nat
  ttl : Byte
  prot : Byte
  sum : Nat
  src : InAddr
  dst : InAddr
  deriving DecidableEq, Repr

/-- The three blocks on the wire, around the two checksums: numbers in network order, and addresses
as they are. -/
def wire (dns : Dnsv4) (udp : Udp) (ip : Ipv4) (ipSum udpSum : List Byte) : List Byte :=
  [0x45, ip.tos] ++ Endian.big.bytes ip.len ++ Endian.big.bytes ip.id ++
    Endian.big.bytes ip.frag ++ [ip.ttl, ip.prot] ++ ipSum ++ ip.src.bytes ++ ip.dst.bytes ++
    (Endian.big.bytes udp.sp ++ Endian.big.bytes udp.dp ++ Endian.big.bytes udp.len ++ udpSum) ++
    (Endian.big.bytes dns.id ++ Endian.big.bytes dns.flags ++ Endian.big.bytes dns.numQ ++
      Endian.big.bytes dns.numAnswRr ++ Endian.big.bytes dns.numAuthRr ++
      Endian.big.bytes dns.numAddiRr ++ dns.payload)

/-- libnet: what `libnet_write` sends for the three blocks that have been built, with the UDP
checksum turned on or off. All that is known of it is its documentation: numbers are taken in
host order and sent in network order, addresses are sent as they are, and the checksums are its
own business. -/
structure Libnet where
  write : Dnsv4 → Udp → Bool → Ipv4 → List Byte
  documented : ∀ dns udp checksum ip, ∃ ipSum udpSum : List Byte, ipSum.length = 2 ∧
    udpSum.length = 2 ∧ write dns udp checksum ip = wire dns udp ip ipSum udpSum

/-- `LIBNET_UDP_H`. -/
def libnetUdpH : Nat := 8

/-- `LIBNET_DNSV4_H`. -/
def libnetDnsv4H : Nat := 12

/-- `LIBNET_IPV4_H`. -/
def libnetIpv4H : Nat := 20

/-- `sin_port`, as the number it is to the machine. -/
def sinPort (endian : Endian) (address : SockaddrIn) : Nat :=
  endian.word address.sinPort.1 address.sinPort.2

/-- `send_dns_query` of `senddnsquery-libnet.c`: what `libnet_write` puts on the wire. `l` is the
address of the libnet descriptor. -/
def sendLibnet (libnet : Libnet) (endian : Endian) (l : Nat) (zerosum : Int)
    (loc dest : SockaddrIn) : List Byte :=
  let packetSize := libnetUdpH + libnetDnsv4H + 24
  let one := endian.htons l
  let qbuf := queryName ++ endian.bytes one ++ endian.bytes one
  let dns : Dnsv4 := ⟨1234, 0x0100, 1, 0, 0, 0, qbuf⟩
  let udp : Udp := ⟨sinPort endian loc, sinPort endian dest, packetSize, 0⟩
  let ip : Ipv4 := ⟨packetSize + libnetIpv4H, 0, 0, 0, ttlOut, ipprotoUdp, 0, loc.sinAddr,
    dest.sinAddr⟩
  libnet.write dns udp (decide (zerosum = 0)) ip

/-! ### What the two should agree on -/

/-- A field of a datagram. -/
def fieldAt (datagram : List Byte) (offset size : Nat) : List Byte :=
  (datagram.drop offset).take size

/-- The total length that the kernel takes from the IP header of a raw datagram: `networkOrder` is
`linux` or `__OpenBSD__`, where it is in network order. -/
def ipLen (endian : Endian) (networkOrder : Bool) (datagram : List Byte) : Nat :=
  (if networkOrder then Endian.big else endian).word (datagram.getD 2 0) (datagram.getD 3 0)

/-- The two datagrams agree. libnet's total length is in network order. -/
structure Agree (endian : Endian) (networkOrder : Bool) (raw libnet : List Byte) : Prop where
  sport : fieldAt raw 20 2 = fieldAt libnet 20 2
  dport : fieldAt raw 22 2 = fieldAt libnet 22 2
  ulen : fieldAt raw 24 2 = fieldAt libnet 24 2
  payload : raw.drop 28 = libnet.drop 28
  source : fieldAt raw 12 4 = fieldAt libnet 12 4
  destination : fieldAt raw 16 4 = fieldAt libnet 16 4
  ttl : fieldAt raw 8 1 = fieldAt libnet 8 1
  total : ipLen endian networkOrder raw = ipLen endian true libnet
  length : raw.length = libnet.length

/-! ### The raw datagram -/

/-- What is stored piece by piece is stored as one. -/
theorem put_put (first second : List Byte) (cursor : Cursor)
    (room : cursor.ptr ≤ cursor.buf.length) :
    (cursor.put first).put second = cursor.put (first ++ second) := by
  unfold Cursor.put
  rw [overwrite_overwrite_behind _ _ _ _ room, List.length_append, Nat.add_assoc]

/-- The query: its header, the name, its type and its class. -/
def query : List Byte :=
  Endian.big.bytes 1234 ++ Endian.big.bytes 0x0100 ++ Endian.big.bytes 1 ++ Endian.big.bytes 0 ++
    Endian.big.bytes 0 ++ Endian.big.bytes 0 ++ queryName ++ Endian.big.bytes 1 ++
    Endian.big.bytes 1

/-- The query is written behind the room for the headers. -/
theorem sendRaw_eq (endian : Endian) (networkOrder : Bool) (zerosum : Int) (loc dest : SockaddrIn)
    (buf : List Byte) (allocated : buf.length = sizeofUdpiphdr + 100) :
    sendRaw endian networkOrder zerosum loc dest buf =
      udpWrite endian networkOrder zerosum loc dest (overwrite buf sizeofUdpiphdr query) 36 := by
  have room : sizeofUdpiphdr ≤ buf.length := by
    rw [allocated]
    exact Nat.le_add_right _ _
  have merge (first second : List Byte) :
      ((Cursor.mk buf sizeofUdpiphdr).put first).put second =
        (Cursor.mk buf sizeofUdpiphdr).put (first ++ second) := put_put first second _ room
  have length : query.length = 36 := rfl
  unfold sendRaw
  simp only [Cursor.putShort, Endian.bytes_htons, merge]
  show udpWrite endian networkOrder zerosum loc dest (overwrite buf sizeofUdpiphdr query)
    (sizeofUdpiphdr + query.length - sizeofUdpiphdr) = _
  rw [length, Nat.add_sub_cancel_left]

/-- An IP header of nine bytes and more, written over memory. -/
theorem ipHeader_eq (endian : Endian) (networkOrder : Bool) (ip : List Byte) (userlen : Nat)
    (room : 9 ≤ ip.length) :
    ∃ first, ipHeader endian networkOrder ip userlen =
      [first, 0] ++ endian.bytes (if networkOrder then endian.htons userlen else userlen) ++
        [0, 0, 0, 0, ttlOut] ++ ip.drop 9 := by
  match ip, room with
  | b0 :: b1 :: b2 :: b3 :: b4 :: b5 :: b6 :: b7 :: b8 :: rest, _ =>
    cases endian <;> exact ⟨_, rfl⟩

/-- The raw datagram: the IP header but for its first byte and its checksum, the UDP header but for
its checksum, and the query. -/
theorem sendRaw_datagram (endian : Endian) (networkOrder : Bool) (zerosum : Int)
    (loc dest : SockaddrIn) (buf : List Byte) (allocated : buf.length = sizeofUdpiphdr + 100) :
    ∃ first uiSum, uiSum.length = 2 ∧ sendRaw endian networkOrder zerosum loc dest buf =
      [first, 0] ++ endian.bytes (if networkOrder then endian.htons 64 else 64) ++
        [0, 0, 0, 0, ttlOut] ++
        ([ipprotoUdp] ++ Endian.big.bytes 44 ++ loc.sinAddr.bytes ++ dest.sinAddr.bytes ++
          (udphdr loc dest 44 uiSum ++ query)) := by
  have inside : sizeofUdpiphdr + query.length ≤ buf.length := by
    rw [allocated]
    decide
  have length : (overwrite buf sizeofUdpiphdr query).length = sizeofUdpiphdr + 100 := by
    rw [length_overwrite _ _ _ inside, allocated]
  have room : sizeofUdpiphdr + 36 ≤ (overwrite buf sizeofUdpiphdr query).length := by
    rw [length]
    decide
  have payload : ((overwrite buf sizeofUdpiphdr query).drop sizeofUdpiphdr).take 36 = query :=
    take_drop_overwrite buf query ((Nat.le_add_right _ _).trans inside)
  have behind := drop_udpWrite_eq endian zerosum loc dest _ 36 networkOrder room (by decide)
  rw [payload] at behind
  have whole := udpWrite_eq endian zerosum loc dest _ 36 networkOrder room (by decide)
  obtain ⟨first, header⟩ := ipHeader_eq endian networkOrder
    (overlay loc dest (sizeofUdphdr + 36)
      (sumField endian zerosum loc dest (overwrite buf sizeofUdpiphdr query) 36) ++
        (overwrite buf sizeofUdpiphdr query).drop sizeofUdpiphdr) (36 + sizeofUdpiphdr)
    (by rw [length_built endian zerosum loc dest _ 36 room, length]; decide)
  have front : (udpWrite endian networkOrder zerosum loc dest
      (overwrite buf sizeofUdpiphdr query) 36).take 9 =
      [first, 0] ++ endian.bytes (if networkOrder then endian.htons 64 else 64) ++
        [0, 0, 0, 0, ttlOut] := by
    rw [whole, header, List.take_take]
    exact List.take_left' (by simp only [List.length_append, Endian.length_bytes]; rfl)
  refine ⟨first, _, length_sumField endian zerosum loc dest
    (overwrite buf sizeofUdpiphdr query) 36, ?_⟩
  rw [sendRaw_eq endian networkOrder zerosum loc dest buf allocated, ← front]
  exact (List.take_append_drop 9 _).symm.trans (congrArg _ behind)

/-! ### The two datagrams -/

/-- The bytes of a port come out of the builder as they were exactly on a big-endian machine, or
when the port is its own swap. -/
theorem port_eq_bytes_iff (endian : Endian) (address : SockaddrIn) :
    address.port = Endian.big.bytes (sinPort endian address) ↔
      endian = .big ∨ address.sinPort.1 = address.sinPort.2 := by
  cases endian with
  | little =>
    rw [sinPort, Endian.word_little, Endian.bytes_word, SockaddrIn.port]
    constructor
    · exact fun same => .inr (List.cons.inj same).1
    · rintro (big | same)
      · cases big
      · rw [same]
  | big =>
    rw [sinPort, Endian.bytes_word]
    exact iff_of_true rfl (.inl rfl)

/-- The type and class are those of the raw query exactly when the low 16 bits of the address of the
descriptor are those of one. -/
theorem query_eq_iff (endian : Endian) (l : Nat) :
    query = Endian.big.bytes 1234 ++ Endian.big.bytes 0x0100 ++ Endian.big.bytes 1 ++
        Endian.big.bytes 0 ++ Endian.big.bytes 0 ++ Endian.big.bytes 0 ++
        (queryName ++ endian.bytes (endian.htons l) ++ endian.bytes (endian.htons l)) ↔
      l % 65536 = 1 := by
  rw [Endian.bytes_htons, query]
  constructor
  · intro same
    have last : Endian.big.bytes 1 = Endian.big.bytes l := congrArg (List.drop 34) same
    exact ((bytes_eq_bytes_iff 1 l).mp last).symm
  · intro one
    rw [(bytes_eq_bytes_iff l 1).mpr one]
    rfl

/-- A total length of 16 bits is what the kernel takes for it, if it is stored in the order that the
kernel takes. -/
theorem ipLen_eq (endian : Endian) (networkOrder : Bool) {total : Nat} (small : total < 65536)
    (first second : Byte) (rest : List Byte) :
    ipLen endian networkOrder ([first, second] ++
      endian.bytes (if networkOrder then endian.htons total else total) ++ rest) = total := by
  have loads (order : Endian) :
      order.word ((order.bytes total).getD 0 0) ((order.bytes total).getD 1 0) = total := by
    obtain ⟨high, low, pair⟩ := List.length_eq_two.mp (Endian.length_bytes order total)
    have word : words order (order.bytes total) = _ := words_bytes total
    rw [pair, Nat.mod_eq_of_lt small] at word
    rw [pair]
    exact (List.cons.inj word).1
  cases networkOrder with
  | true =>
    rw [if_pos rfl, Endian.bytes_htons]
    exact loads .big
  | false =>
    rw [if_neg Bool.false_ne_true]
    show endian.word (([first, second] ++ endian.bytes total ++ rest).getD 2 0)
      (([first, second] ++ endian.bytes total ++ rest).getD 3 0) = total
    obtain ⟨high, low, pair⟩ := List.length_eq_two.mp (Endian.length_bytes endian total)
    have loaded := loads endian
    rw [pair] at loaded ⊢
    exact loaded

/-- The raw datagram has 64 bytes, and that is the total length the kernel takes from it. -/
theorem sendRaw_total (endian : Endian) (networkOrder : Bool) (zerosum : Int)
    (loc dest : SockaddrIn) (buf : List Byte) (allocated : buf.length = sizeofUdpiphdr + 100) :
    (sendRaw endian networkOrder zerosum loc dest buf).length = 64 ∧
      ipLen endian networkOrder (sendRaw endian networkOrder zerosum loc dest buf) = 64 := by
  obtain ⟨first, uiSum, two, raw⟩ :=
    sendRaw_datagram endian networkOrder zerosum loc dest buf allocated
  rw [raw]
  constructor
  · simp only [List.length_append, Endian.length_bytes, udphdr, two]
    rfl
  · rw [List.append_assoc]
    exact ipLen_eq endian networkOrder (by decide) first 0 _

/-- The libnet datagram, but for its two checksums. -/
theorem sendLibnet_datagram (libnet : Libnet) (endian : Endian) (l : Nat) (zerosum : Int)
    (loc dest : SockaddrIn) : ∃ ipSum udpSum : List Byte, ipSum.length = 2 ∧ udpSum.length = 2 ∧
      sendLibnet libnet endian l zerosum loc dest =
        wire ⟨1234, 0x0100, 1, 0, 0, 0,
            queryName ++ endian.bytes (endian.htons l) ++ endian.bytes (endian.htons l)⟩
          ⟨sinPort endian loc, sinPort endian dest, 44, 0⟩
          ⟨64, 0, 0, 0, ttlOut, ipprotoUdp, 0, loc.sinAddr, dest.sinAddr⟩ ipSum udpSum :=
  libnet.documented _ _ (decide (zerosum = 0)) _

/-- It has 64 bytes too, and its total length says so. -/
theorem sendLibnet_total (libnet : Libnet) (endian : Endian) (l : Nat) (zerosum : Int)
    (loc dest : SockaddrIn) :
    (sendLibnet libnet endian l zerosum loc dest).length = 64 ∧
      ipLen endian true (sendLibnet libnet endian l zerosum loc dest) = 64 := by
  obtain ⟨ipSum, udpSum, ipSumTwo, udpSumTwo, sent⟩ :=
    sendLibnet_datagram libnet endian l zerosum loc dest
  rw [sent]
  constructor
  · simp only [wire, List.length_append, Endian.length_bytes, ipSumTwo, udpSumTwo]
    rfl
  · simp only [wire, List.append_assoc]
    have total := ipLen_eq endian true (show 64 < 65536 by decide) 0x45 0
    rw [if_pos rfl, Endian.bytes_htons] at total
    simp only [List.append_assoc] at total
    exact total _

/-- For all addresses, ports and settings of `zerosum`, the two implementations put the same ports,
lengths, query, addresses and TTL into their datagrams exactly when the libnet descriptor happens
to lie at an address whose low 16 bits are those of one, and the machine is big-endian or both
ports are their own swaps. -/
theorem dns_query_agree_iff (libnet : Libnet) (endian : Endian) (networkOrder : Bool) (l : Nat)
    (zerosum : Int) (loc dest : SockaddrIn) (buf : List Byte)
    (allocated : buf.length = sizeofUdpiphdr + 100) :
    Agree endian networkOrder (sendRaw endian networkOrder zerosum loc dest buf)
        (sendLibnet libnet endian l zerosum loc dest) ↔
      l % 65536 = 1 ∧ (endian = .big ∨
        loc.sinPort.1 = loc.sinPort.2 ∧ dest.sinPort.1 = dest.sinPort.2) := by
  obtain ⟨first, uiSum, uiSumTwo, raw⟩ :=
    sendRaw_datagram endian networkOrder zerosum loc dest buf allocated
  obtain ⟨ipSum, udpSum, ipSumTwo, udpSumTwo, sent⟩ :=
    sendLibnet_datagram libnet endian l zerosum loc dest
  obtain ⟨rawLength, rawTotal⟩ := sendRaw_total endian networkOrder zerosum loc dest buf allocated
  obtain ⟨wireLength, wireTotal⟩ := sendLibnet_total libnet endian l zerosum loc dest
  obtain ⟨len0, len1, lenBytes⟩ := List.length_eq_two.mp
    (Endian.length_bytes endian (if networkOrder then endian.htons 64 else 64))
  obtain ⟨sum0, sum1, rfl⟩ := List.length_eq_two.mp uiSumTwo
  obtain ⟨ip0, ip1, rfl⟩ := List.length_eq_two.mp ipSumTwo
  obtain ⟨udp0, udp1, rfl⟩ := List.length_eq_two.mp udpSumTwo
  rw [lenBytes] at raw
  have ports : (loc.port = Endian.big.bytes (sinPort endian loc) ∧
      dest.port = Endian.big.bytes (sinPort endian dest)) ↔
      endian = .big ∨ loc.sinPort.1 = loc.sinPort.2 ∧ dest.sinPort.1 = dest.sinPort.2 := by
    rw [port_eq_bytes_iff, port_eq_bytes_iff, ← or_and_left]
  rw [← ports, ← query_eq_iff endian l]
  constructor
  · intro agree
    have sport := agree.sport
    have dport := agree.dport
    have payload := agree.payload
    rw [raw, sent] at sport dport payload
    exact ⟨payload, sport, dport⟩
  · rintro ⟨payload, sport, dport⟩
    refine ⟨?_, ?_, ?_, ?_, ?_, ?_, ?_, rawTotal.trans wireTotal.symm,
      rawLength.trans wireLength.symm⟩
    · rw [raw, sent]
      exact sport
    · rw [raw, sent]
      exact dport
    · rw [raw, sent]
      rfl
    · rw [raw, sent]
      exact payload
    · rw [raw, sent]
      rfl
    · rw [raw, sent]
      rfl
    · rw [raw, sent]
      rfl

/-- A libnet that fills in both checksums unless it is given them. -/
def filling : Libnet where
  write dns udp checksum ip :=
    let ipSum := if ip.sum = 0 then
        65535 - Words.checksum .big ((wire dns udp ip [0, 0] []).take 20)
      else ip.sum
    let udpSum := if udp.sum ≠ 0 then udp.sum
      else if checksum then 65535 - Words.checksum .big (pseudoHeader ip.src ip.dst udp.len ++
        (wire dns udp ip [0, 0] [0, 0]).drop 20)
      else 0
    wire dns udp ip (Endian.big.bytes ipSum) (Endian.big.bytes udpSum)
  documented _ _ _ _ := ⟨_, _, Endian.length_bytes _ _, Endian.length_bytes _ _, rfl⟩

/-- A big-endian machine whose descriptor lies just behind a boundary of 64 kilobytes. -/
theorem dns_query_agree_iff_big :
    Agree .big true
      (sendRaw .big true 0 ⟨⟨192, 168, 0, 1⟩, (156, 64)⟩ ⟨⟨192, 168, 0, 2⟩, (0, 53)⟩
        (List.replicate 128 0))
      (sendLibnet filling .big 65537 0 ⟨⟨192, 168, 0, 1⟩, (156, 64)⟩
        ⟨⟨192, 168, 0, 2⟩, (0, 53)⟩) :=
  (dns_query_agree_iff filling .big true 65537 0 _ _ (List.replicate 128 0)
    List.length_replicate).mpr ⟨rfl, .inl rfl⟩

/-- On a little-endian machine the query for port 53 goes to port 13568, and asks for something
else. -/
theorem not_dns_query_agree :
    ¬ ∀ (libnet : Libnet) (endian : Endian) (networkOrder : Bool) (l : Nat) (zerosum : Int)
      (loc dest : SockaddrIn) (buf : List Byte), buf.length = sizeofUdpiphdr + 100 →
        Agree endian networkOrder (sendRaw endian networkOrder zerosum loc dest buf)
          (sendLibnet libnet endian l zerosum loc dest) := by
  intro agree
  have dport := (agree filling .little true 0x5000 1 ⟨⟨192, 168, 0, 1⟩, (156, 64)⟩
    ⟨⟨192, 168, 0, 2⟩, (0, 53)⟩ (List.replicate 128 0) List.length_replicate).dport
  revert dport
  decide

end SocketProgram.DnsQuery
