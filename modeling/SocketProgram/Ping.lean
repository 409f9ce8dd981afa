/-
This file models the IPv4 side of `ping`: `send_v4`, which builds an echo request with the
time of sending in its data, `proc_v4`, which reads what a raw socket receives, and
`tv_sub`.

A host that answers a request returns its identifier, sequence number and data behind an
IP header of its own length. `proc_v4` skips that header by its length field, finds the
identifier it sent, and gets the time of sending back out of the data; what is left of
the time of receiving after `tv_sub` is the round-trip time.

That time is not what is printed. The format ends in `rtt=%.3ms`, where `%.3m` is a conversion of
its own: the first three characters of the text of `errno`. So the line tells the number of the
request and nothing of the time, where the line of `proc_v6` has `rtt=%.3f ms`.
-/

import Mathlib.Algebra.Group.Int.Defs
import Mathlib.Data.List.GetD
import SocketProgram.InCksum
import SocketProgram.Library.Memory
import SocketProgram.Library.Printf

namespace SocketProgram.Ping

open Memory Printf Words

/-! ### Times -/

/-- A signed integer of 64 bits: what arithmetic on a `long` leaves of a value. -/
def long (value : Int) : Int := value.bmod (2 ^ 64)

/-- `struct timeval`. -/
structure Timeval where
  tvSec : Int
  tvUsec : Int
  deriving DecidableEq, Repr

/-- A time in microseconds. -/
def Timeval.total (time : Timeval) : Int := time.tvSec * 1000000 + time.tvUsec

/-- A time as `gettimeofday` gives it. -/
structure TimeOfDay extends Timeval where
  sec_nonneg : 0 ≤ tvSec
  sec_lt : tvSec < 2 ^ 63
  usec_nonneg : 0 ≤ tvUsec
  usec_lt : tvUsec < 1000000

/-- `tv_sub(out,in)`: what it leaves in `out`. -/
def tvSub (out in' : Timeval) : Timeval :=
  let out := { out with tvUsec := long (out.tvUsec - in'.tvUsec) }
  let out :=
    if out.tvUsec < 0 then
      { tvSec := long (out.tvSec - 1), tvUsec := long (out.tvUsec + 1000000) }
    else out
  { out with tvSec := long (out.tvSec - in'.tvSec) }

/-- A `struct timeval` in memory: two `long`s. -/
def Timeval.bytes (endian : Endian) (time : Timeval) : List Byte :=
  endian.store 8 (time.tvSec % 2 ^ 64).toNat ++ endian.store 8 (time.tvUsec % 2 ^ 64).toNat

/-- The `struct timeval` that stands in memory. -/
def Timeval.load (endian : Endian) (memory : List Byte) : Timeval where
  tvSec := long (endian.load (memory.take 8))
  tvUsec := long (endian.load ((memory.drop 8).take 8))

theorem Timeval.length_bytes (endian : Endian) (time : Timeval) :
    (time.bytes endian).length = 16 := by
  rw [Timeval.bytes, List.length_append, Endian.length_store, Endian.length_store]

theorem long_eq {value : Int} (low : -2 ^ 63 ≤ value) (high : value < 2 ^ 63) :
    long value = value := Int.bmod_eq_of_le (by omega) (by omega)

/-- The difference of two times is exact, with its microseconds in range. -/
theorem tvSub_total (recv send : TimeOfDay) :
    (tvSub recv.toTimeval send.toTimeval).total = recv.total - send.total ∧
      0 ≤ (tvSub recv.toTimeval send.toTimeval).tvUsec ∧
      (tvSub recv.toTimeval send.toTimeval).tvUsec < 1000000 := by
  have recvSec := And.intro recv.sec_nonneg recv.sec_lt
  have recvUsec := And.intro recv.usec_nonneg recv.usec_lt
  have sendSec := And.intro send.sec_nonneg send.sec_lt
  have sendUsec := And.intro send.usec_nonneg send.usec_lt
  have usec : long (recv.tvUsec - send.tvUsec) = recv.tvUsec - send.tvUsec :=
    long_eq (by omega) (by omega)
  unfold tvSub Timeval.total
  dsimp only
  rw [usec]
  split_ifs with borrow
  · have sec : long (recv.tvSec - 1) = recv.tvSec - 1 := long_eq (by omega) (by omega)
    have usec' : long (recv.tvUsec - send.tvUsec + 1000000) =
        recv.tvUsec - send.tvUsec + 1000000 := long_eq (by omega) (by omega)
    have sec' : long (recv.tvSec - 1 - send.tvSec) = recv.tvSec - 1 - send.tvSec :=
      long_eq (by omega) (by omega)
    dsimp only
    rw [sec, usec', sec']
    refine ⟨?_, ?_, ?_⟩ <;> omega
  · have sec : long (recv.tvSec - send.tvSec) = recv.tvSec - send.tvSec :=
      long_eq (by omega) (by omega)
    dsimp only
    rw [sec]
    refine ⟨?_, ?_, ?_⟩ <;> omega

/-- A time of day stored in memory is loaded again. -/
theorem load_bytes (endian : Endian) (time : TimeOfDay) :
    Timeval.load endian (time.toTimeval.bytes endian) = time.toTimeval := by
  have usec_lt : time.tvUsec < 2 ^ 63 := time.usec_lt.trans (by decide)
  have stored (value : Int) (low : 0 ≤ value) (high : value < 2 ^ 63) :
      long (endian.load (endian.store 8 (value % 2 ^ 64).toNat)) = value := by
    have fits : (value % 2 ^ 64).toNat % 256 ^ 8 = value.toNat := by omega
    rw [Endian.load_store, fits, Int.toNat_of_nonneg low, long_eq (by omega) high]
  have first : (endian.store 8 (time.tvSec % 2 ^ 64).toNat).length = 8 := Endian.length_store _ _ _
  have second : (endian.store 8 (time.tvUsec % 2 ^ 64).toNat).length = 8 :=
    Endian.length_store _ _ _
  unfold Timeval.load Timeval.bytes
  rw [List.take_left' first, List.drop_left' first, List.take_of_length_le second.le,
    stored _ time.sec_nonneg time.sec_lt, stored _ time.usec_nonneg usec_lt]

/-! ### The source -/

/-- `ICMP_ECHO`. -/
def icmpEcho : Byte := 8

/-- `ICMP_ECHOREPLY`. -/
def icmpEchoreply : Byte := 0

/-- `IPPROTO_ICMP`. -/
def ipprotoIcmp : Byte := 1

/-- `datalen`: the bytes of data that go with an echo request. -/
def datalen : Nat := 56

/-- `main`: the `pid` that goes into the identifier field. -/
def pidOf (getpid : Nat) : Nat := getpid &&& 0xffff

/-- `send_v4` up to the checksum: the request in `sendbuf`. -/
def request (endian : Endian) (pid : Nat) (nsent : Int) (now : Timeval) (sendbuf : List Byte) :
    List Byte :=
  let icmp := overwrite sendbuf 0 [icmpEcho]
  let icmp := overwrite icmp 1 [0]
  let icmp := overwrite icmp 4 (endian.bytes pid)
  let icmp := overwrite icmp 6 (endian.bytes (nsent % 2 ^ 16).toNat)
  let icmp := overwrite icmp 8 (List.replicate datalen 0xa5)
  overwrite icmp 8 (now.bytes endian)

/-- `send_v4`: what is handed to `sendto`, from the value of `nsent` and the time of the
call. -/
def sendV4 (endian : Endian) (pid : Nat) (nsent : Int) (now : Timeval) (sendbuf : List Byte) :
    List Byte :=
  let icmp := request endian pid nsent now sendbuf
  let len := 8 + datalen
  let icmp := overwrite icmp 2 (endian.bytes 0)
  let icmp := overwrite icmp 2 (endian.bytes (inCksum endian icmp len))
  icmp.take len

/-- What `proc_v4` calls `printf` for, with the host it comes from. `rtt` is the time that `tv_sub`
leaves in `tvrecv`, of which the double is computed. -/
inductive Report (Host : Type*)
  | reply (icmplen : Int) (host : Host) (seq : Nat) (ttl : Nat) (rtt : Timeval)
  | other (icmplen : Int) (host : Host) (type : Nat) (code : Nat)
  deriving DecidableEq, Repr

variable {Host : Type*}

/-- `rtt=tvrecv->tv_sec *1000.0 + tvrecv->tv_usec/1000.0`. -/
def rttOf (tvrecv : Timeval) : ℚ :=
  double (double (double tvrecv.tvSec * 1000) + double (double tvrecv.tvUsec / 1000))

/-- The line that `proc_v4` prints, from what `sock_ntop_host` makes of a host and from the text of
`errno`. -/
def Report.line (ntop : Host → List Char) (message : List Char) :
    Report Host → Option (List Char)
  | .reply icmplen host seq ttl rtt =>
    printf message (format "%d bytes from %s: seq=%u, ttl=%d, rtt=%.3ms\n".toList)
      [.int icmplen, .string (ntop host), .int seq, .int ttl, .double (rttOf rtt)]
  | .other icmplen host type code =>
    printf message (format " %d bytes from %s: type= %d, code = %d \n".toList)
      [.int icmplen, .string (ntop host), .int type, .int code]

/-- `ip->ip_hl <<2`: the length of the IP header of a packet. -/
def hlen1 (ptr : List Byte) : Nat := (ptr.getD 0 0 &&& 0x0f).toNat <<< 2

/-- The ICMP header of a packet. -/
def icmpOf (ptr : List Byte) : List Byte := ptr.drop (hlen1 ptr)

/-- `icmp->icmp_id`. -/
def icmpId (endian : Endian) (icmp : List Byte) : Nat :=
  endian.word (icmp.getD 4 0) (icmp.getD 5 0)

/-- `icmp->icmp_seq`. -/
def icmpSeq (endian : Endian) (icmp : List Byte) : Nat :=
  endian.word (icmp.getD 6 0) (icmp.getD 7 0)

/-- `proc_v4(ptr,len,msg,tvrecv)`, where `ptr` is the receive buffer and `len` how much of it was
received. -/
def procV4 (endian : Endian) (pid : Nat) (verbose : Bool) (host : Host) (ptr : List Byte)
    (len : Int) (tvrecv : Timeval) : Option (Report Host) :=
  if ptr.getD 9 0 ≠ ipprotoIcmp then none
  else
    let icmp := icmpOf ptr
    let icmplen := len - hlen1 ptr
    if icmplen < 8 then none
    else if icmp.getD 0 0 = icmpEchoreply then
      if icmpId endian icmp ≠ pid then none
      else if icmplen < 16 then none
      else
        let tvsend := Timeval.load endian ((icmp.drop 8).take 16)
        let rtt := tvSub tvrecv tvsend
        some (.reply icmplen host (icmpSeq endian icmp) (ptr.getD 8 0).toNat rtt)
    else if verbose then
      some (.other icmplen host (icmp.getD 0 0).toNat (icmp.getD 1 0).toNat)
    else none

/-! ### The request and its answer -/

/-- From the identifier on, a request is the identifier, the sequence number, the time and the
rest of the pattern, in front of what was in the buffer. -/
theorem drop_request (endian : Endian) (pid : Nat) (nsent : Int) (now : Timeval)
    (sendbuf : List Byte) (room : 8 + datalen ≤ sendbuf.length) :
    (request endian pid nsent now sendbuf).drop 4 =
      endian.bytes pid ++ (endian.bytes (nsent % 2 ^ 16).toNat ++ (now.bytes endian ++
        (List.replicate 40 0xa5 ++ sendbuf.drop (8 + datalen)))) := by
  have four : 4 ≤ sendbuf.length := (show 4 ≤ 8 + datalen by decide).trans room
  have front : SameFrom 4 (overwrite (overwrite sendbuf 0 [icmpEcho]) 1 [0]) sendbuf :=
    ((SameFrom.refl 4 sendbuf).overwrite (show 0 + 1 ≤ 4 by decide) four).overwrite
      (show 1 + 1 ≤ 4 by decide) four
  unfold request
  dsimp only
  generalize overwrite (overwrite sendbuf 0 [icmpEcho]) 1 [0] = icmp at front ⊢
  have header : (icmp.take 4).length = 4 := by
    rw [List.length_take, front.length, Nat.min_eq_left four]
  have behind (first memory data : List Byte) (size offset : Nat) (length : first.length = size) :
      overwrite (first ++ memory) (size + offset) data = first ++ overwrite memory offset data :=
    length ▸ overwrite_append first memory data offset
  have id : (endian.bytes pid).length = 2 := Endian.length_bytes _ _
  have seq : (endian.bytes (nsent % 2 ^ 16).toNat).length = 2 := Endian.length_bytes _ _
  have time : (now.bytes endian).length = 16 := Timeval.length_bytes endian now
  rw [← List.take_append_drop 4 icmp, front.drop]
  show List.drop 4 (overwrite (overwrite (overwrite (overwrite _ (4 + 0) _) (4 + 2) _) (4 + 4) _)
    (4 + 4) _) = _
  rw [behind _ _ _ 4 _ header, behind _ _ _ 4 _ header, behind _ _ _ 4 _ header,
    behind _ _ _ 4 _ header, List.drop_left' header, overwrite_zero, id, List.drop_drop]
  show overwrite (overwrite (overwrite _ (2 + 0) _) (2 + 2) _) (2 + 2) _ = _
  rw [behind _ _ _ 2 _ id, behind _ _ _ 2 _ id, behind _ _ _ 2 _ id, overwrite_zero, seq,
    List.drop_drop]
  show _ ++ overwrite (overwrite _ (2 + 0) _) (2 + 0) _ = _
  rw [behind _ _ _ 2 _ seq, behind _ _ _ 2 _ seq, overwrite_zero, overwrite_zero, time,
    List.length_replicate, List.drop_drop, List.drop_append_of_le_length ?_, List.drop_replicate]
  · rfl
  · rw [List.length_replicate]
    decide

/-- The bytes of a request are sent whole, and from the identifier on they are as built. -/
theorem drop_sendV4 (endian : Endian) (pid : Nat) (nsent : Int) (now : Timeval)
    (sendbuf : List Byte) (room : 8 + datalen ≤ sendbuf.length) :
    (sendV4 endian pid nsent now sendbuf).drop 4 =
      endian.bytes pid ++ (endian.bytes (nsent % 2 ^ 16).toNat ++ (now.bytes endian ++
        List.replicate 40 0xa5)) := by
  have built := drop_request endian pid nsent now sendbuf room
  have time : (now.bytes endian).length = 16 := Timeval.length_bytes endian now
  have enough : 4 ≤ (request endian pid nsent now sendbuf).length := by
    have lengths := congrArg List.length built
    rw [List.length_drop, List.length_append, Endian.length_bytes] at lengths
    omega
  have sum (value : Nat) : 2 + (endian.bytes value).length ≤ 4 := by rw [Endian.length_bytes]
  unfold sendV4
  dsimp only
  generalize inCksum _ _ _ = cksum
  rw [List.drop_take, (((SameFrom.refl 4 _).overwrite (sum 0) enough).overwrite (sum cksum)
    enough).drop, built]
  simp only [← List.append_assoc]
  refine List.take_left' ?_
  simp only [List.length_append, Endian.length_bytes, List.length_replicate, time]
  rfl

/-! ### The round trip -/

/-- What answers a request: an IP header with its own length in it, an echo reply with any code
and checksum, and the identifier, sequence number and data of the request. -/
structure Answer (request : List Byte) where
  header : List Byte
  code : Byte
  cksum : Byte × Byte
  shortest : 20 ≤ header.length
  longest : header.length ≤ 60
  hl : hlen1 header = header.length
  p : header.getD 9 0 = ipprotoIcmp

/-- The packet of an answer. -/
def Answer.packet {request : List Byte} (answer : Answer request) : List Byte :=
  answer.header ++ ([icmpEchoreply, answer.code, answer.cksum.1, answer.cksum.2] ++
    request.drop 4)

/-- The two bytes of a stored word. -/
theorem exists_bytes (endian : Endian) {value : Nat} (small : value < 65536) :
    ∃ first second, endian.bytes value = [first, second] ∧ endian.word first second = value := by
  obtain ⟨first, second, bytes⟩ := List.length_eq_two.mp (endian.length_bytes value)
  have stored : words endian (endian.bytes value) = [value % 65536] := words_bytes value
  rw [bytes, Nat.mod_eq_of_lt small] at stored
  exact ⟨first, second, bytes, (List.cons.inj stored).1⟩

section Answer

variable {request : List Byte} (answer : Answer request) (rest : List Byte)

/-- The first twenty bytes of an answer are in its IP header. -/
theorem Answer.getD_packet {i : Nat} (inside : i < 20) :
    (answer.packet ++ rest).getD i 0 = answer.header.getD i 0 := by
  rw [Answer.packet, List.append_assoc,
    List.getD_append _ _ _ _ (inside.trans_le answer.shortest)]

theorem Answer.hlen1_packet : hlen1 (answer.packet ++ rest) = answer.header.length := by
  rw [hlen1, answer.getD_packet rest (by decide)]
  exact answer.hl

theorem Answer.icmpOf_packet : icmpOf (answer.packet ++ rest) =
    [icmpEchoreply, answer.code, answer.cksum.1, answer.cksum.2] ++ request.drop 4 ++ rest := by
  rw [icmpOf, answer.hlen1_packet, Answer.packet, List.append_assoc, List.drop_left]

end Answer

/-- The identifier, the number and the time of a request in the ICMP message of its answer. -/
theorem answer_bytes (endian : Endian) {pid : Nat} (pid16 : pid < 65536) (nsent : Int)
    (sent : TimeOfDay) {sendbuf : List Byte} (room : 8 + datalen ≤ sendbuf.length)
    (answer : Answer (sendV4 endian pid nsent sent.toTimeval sendbuf)) (rest : List Byte) :
    answer.packet.length = answer.header.length + 64 ∧
      (icmpOf (answer.packet ++ rest)).getD 0 0 = icmpEchoreply ∧
      icmpId endian (icmpOf (answer.packet ++ rest)) = pid ∧
      icmpSeq endian (icmpOf (answer.packet ++ rest)) = (nsent % 65536).toNat ∧
      Timeval.load endian (((icmpOf (answer.packet ++ rest)).drop 8).take 16) =
        sent.toTimeval := by
  obtain ⟨id, id', idBytes, idWord⟩ := exists_bytes endian pid16
  obtain ⟨seq, seq', seqBytes, seqWord⟩ :=
    exists_bytes endian (show (nsent % 2 ^ 16).toNat < 65536 by omega)
  have seqWord : endian.word seq seq' = (nsent % 65536).toNat := seqWord
  have time (rest : List Byte) : (sent.toTimeval.bytes endian ++ rest).take 16 =
      sent.toTimeval.bytes endian := List.take_left' (Timeval.length_bytes endian _)
  rw [answer.icmpOf_packet, Answer.packet,
    drop_sendV4 endian pid nsent sent.toTimeval sendbuf room, idBytes, seqBytes]
  simp only [icmpId, icmpSeq, List.cons_append, List.nil_append, List.append_assoc,
    List.getD_cons_zero, List.getD_cons_succ, List.drop_succ_cons, List.drop_zero, idWord, seqWord,
    time, load_bytes, List.length_append, List.length_cons, Timeval.length_bytes,
    List.length_replicate, and_self]

/-- `proc_v4` recognises the answer to a request, whatever stands behind it in the receive
buffer. -/
theorem procV4_answer (endian : Endian) (pid : Nat) (pid16 : pid < 65536) (nsent : Int)
    (sent received : TimeOfDay) (sendbuf : List Byte) (room : 8 + datalen ≤ sendbuf.length)
    (answer : Answer (sendV4 endian pid nsent sent.toTimeval sendbuf)) (rest : List Byte)
    (verbose : Bool) (host : Host) :
    procV4 endian pid verbose host (answer.packet ++ rest) answer.packet.length
        received.toTimeval =
      some (.reply 64 host (nsent % 65536).toNat (answer.header.getD 8 0).toNat
        (tvSub received.toTimeval sent.toTimeval)) := by
  obtain ⟨length, type, id, seq, tvsend⟩ :=
    answer_bytes endian pid16 nsent sent room answer rest
  have icmplen : (answer.packet.length : Int) - answer.header.length = 64 := by
    rw [length]
    omega
  unfold procV4
  rw [answer.getD_packet rest (by decide), answer.getD_packet rest (by decide), answer.p,
    answer.hlen1_packet]
  dsimp only
  rw [if_neg (not_not.mpr rfl), icmplen, if_neg (by decide), if_pos type, id,
    if_neg (not_not.mpr rfl), if_neg (by decide), seq, tvsend]

/-- `proc_v4` ignores what is not an answer to this process: other protocols, packets with less
than an ICMP header, and echo replies with another identifier. -/
theorem procV4_ignores (endian : Endian) (pid : Nat) (verbose : Bool) (host : Host)
    (ptr : List Byte) (len : Int) (tvrecv : Timeval)
    (foreign : ptr.getD 9 0 ≠ ipprotoIcmp ∨ len - hlen1 ptr < 8 ∨
      (icmpOf ptr).getD 0 0 = icmpEchoreply ∧ icmpId endian (icmpOf ptr) ≠ pid) :
    procV4 endian pid verbose host ptr len tvrecv = none := by
  unfold procV4
  dsimp only
  split_ifs with notIcmp short type id
  · rfl
  · rfl
  · rfl
  · rfl
  · rcases foreign with protocol | bytes | other
    · exact absurd protocol notIcmp
    · exact absurd bytes short
    · exact absurd other.2 id
  · rcases foreign with protocol | bytes | other
    · exact absurd protocol notIcmp
    · exact absurd bytes short
    · exact absurd other.1 type
  · rfl

theorem pidOf_lt (getpid : Nat) : pidOf getpid < 65536 :=
  Nat.lt_succ_of_le Nat.and_le_right

/-! ### The line -/

/-- A time in microseconds, written in milliseconds. -/
def milliseconds (total : Int) : List Char :=
  (if total < 0 then ['-'] else []) ++ point 3 total.natAbs

/-- The line of a reply up to its time. -/
def replyFront (host : List Char) (seq ttl : Nat) : List Char :=
  decimal 64 ++ (" bytes from ".toList ++ (host ++ (": seq=".toList ++ (decimal seq ++
    (", ttl=".toList ++ (decimal ttl ++ ", rtt=".toList))))))

/-- A line of a reply that shows its number and its time, to the microsecond. -/
def ShowsRoundTrip (host : List Char) (seq ttl : Nat) (total : Int) (line : List Char) : Prop :=
  ∃ back, line = replyFront host seq ttl ++ (milliseconds total ++ back)

theorem format_reply :
    format "%d bytes from %s: seq=%u, ttl=%d, rtt=%.3ms\n".toList =
      .signed :: (literal " bytes from " ++ .string :: (literal ": seq=" ++
        .unsigned :: (literal ", ttl=" ++ .signed :: (literal ", rtt=" ++
          .message 3 :: literal "s\n")))) := rfl

/-- What stands behind `rtt=` is the text of `errno`, of which three characters are left. -/
theorem line_reply (ntop : Host → List Char) (message : List Char) (host : Host) {seq ttl : Nat}
    (seq16 : seq < 65536) (ttl8 : ttl < 256) (rtt : Timeval) :
    (Report.reply 64 host seq ttl rtt).line ntop message =
      some (replyFront (ntop host) seq ttl ++ (message.take 3 ++ "s\n".toList)) := by
  have length : (64 : Int).bmod (2 ^ 32) = 64 := by decide
  have seq32 : (seq : Int) % 2 ^ 32 = seq := Int.emod_eq_of_lt (by omega) (by omega)
  have ttl32 : (ttl : Int).bmod (2 ^ 32) = ttl := Int.bmod_eq_of_le (by omega) (by omega)
  rw [Report.line, format_reply]
  simp only [printf_signed, printf_unsigned, printf_string, printf_message, printf_literal,
    printf_literal_end, Option.map_some, length, seq32, ttl32, replyFront, List.append_assoc]

/-- Three characters and the end of the line leave no room for a time. -/
theorem not_showsRoundTrip (host message : List Char) (seq ttl : Nat) (total : Int) :
    ¬ ShowsRoundTrip host seq ttl total
      (replyFront host seq ttl ++ (message.take 3 ++ "s\n".toList)) := by
  rintro ⟨back, line⟩
  have shown : message.take 3 ++ "s\n".toList = milliseconds total ++ back :=
    List.append_cancel_left line
  have short : (message.take 3 ++ "s\n".toList).length ≤ 5 := by
    rw [List.length_append]
    exact Nat.add_le_add_right (List.length_take_le 3 message) 2
  have long : 5 ≤ (milliseconds total).length := by
    rw [milliseconds, List.length_append]
    exact le_add_left (length_point (by decide))
  have newline : '\n' ∈ milliseconds total ++ back := by
    rw [← shown]
    exact List.mem_append_right _ (by decide)
  rw [shown, List.length_append] at short
  have none : back = [] := List.eq_nil_of_length_eq_zero (by omega)
  rw [none, List.append_nil, milliseconds] at newline
  rcases List.mem_append.mp newline with sign | text
  · split_ifs at sign
    · exact absurd (List.mem_singleton.mp sign) (by decide)
    · exact absurd sign List.not_mem_nil
  · rcases isDigit_of_mem_point text with digit | dot
    · exact absurd digit (by decide)
    · exact absurd dot (by decide)

/-- The round trip of `ping`. An answer to a request is recognised, with the sequence number it was
sent with and with the time between sending and receiving; but of the two the line shows the
number only, and never the time. What is not an answer to this process is not reported, whatever
it contains. -/
theorem ping_roundTrip_never (endian : Endian) (getpid : Nat) (nsent : Int)
    (sent received : TimeOfDay) (sendbuf : List Byte) (room : 8 + datalen ≤ sendbuf.length)
    (answer : Answer (sendV4 endian (pidOf getpid) nsent sent.toTimeval sendbuf))
    (rest : List Byte) (verbose : Bool) (host : Host) (ntop : Host → List Char)
    (message : List Char) :
    (∃ ttl rtt line,
      procV4 endian (pidOf getpid) verbose host (answer.packet ++ rest) answer.packet.length
          received.toTimeval =
        some (.reply 64 host (nsent % 65536).toNat ttl rtt) ∧
      ttl = (answer.header.getD 8 0).toNat ∧ rtt.total = received.total - sent.total ∧
      0 ≤ rtt.tvUsec ∧ rtt.tvUsec < 1000000 ∧
      (Report.reply 64 host (nsent % 65536).toNat ttl rtt).line ntop message = some line ∧
      line = replyFront (ntop host) (nsent % 65536).toNat ttl ++
        (message.take 3 ++ "s\n".toList) ∧
      ¬ ShowsRoundTrip (ntop host) (nsent % 65536).toNat ttl (received.total - sent.total) line) ∧
    ∀ (ptr : List Byte) (len : Int) (tvrecv : Timeval),
      ptr.getD 9 0 ≠ ipprotoIcmp ∨ len - hlen1 ptr < 8 ∨
        (icmpOf ptr).getD 0 0 = icmpEchoreply ∧
          icmpId endian (icmpOf ptr) ≠ pidOf getpid →
      procV4 endian (pidOf getpid) verbose host ptr len tvrecv = none := by
  obtain ⟨total, usec_nonneg, usec_lt⟩ := tvSub_total received sent
  have seq16 : (nsent % 65536).toNat < 65536 := by omega
  have line := line_reply ntop message host seq16 (answer.header.getD 8 0).toNat_lt
    (tvSub received.toTimeval sent.toTimeval)
  have recognised := procV4_answer endian _ (pidOf_lt getpid) nsent sent received sendbuf room
    answer rest verbose host
  refine ⟨⟨_, _, _, recognised, rfl, total, usec_nonneg, usec_lt, line, rfl,
    not_showsRoundTrip _ _ _ _ _⟩, ?_⟩
  intro ptr len tvrecv foreign
  exact procV4_ignores endian _ verbose host ptr len tvrecv foreign

/-- Half a second, across a full second, with a header of 24 bytes and after a call that
succeeded. -/
theorem ping_roundTrip_never_example :
    let sent : TimeOfDay := ⟨⟨1000, 800000⟩, by decide, by decide, by decide, by decide⟩
    let received : TimeOfDay := ⟨⟨1001, 300000⟩, by decide, by decide, by decide, by decide⟩
    let request := sendV4 .little (pidOf 70000) 65537 sent.toTimeval (List.replicate 1500 0)
    let header : List Byte := [0x46, 0, 0, 88, 0, 0, 0, 0, 64, 1] ++ List.replicate 14 0
    let packet := header ++ ([0, 0, 0, 0] ++ request.drop 4)
    ∃ report,
      procV4 .little (pidOf 70000) false () (packet ++ []) packet.length received.toTimeval =
        some report ∧
      report.line (fun _ => "10.0.0.1".toList) "Success".toList =
        some "64 bytes from 10.0.0.1: seq=1, ttl=64, rtt=Sucs\n".toList ∧
      ¬ ShowsRoundTrip "10.0.0.1".toList 1 64 500000
        "64 bytes from 10.0.0.1: seq=1, ttl=64, rtt=Sucs\n".toList := by
  intro sent received request header packet
  let answer : Answer request :=
    ⟨header, 0, (0, 0), by decide, by decide, by decide, by decide⟩
  obtain ⟨⟨ttl, rtt, line, reported, rfl, total, -, -, printed, rfl, shows⟩, -⟩ :=
    ping_roundTrip_never .little 70000 65537 sent received (List.replicate 1500 0)
      (by rw [List.length_replicate]; decide) answer [] false () (fun _ => "10.0.0.1".toList)
      "Success".toList
  have text : replyFront "10.0.0.1".toList 1 64 ++ ("Success".toList.take 3 ++ "s\n".toList) =
      "64 bytes from 10.0.0.1: seq=1, ttl=64, rtt=Sucs\n".toList := by decide
  rw [← text]
  exact ⟨_, reported, printed, shows⟩

/-- No line of the run shows half a second. -/
theorem not_ping_roundTrip :
    let sent : TimeOfDay := ⟨⟨1000, 800000⟩, by decide, by decide, by decide, by decide⟩
    let received : TimeOfDay := ⟨⟨1001, 300000⟩, by decide, by decide, by decide, by decide⟩
    let request := sendV4 .little (pidOf 70000) 65537 sent.toTimeval (List.replicate 1500 0)
    let header : List Byte := [0x45, 0, 0, 84, 0, 0, 0, 0, 64, 1] ++ List.replicate 10 0
    let packet := header ++ ([0, 0, 0, 0] ++ request.drop 4)
    ¬ ∃ report line,
      procV4 .little (pidOf 70000) false () (packet ++ []) packet.length received.toTimeval =
        some report ∧
      report.line (fun _ => "10.0.0.1".toList) "Success".toList = some line ∧
      ShowsRoundTrip "10.0.0.1".toList 1 64 (received.total - sent.total) line := by
  intro sent received request header packet
  let answer : Answer request :=
    ⟨header, 0, (0, 0), by decide, by decide, by decide, by decide⟩
  have recognised := procV4_answer .little (pidOf 70000) (pidOf_lt 70000) 65537 sent received
    (List.replicate 1500 0) (by rw [List.length_replicate]; decide) answer [] false ()
  have printed : (Report.reply 64 () 1 64 (tvSub received.toTimeval sent.toTimeval)).line
      (fun _ => "10.0.0.1".toList) "Success".toList = some _ :=
    line_reply _ _ _ (by decide) (by decide) _
  rintro ⟨report, line, reported, shown, shows⟩
  obtain rfl := Option.some.inj (reported.symm.trans recognised)
  obtain rfl := Option.some.inj (shown.symm.trans printed)
  exact not_showsRoundTrip _ _ _ _ _ shows

end SocketProgram.Ping
