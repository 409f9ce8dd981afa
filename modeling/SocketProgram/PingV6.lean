/-
This file is about `ping` of an IPv6 address: `send_v6` and `proc_v6` in the place of `send_v4` and
`proc_v4`. There is no IP header in front of what is received, the checksum is left to the kernel,
and the hop limit is taken from the ancillary data that comes with a packet. Apart from that the
two protocols fit together in the same way, and the runs of `ping` are the same.
-/

import SocketProgram.PingLoop

namespace SocketProgram.PingLoop

open Memory Printf Words Runs Ping

variable {Host : Type*} (endian : Endian) (getpid : Nat) (verbose : Bool)

/-! ### The source -/

/-- `ICMP6_ECHO_REQUEST`. -/
def icmp6EchoRequest : Byte := 128

/-- `send_v6`: the request in `sendbuf`. -/
def request6 (pid : Nat) (nsent : Int) (now : Timeval) (sendbuf : List Byte) : List Byte :=
  let icmp6 := overwrite sendbuf 0 [icmp6EchoRequest]
  let icmp6 := overwrite icmp6 1 [0]
  let icmp6 := overwrite icmp6 4 (endian.bytes pid)
  let icmp6 := overwrite icmp6 6 (endian.bytes (nsent % 2 ^ 16).toNat)
  let icmp6 := overwrite icmp6 8 (List.replicate datalen 0xa5)
  overwrite icmp6 8 (now.bytes endian)

/-- `send_v6`: what is handed to `sendto`. -/
def sendV6 (pid : Nat) (nsent : Int) (now : Timeval) (sendbuf : List Byte) : List Byte :=
  (request6 endian pid nsent now sendbuf).take (8 + datalen)

/-- `proto_v6`: `send_v6` and `proc_v6`. What `recvmsg` leaves in `msg` is the sender. -/
def protocolV6 : Protocol (Message Host) (Report6 Host) where
  fsend nsent now sendbuf :=
    (request6 endian (pidOf getpid) nsent now sendbuf,
      sendV6 endian (pidOf getpid) nsent now sendbuf)
  fproc msg recvbuf n tval := procV6 endian (pidOf getpid) verbose msg recvbuf n tval

/-! ### The two procedures -/

/-- What answers a request: an echo reply with any code and checksum, and the identifier, sequence
number and data of the request. -/
def Answers6 (data packet : List Byte) : Prop :=
  ∃ code first second, packet = [icmp6EchoReply, code, first, second] ++ data.drop 4

/-- An echo reply with the identifier of this process, and with the eight bytes of data that
`proc_v6` asks for. -/
structure Carries6 (bytes : List Byte) : Prop where
  enough : 16 ≤ bytes.length
  type : bytes.getD 0 0 = icmp6EchoReply
  id : icmpId endian bytes = pidOf getpid

/-- A report that is one of an answer. -/
def IsReply6 (report : Report6 Host) : Prop :=
  ∃ len host seq hlim rtt, report = .reply len host seq hlim rtt

/-- A packet with a request comes back as an echo reply, and the hop limit with it. -/
def meaningV6 : Meaning (Message Host) (Report6 Host) where
  Answers := Answers6
  Received _ := True
  Carries := Carries6 endian getpid
  Whole bytes := 24 ≤ bytes.length
  seq bytes := icmpSeq endian bytes
  tvsend bytes := Timeval.load endian ((bytes.drop 8).take 16)
  reply msg bytes seq rtt := .reply bytes.length msg.sarecv seq (hlimOf endian msg.control) rtt
  IsReply := IsReply6

theorem sent_protocolV6 (nsent : Int) (now : Timeval) (sendbuf : List Byte) :
    ((protocolV6 endian getpid verbose : Protocol (Message Host) (Report6 Host)).fsend nsent now
      sendbuf).2 = sendV6 endian (pidOf getpid) nsent now sendbuf := rfl

/-- From the identifier on, the requests of the two protocols are the same. -/
theorem sameFrom_request6 (pid : Nat) (nsent : Int) (now : Timeval) {sendbuf : List Byte}
    (room : 4 ≤ sendbuf.length) :
    SameFrom 4 (request6 endian pid nsent now sendbuf) (request endian pid nsent now sendbuf) := by
  have header (type : Byte) :
      SameFrom 4 (overwrite (overwrite sendbuf 0 [type]) 1 [0]) sendbuf :=
    ((SameFrom.refl 4 sendbuf).overwrite (show 0 + 1 ≤ 4 by decide) room).overwrite
      (show 1 + 1 ≤ 4 by decide) room
  have both : SameFrom 4 (overwrite (overwrite sendbuf 0 [icmp6EchoRequest]) 1 [0])
      (overwrite (overwrite sendbuf 0 [icmpEcho]) 1 [0]) :=
    ⟨(header _).length.trans (header _).length.symm, (header _).drop.trans (header _).drop.symm⟩
  exact (((both.overwrite_both (by decide) _).overwrite_both (by decide) _).overwrite_both
    (by decide) _).overwrite_both (by decide) _

/-- The bytes of a request are sent whole. -/
theorem drop_sendV6 (pid : Nat) (nsent : Int) (now : Timeval) {sendbuf : List Byte}
    (room : 8 + datalen ≤ sendbuf.length) :
    (sendV6 endian pid nsent now sendbuf).drop 4 =
      endian.bytes pid ++ (endian.bytes (nsent % 2 ^ 16).toNat ++ (now.bytes endian ++
        List.replicate 40 0xa5)) := by
  have time : (now.bytes endian).length = 16 := Timeval.length_bytes endian now
  have same := sameFrom_request6 endian pid nsent now
    ((show 4 ≤ 8 + datalen by decide).trans room)
  rw [sendV6, List.drop_take, same.drop, drop_request endian pid nsent now sendbuf room]
  simp only [← List.append_assoc]
  refine List.take_left' ?_
  simp only [List.length_append, Endian.length_bytes, List.length_replicate, time]
  rfl

/-- An answer carries the identifier, the number of its request and the time of it. -/
theorem carries_answer6 (number : Nat) (sent : TimeOfDay) {sendbuf packet : List Byte}
    (room : 8 + datalen ≤ sendbuf.length)
    (answers : Answers6 (sendV6 endian (pidOf getpid) number sent.toTimeval sendbuf) packet) :
    packet.length = 64 ∧ Carries6 endian getpid packet ∧
      icmpSeq endian packet = number % 65536 ∧
      Timeval.load endian ((packet.drop 8).take 16) = sent.toTimeval := by
  obtain ⟨code, first, second, rfl⟩ := answers
  obtain ⟨id, id', idBytes, idWord⟩ := exists_bytes endian (pidOf_lt getpid)
  obtain ⟨seq, seq', seqBytes, seqWord⟩ :=
    exists_bytes endian (show ((number : Int) % 2 ^ 16).toNat < 65536 by omega)
  have modulo : ((number : Int) % 2 ^ 16).toNat = number % 65536 := by omega
  have length (rest : List Byte) : ([icmp6EchoReply, code, first, second] ++ ([id, id'] ++
      ([seq, seq'] ++ rest))).length = 8 + rest.length := by
    simp only [List.length_append, List.length_cons, List.length_nil]
    omega
  have time : (sent.toTimeval.bytes endian ++ List.replicate 40 0xa5).take 16 =
      sent.toTimeval.bytes endian := List.take_left' (Timeval.length_bytes endian _)
  rw [drop_sendV6 endian _ _ _ room, idBytes, seqBytes]
  refine ⟨?_, ⟨?_, rfl, idWord⟩, seqWord.trans modulo, ?_⟩
  · rw [length, List.length_append, Timeval.length_bytes, List.length_replicate]
  · rw [length]
    rw [List.length_append, Timeval.length_bytes]
    omega
  · show Timeval.load endian ((sent.toTimeval.bytes endian ++ _).take 16) = _
    rw [time, load_bytes]

/-- What stands behind a packet in the buffer is not looked at for its type, its identifier and its
number, and where the packet has the whole of a time not for that. -/
theorem procV6_append {bytes : List Byte} (enough : 16 ≤ bytes.length) (rest : List Byte) :
    (bytes ++ rest).getD 0 0 = bytes.getD 0 0 ∧
      icmpId endian (bytes ++ rest) = icmpId endian bytes ∧
      icmpSeq endian (bytes ++ rest) = icmpSeq endian bytes ∧
      (24 ≤ bytes.length → ((bytes ++ rest).drop 8).take 16 = (bytes.drop 8).take 16) := by
  have inIcmp (i : Nat) (inside : i < 16) : (bytes ++ rest).getD i 0 = bytes.getD i 0 :=
    List.getD_append _ _ _ _ (inside.trans_le enough)
  refine ⟨inIcmp 0 (by decide), ?_, ?_, fun whole => ?_⟩
  · rw [icmpId, icmpId, inIcmp 4 (by decide), inIcmp 5 (by decide)]
  · rw [icmpSeq, icmpSeq, inIcmp 6 (by decide), inIcmp 7 (by decide)]
  · rw [List.drop_append_of_le_length (by omega), List.take_append_of_le_length]
    rw [List.length_drop]
    omega

/-- What carries the identifier is reported. -/
theorem procV6_carried {bytes : List Byte} (carries : Carries6 endian getpid bytes)
    (rest : List Byte) (msg : Message Host) (tvrecv : Timeval) :
    ∃ rtt, procV6 endian (pidOf getpid) verbose msg (bytes ++ rest) bytes.length tvrecv =
        some (.reply bytes.length msg.sarecv (icmpSeq endian bytes) (hlimOf endian msg.control)
          rtt) ∧
      (24 ≤ bytes.length →
        rtt = tvSub tvrecv (Timeval.load endian ((bytes.drop 8).take 16))) := by
  have enough := carries.enough
  obtain ⟨type, id, seq, time⟩ := procV6_append endian enough rest
  refine ⟨tvSub tvrecv (Timeval.load endian (((bytes ++ rest).drop 8).take 16)), ?_,
    fun whole => by rw [time whole]⟩
  unfold procV6
  dsimp only
  rw [type, id, seq, carries.type, carries.id, if_neg (by omega), if_pos rfl,
    if_neg (not_not.mpr rfl), if_neg (by omega)]

/-- What is shorter than an ICMP header is ignored, and so is a failed `recvmsg`. -/
theorem procV6_of_lt (pid : Nat) (msg : Message Host) (ptr : List Byte) (tvrecv : Timeval)
    {len : Int} (short : len < 8) : procV6 endian pid verbose msg ptr len tvrecv = none := by
  unfold procV6
  exact if_pos short

/-- Nothing else is reported as an answer, whatever stands behind it. -/
theorem procV6_other {bytes : List Byte} (rest : List Byte) (msg : Message Host)
    (tvrecv : Timeval) {report : Report6 Host}
    (printed : procV6 endian (pidOf getpid) verbose msg (bytes ++ rest) bytes.length tvrecv =
      some report) (reply : IsReply6 report) : Carries6 endian getpid bytes := by
  obtain ⟨len, host, seq, hlim, rtt, rfl⟩ := reply
  simp only [procV6] at printed
  split_ifs at printed with short type id cut verb
  · have enough : 16 ≤ bytes.length := by omega
    obtain ⟨type', id', -⟩ := procV6_append endian enough rest
    rw [type'] at type
    rw [id'] at id
    exact ⟨enough, type, not_not.mp id⟩
  · cases printed

/-! ### The line -/

/-- The line of `proc_v6` for the answer to a request. -/
def replyLine6 (host : List Char) (seq : Nat) (hlim total : Int) : List Char :=
  decimal 64 ++ (" bytes from ".toList ++ (host ++ (": seq=".toList ++ (decimal seq ++
    (", hlim=".toList ++ ((if hlim = -1 then "???".toList else decimal hlim) ++
      (",rtt=".toList ++ (milliseconds total ++ " ms\n".toList))))))))

/-- The errors of six roundings stay below half a microsecond for thirty years. -/
theorem rttOf_near {rtt : Timeval} (sec : 0 ≤ rtt.tvSec) (usec : 0 ≤ rtt.tvUsec)
    (small : rtt.total < 10 ^ 15) :
    0 ≤ rttOf rtt ∧ |rttOf rtt * 10 ^ 3 - rtt.total| < 1 / 2 := by
  have sec' : (0 : ℚ) ≤ rtt.tvSec := by exact_mod_cast sec
  have usec' : (0 : ℚ) ≤ rtt.tvUsec := by exact_mod_cast usec
  have total : ((rtt.total : Int) : ℚ) = rtt.tvSec * 1000000 + rtt.tvUsec := by
    rw [Timeval.total]
    push_cast
    rfl
  have small' : (rtt.tvSec : ℚ) * 1000000 + rtt.tvUsec < 10 ^ 15 := by
    rw [← total]
    exact_mod_cast small
  have bounds {x : ℚ} (nonneg : 0 ≤ x) : 0 ≤ double x ∧
      x * (1 - 1 / 2 ^ 53) ≤ double x ∧ double x ≤ x * (1 + 1 / 2 ^ 53) := by
    obtain ⟨low, high⟩ := double_bounds nonneg
    exact ⟨by linarith, low, high⟩
  obtain ⟨sec0, secLow, secHigh⟩ := bounds sec'
  obtain ⟨usec0, usecLow, usecHigh⟩ := bounds usec'
  obtain ⟨first0, firstLow, firstHigh⟩ := bounds (x := double rtt.tvSec * 1000) (by linarith)
  obtain ⟨second0, secondLow, secondHigh⟩ := bounds (x := double rtt.tvUsec / 1000) (by linarith)
  obtain ⟨sum0, sumLow, sumHigh⟩ := bounds (add_nonneg first0 second0)
  refine ⟨sum0, ?_⟩
  rw [total, rttOf, abs_lt]
  constructor <;> linarith

/-- The line for the answer to a request shows the time exactly. -/
theorem line_reply6 (ntop : Host → List Char) (message : List Char) (host : Host) {seq : Nat}
    (seq16 : seq < 65536) {hlim : Int} (int : hlim.bmod (2 ^ 32) = hlim) {rtt : Timeval}
    (sec : 0 ≤ rtt.tvSec) (usec : 0 ≤ rtt.tvUsec) (small : rtt.total < 10 ^ 15) :
    (Report6.reply 64 host seq hlim rtt).line ntop message =
      some (replyLine6 (ntop host) seq hlim rtt.total) := by
  have length : (64 : Int).bmod (2 ^ 32) = 64 := by decide
  have seq32 : (seq : Int) % 2 ^ 32 = seq := Int.emod_eq_of_lt (by omega) (by omega)
  have front : printf message (format "%d bytes from %s: seq=%u, hlim=".toList)
      [.int 64, .string (ntop host), .int seq] = some (decimal 64 ++ (" bytes from ".toList ++
        (ntop host ++ (": seq=".toList ++ (decimal seq ++ ", hlim=".toList))))) := by
    show printf message (.signed :: (literal " bytes from " ++ .string :: (literal ": seq=" ++
      .unsigned :: literal ", hlim="))) _ = _
    simp only [printf_signed, printf_unsigned, printf_string, printf_literal, printf_literal_end,
      Option.map_some, length, seq32]
  have hops : (if hlim = -1 then printf message (format "???".toList) []
      else printf message (format "%d".toList) [.int hlim]) =
        some (if hlim = -1 then "???".toList else decimal hlim) := by
    split_ifs
    · rfl
    · show printf message [.signed] _ = _
      simp only [printf_signed, printf_nil, Option.map_some, int, List.append_nil]
  have total : 0 ≤ rtt.total := by
    rw [Timeval.total]
    omega
  have back : printf message (format ",rtt=%.3f ms\n".toList) [.double (rttOf rtt)] =
      some (",rtt=".toList ++ (milliseconds rtt.total ++ " ms\n".toList)) := by
    obtain ⟨nonneg, near⟩ := rttOf_near sec usec small
    have units : ((rtt.total.natAbs : Nat) : ℚ) = rtt.total := by
      rw [← Int.cast_natCast, Int.natAbs_of_nonneg total]
    have shown : fixed 3 (rttOf rtt) = milliseconds rtt.total := by
      rw [milliseconds, if_neg total.not_gt]
      exact fixed_eq_point nonneg (units.symm ▸ near)
    show printf message (literal ",rtt=" ++ .fixed 3 :: literal " ms\n") _ = _
    simp only [printf_fixed, printf_literal, printf_literal_end, Option.map_some, shown]
  rw [Report6.line, front, hops, back]
  simp only [Option.bind_eq_bind, Option.bind_some, replyLine6, List.append_assoc]

theorem bmod_hlimOf (control : List Cmsghdr) :
    (hlimOf endian control).bmod (2 ^ 32) = hlimOf endian control := by
  unfold hlimOf
  split
  · exact Int.bmod_bmod
  · decide

/-! ### The run -/

theorem length_request6 (pid : Nat) (nsent : Int) (now : Timeval) {sendbuf : List Byte}
    (room : sendbuf.length = bufsize) :
    (request6 endian pid nsent now sendbuf).length = bufsize := by
  have four : 4 ≤ sendbuf.length := by
    rw [room]
    decide
  exact (sameFrom_request6 endian pid nsent now four).length.trans
    (length_request endian pid nsent now room)

theorem lawful_v6 :
    Lawful (protocolV6 endian getpid verbose : Protocol (Message Host) (Report6 Host))
      (meaningV6 endian getpid) where
  sendbuf nsent now sendbuf room := length_request6 endian (pidOf getpid) nsent now room
  answered number sent sendbuf packet room answers := by
    rw [sent_protocolV6] at answers
    obtain ⟨length, carries, seq, tvsend⟩ :=
      carries_answer6 endian getpid number sent (enough_of_bufsize room) answers
    have fits : packet.length ≤ bufsize := by
      rw [length]
      decide
    have whole : 24 ≤ packet.length := by omega
    exact ⟨fits, trivial, carries, whole, seq, tvsend⟩
  carried packet msg rest tvrecv _ carries :=
    procV6_carried endian getpid verbose carries rest msg tvrecv
  other packet msg rest tvrecv report _ printed reply :=
    procV6_other endian getpid verbose rest msg tvrecv printed reply
  failed msg recvbuf tvrecv :=
    procV6_of_lt endian verbose (pidOf getpid) msg recvbuf tvrecv
      (show (-1 : Int) < 8 by decide)

/-- `ping` of an IPv6 address. -/
def ping6 : Process (State (Message Host)) (Event (Message Host) (Report6 Host)) :=
  pinger (protocolV6 endian getpid verbose) (meaningV6 endian getpid)

/-- `ping` of an IPv6 address as it runs, whatever the network loses, repeats, reorders, forges or
adds and wherever the signal comes: what arrives is handed to `proc_v6` once and in order. The line
for the answer to a request has the number of the request, the hop limit that came with the packet
and the time since that request was sent, to the microsecond. For any other packet a line about an
answer is printed just where it carries the identifier of the process, and with what stands in the
packet. Every request sent is the one of its number. -/
theorem ping6_reports (endian : Endian) (getpid : Nat) (verbose : Bool)
    {history : List (Event (Message Host) (Report6 Host))} {state : State (Message Host)}
    (run : Run (ping6 endian getpid verbose).system history state) :
    arrived history = processed history ++ (state.pc.inHand ++ state.queue) ∧
      (∀ before received tval printed after,
        history = before ++ .fproc received tval printed :: after →
          (∀ packet number, received = some packet → packet.answers = some number →
            ∃ time data rtt, (sent before)[number]? = some (time, data) ∧
              printed = some (.reply 64 packet.host.sarecv (number % 65536)
                (hlimOf endian packet.host.control) rtt) ∧
              rtt.total = tval.total - time.total ∧ time.total ≤ tval.total ∧
              ∀ (ntop : Host → List Char) (message : List Char),
                tval.total - time.total < 10 ^ 15 →
                  (Report6.reply 64 packet.host.sarecv (number % 65536)
                      (hlimOf endian packet.host.control) rtt).line ntop message =
                    some (replyLine6 (ntop packet.host.sarecv) (number % 65536)
                      (hlimOf endian packet.host.control) (tval.total - time.total))) ∧
          (∀ packet, received = some packet → Carries6 endian getpid packet.received →
            ∃ rtt, printed = some (.reply packet.received.length packet.host.sarecv
                (icmpSeq endian packet.received) (hlimOf endian packet.host.control) rtt) ∧
              (24 ≤ packet.received.length →
                rtt = tvSub tval.toTimeval
                  (Timeval.load endian ((packet.received.drop 8).take 16)))) ∧
          (∀ report, printed = some report → IsReply6 report →
            ∃ packet, received = some packet ∧ Carries6 endian getpid packet.received)) ∧
      ∀ (number : Nat) (time : TimeOfDay) (data : List Byte),
        (sent history)[number]? = some (time, data) → ∃ sendbuf : List Byte,
          sendbuf.length = bufsize ∧
            data = sendV6 endian (pidOf getpid) number time.toTimeval sendbuf := by
  obtain ⟨order, reports, requests⟩ := pinger_reports (lawful_v6 endian getpid verbose) run
  refine ⟨order, fun before received tval printed after split => ?_, requests⟩
  obtain ⟨answer, others⟩ := reports before received tval printed after split
  refine ⟨fun packet number isPacket answers => ?_, others⟩
  obtain ⟨time, data, here, answers', report, later⟩ := answer packet number isPacket answers
  have here' : (sent history)[number]? = some (time, data) := by
    rw [split, sent_append, List.getElem?_append_left (List.getElem?_eq_some_iff.mp here).1]
    exact here
  obtain ⟨sendbuf, room, rfl⟩ := requests number time data here'
  obtain ⟨length, -⟩ :=
    carries_answer6 endian getpid number time (enough_of_bufsize room) answers'
  have printed64 : printed = some (.reply packet.bytes.length packet.host.sarecv (number % 65536)
      (hlimOf endian packet.host.control) (tvSub tval.toTimeval time.toTimeval)) := report
  rw [length] at printed64
  obtain ⟨total, usec_nonneg, usec_lt⟩ := tvSub_total tval time
  refine ⟨time, _, _, here, printed64, total, later, fun ntop message small => ?_⟩
  rw [← total] at small ⊢
  have sec : 0 ≤ (tvSub tval.toTimeval time.toTimeval).tvSec := by
    rw [Timeval.total] at total
    omega
  exact line_reply6 ntop message _ (Nat.mod_lt _ (by decide)) (bmod_hlimOf endian _) sec
    usec_nonneg small

/-- A request, another half a second later, and then a forged answer to an eighth and the answer to
the first, with a hop limit of 64. -/
theorem ping6_reports_example :
    ∃ (before : List (Event (Message Unit) (Report6 Unit))) (forged packet : Packet (Message Unit))
      (tval : TimeOfDay) (printed printed' : Option (Report6 Unit)) (state : State (Message Unit)),
      Run (ping6 .little 70000 false).system
        (before ++ [.fproc (some forged) tval printed] ++ [.fproc (some packet) tval printed'])
        state ∧
      (sent before).length = 2 ∧ forged.answers = none ∧
      (∃ rtt, printed = some (.reply 24 () 7 (-1) rtt)) ∧ packet.answers = some 0 ∧
      ∃ report, printed' = some report ∧
        report.line (fun _ => "::1".toList) "Success".toList =
          some "64 bytes from ::1: seq=0, hlim=64,rtt=500.000 ms\n".toList := by
  let first : TimeOfDay := ⟨⟨1000, 800000⟩, by decide, by decide, by decide, by decide⟩
  let second : TimeOfDay := ⟨⟨1001, 300000⟩, by decide, by decide, by decide, by decide⟩
  let forged : List Byte :=
    [icmp6EchoReply, 0, 0, 0, 0x70, 0x11, 7, 0] ++ List.replicate 16 0
  let nothing : Message Unit := ⟨(), []⟩
  let msg : Message Unit := ⟨(), [⟨ipprotoIpv6, ipv6Hoplimit, [64, 0, 0, 0]⟩]⟩
  let initial : State (Message Unit) :=
    { pc := .start, nsent := 0, sendbuf := List.replicate bufsize 0, recvbuf := [], n := 0
      sarecv := nothing, tval := first, armed := false, clock := first, wire := [], queue := [] }
  have begins : Run (ping6 .little 70000 false).system [] initial :=
    .start ⟨rfl, rfl, rfl, List.length_replicate, rfl, rfl, rfl⟩
  have start := Run.step begins (.instruction ⟨none, rfl⟩)
  have passes := Run.silent start (.outside (.passes _ second (by decide)))
  have sigalrm := Run.step passes (.delivery (.sigalrm rfl))
  have other := Run.step sigalrm (.outside (.other _ nothing forged trivial))
  have answers (data : List Byte) : Answers6 data ([icmp6EchoReply, 0, 0, 0] ++ data.drop 4) :=
    ⟨0, 0, 0, rfl⟩
  have answered := Run.step other
    (.outside (@Happens.answered _ _ _ _ 0 _ _ _ rfl msg (answers _)))
  have recvmsg := Run.silent answered (.instruction ⟨none, rfl⟩)
  have gettimeofday := Run.silent recvmsg (.instruction ⟨none, rfl⟩)
  have fproc := Run.step gettimeofday (.instruction ⟨none, rfl⟩)
  have recvmsg' := Run.silent fproc (.instruction ⟨none, rfl⟩)
  have gettimeofday' := Run.silent recvmsg' (.instruction ⟨none, rfl⟩)
  have fproc' := Run.step gettimeofday' (.instruction ⟨none, rfl⟩)
  obtain ⟨-, reports, -⟩ := ping6_reports .little 70000 false fproc
  obtain ⟨-, reports', -⟩ := ping6_reports .little 70000 false fproc'
  have carries : Carries6 .little 70000 forged := ⟨by decide, by decide, by decide⟩
  have whole : Packet.received ⟨nothing, none, forged⟩ = forged := by decide
  have seq : icmpSeq .little forged = 7 := by decide
  rw [← whole] at carries
  obtain ⟨rtt, printed, -⟩ := (reports _ _ _ _ [] rfl).2.1 _ rfl carries
  obtain ⟨time, data, rtt', here, printed', -, -, line⟩ :=
    (reports' _ _ _ _ [] rfl).1 _ 0 rfl rfl
  have text : replyLine6 "::1".toList (0 % 65536) (hlimOf .little msg.control)
      (second.total - first.total) =
        "64 bytes from ::1: seq=0, hlim=64,rtt=500.000 ms\n".toList := by decide
  refine ⟨_, _, _, _, _, _, _, fproc', rfl, rfl, ⟨rtt, printed.trans ?_⟩, rfl, _, printed', ?_⟩
  · rw [whole, seq]
    rfl
  · obtain ⟨rfl, -⟩ := Prod.mk.inj (Option.some.inj here)
    rw [← text]
    exact line _ _ (by decide)

end SocketProgram.PingLoop
