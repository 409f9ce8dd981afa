/-
This file is about what `recv_v6` of `traceroute` waits for. Like its IPv4 twin it is to return
for the error message that quotes its probe and to go on waiting at every other packet. But a
time exceeded in transit ends its loop whether or not it quotes the probe: the `break` stands
behind the test and not inside it, and what is returned then has never been assigned. A trace of
somebody else is enough.

Until such a message comes, the function keeps the law of `recv_v4`.
-/

import SocketProgram.TracerouteAlarm

namespace SocketProgram.Traceroute

open Words

/-! ### What a wait is for -/

/-- What an error message is to `traceloop`, by its type and code and by the numbers of its protocol
for a time exceeded and an unreachable port. -/
def classify (timeExceeded noPort type code : Byte) : Int :=
  if type = timeExceeded then -2 else if code = noPort then -1 else code.toNat

/-- The numbers of ICMP. -/
theorem answerCode_eq_classify (packet : List Byte) :
    answerCode packet = classify icmpTimxceed icmpUnreachPort ((icmpOf packet).getD 0 0)
      ((icmpOf packet).getD 1 0) := rfl

/-- The law of a function that waits for a pass that ends the wait: it goes on at every other, and
returns for the first that does what this one makes of it. -/
def Waits (Ends : Pass → Int → Prop) (passes : List Pass)
    (result : Option (Option (Int × List Pass))) : Prop :=
  ((∀ pass ∈ passes, ∀ ret, ¬ Ends pass ret) ∧ result = some none) ∨
    ∃ skipped last rest ret, passes = skipped ++ last :: rest ∧
      (∀ pass ∈ skipped, ∀ ret, ¬ Ends pass ret) ∧ Ends last ret ∧
      result = some (some (ret, rest))

/-- `recv_v4` keeps the law. -/
theorem recvV4_waits (endian : Endian) (verbose : Bool) {sport dport : Nat} {seq : Int}
    {passes : List Pass} (delivered : ∀ pass ∈ passes, pass.Delivered) :
    Waits (Ends sport dport seq) passes (recvV4 endian verbose sport dport seq passes) :=
  recvV4_spec endian verbose delivered

/-- A pass that does not end the wait changes nothing about it. -/
theorem waits_cons {Ends : Pass → Int → Prop} {pass : Pass} {passes : List Pass}
    {result : Option (Option (Int × List Pass))} (goesOn : ∀ ret, ¬ Ends pass ret) :
    Waits Ends (pass :: passes) result ↔ Waits Ends passes result := by
  constructor
  · rintro (⟨none, waits⟩ | ⟨skipped, last, rest, ret, split, before, ends, returns⟩)
    · exact .inl ⟨fun other member => none other (List.mem_cons_of_mem _ member), waits⟩
    · cases skipped with
      | nil =>
        obtain ⟨rfl, -⟩ := List.cons.inj split
        exact absurd ends (goesOn ret)
      | cons first skipped =>
        obtain ⟨-, split⟩ := List.cons.inj split
        exact .inr ⟨skipped, last, rest, ret, split,
          fun other member => before other (List.mem_cons_of_mem _ member), ends, returns⟩
  · rintro (⟨none, waits⟩ | ⟨skipped, last, rest, ret, split, before, ends, returns⟩)
    · exact .inl ⟨List.forall_mem_cons.mpr ⟨goesOn, none⟩, waits⟩
    · exact .inr ⟨pass :: skipped, last, rest, ret, congrArg (pass :: ·) split,
        List.forall_mem_cons.mpr ⟨goesOn, before⟩, ends, returns⟩

/-- A pass that does not end the wait, and at which a function returns, breaks the law. -/
theorem not_waits_of_returns {Ends : Pass → Int → Prop} {pass : Pass} {passes : List Pass}
    {ret : Int} (goesOn : ∀ ret, ¬ Ends pass ret) :
    ¬ Waits Ends (pass :: passes) (some (some (ret, passes))) := by
  rintro (⟨-, waits⟩ | ⟨skipped, last, rest, ret', split, before, ends, returns⟩)
  · cases waits
  · cases returns
    cases skipped with
    | nil =>
      obtain ⟨rfl, -⟩ := List.cons.inj split
      exact goesOn ret ends
    | cons first skipped =>
      have lengths := congrArg List.length split
      rw [List.length_append, List.length_cons, List.length_cons, List.length_cons] at lengths
      omega

/-! ### `recv_v6` -/

section ReceiveV6

variable (endian : Endian) (verbose : Bool) (sport dport : Nat) (seq ret : Int)

/-- One pass of the loop of `recv_v6`. -/
def passV6 : Pass → Option Verdict
  | .gotalarm => some (.returns (-3))
  | .recvfrom received => turnV6 endian verbose sport dport seq ret received

/-- `recv_v6`: what it returns and the passes it has left, where `ret` is what the variable holds in
the beginning. `some none` when it still waits, and `none` when it has looked at a byte it has
not received. -/
def recvV6 : List Pass → Option (Option (Int × List Pass))
  | [] => some none
  | pass :: passes => do
    match ← passV6 endian verbose sport dport seq ret pass with
    | .again _ => recvV6 passes
    | .returns ret => some (some (ret, passes))

end ReceiveV6

/-- Time exceeded in transit. -/
def IsTransitV6 (packet : List Byte) : Prop :=
  packet.getD 0 0 = icmp6TimeExceeded ∧ packet.getD 1 0 = icmp6TimeExceedTransit

/-- A packet quotes a datagram with these ports: the quoted IPv6 header and the first four bytes
behind it are there, and they are UDP and the two ports. -/
structure QuotesV6 (source destination : Nat) (packet : List Byte) : Prop where
  ports : 8 + sizeofIp6 + 4 ≤ packet.length
  protocol : packet.getD (8 + 6) 0 = ipprotoUdp
  source : Endian.big.word (packet.getD (8 + sizeofIp6) 0) (packet.getD (8 + sizeofIp6 + 1) 0) =
    source
  destination : Endian.big.word (packet.getD (8 + sizeofIp6 + 2) 0)
    (packet.getD (8 + sizeofIp6 + 2 + 1) 0) = destination

/-- A packet is an answer to this probe. -/
def AnswersV6 (sport dport : Nat) (seq : Int) (packet : List Byte) : Prop :=
  (IsTransitV6 packet ∨ packet.getD 0 0 = icmp6DstUnreach) ∧
    QuotesV6 (sport % 65536) (probePort dport seq) packet

/-- What is to be returned for an answer: as for IPv4, with the numbers of ICMPv6. -/
def answerCodeV6 (packet : List Byte) : Int :=
  classify icmp6TimeExceeded icmp6DstUnreachNoport (packet.getD 0 0) (packet.getD 1 0)

/-- A time exceeded in transit that is long enough to quote the probe and does not. -/
def ForeignV6 (sport dport : Nat) (seq : Int) (packet : List Byte) : Prop :=
  IsTransitV6 packet ∧ 8 + sizeofIp6 + 4 ≤ packet.length ∧
    ¬ QuotesV6 (sport % 65536) (probePort dport seq) packet

/-- A pass ends the wait: the alarm has gone off, or a packet is an answer. -/
inductive EndsV6 (sport dport : Nat) (seq : Int) : Pass → Int → Prop
  | gotalarm : EndsV6 sport dport seq .gotalarm (-3)
  | answer {packet : List Byte} (answers : AnswersV6 sport dport seq packet) :
      EndsV6 sport dport seq (.recvfrom (.packet packet)) (answerCodeV6 packet)

section ReceiveV6

variable (endian : Endian) (verbose : Bool) {sport dport : Nat} {seq : Int} (ret : Int)

/-- Both branches find out whether the datagram quoted is the probe. -/
theorem quotesProbeV6_spec {packet : List Byte} (whole : 8 + sizeofIp6 + 4 ≤ packet.length) :
    ∃ probe, quotesProbeV6 endian sport dport seq packet = some probe ∧
      (probe = true ↔ QuotesV6 (sport % 65536) (probePort dport seq) packet) := by
  have small : probePort dport seq % 65536 = probePort dport seq := by
    unfold probePort
    omega
  have protocol : byteAt packet (8 + 6) = some (packet.getD (8 + 6) 0) :=
    byteAt_of_lt (by unfold sizeofIp6 at whole; omega)
  rw [quotesProbeV6, protocol, shortAt_of_lt endian (show 8 + sizeofIp6 + 1 < _ by omega),
    shortAt_of_lt endian (show 8 + sizeofIp6 + 2 + 1 < _ by omega)]
  simp only [Option.bind_eq_bind, Option.bind_some, Endian.word_eq_htons_iff, small]
  split_ifs with isUdp isSource
  · refine ⟨_, rfl, decide_eq_true_iff.trans ⟨?_, ?_⟩⟩
    · exact fun isDestination => ⟨whole, isUdp, isSource, isDestination⟩
    · exact fun quotes => quotes.destination
  · exact ⟨_, rfl, iff_of_false Bool.false_ne_true fun quotes => isSource quotes.source⟩
  · exact ⟨_, rfl, iff_of_false Bool.false_ne_true fun quotes => isUdp quotes.protocol⟩

/-- What a packet does to the loop: an answer ends it with what it should, a foreign time exceeded
with what the variable happens to hold, and no other packet ends it. -/
theorem examineV6_cases (packet : List Byte) :
    (AnswersV6 sport dport seq packet ∧
        examineV6 endian verbose sport dport seq ret packet =
          some (.returns (answerCodeV6 packet))) ∨
      (ForeignV6 sport dport seq packet ∧
        examineV6 endian verbose sport dport seq ret packet = some (.returns ret)) ∨
      (¬ AnswersV6 sport dport seq packet ∧ ¬ ForeignV6 sport dport seq packet ∧
        ∃ printed, examineV6 endian verbose sport dport seq ret packet =
          some (.again printed)) := by
  by_cases enough : packet.length < 8
  · refine .inr (.inr ⟨fun answers => ?_, fun foreign => ?_, none, if_pos enough⟩)
    · have ports := answers.2.ports
      omega
    · have ports := foreign.2.1
      omega
  rw [examineV6, if_neg enough, byteAt_of_lt (show 0 < packet.length by omega),
    byteAt_of_lt (show 1 < packet.length by omega)]
  simp only [Option.bind_eq_bind, Option.bind_some]
  by_cases transit : IsTransitV6 packet
  · rw [if_pos (show packet.getD 0 0 = icmp6TimeExceeded ∧ _ from transit)]
    by_cases short : packet.length < 8 + sizeofIp6 + 4
    · rw [if_pos short]
      exact .inr (.inr ⟨fun answers => Nat.not_lt.mpr answers.2.ports short,
        fun foreign => Nat.not_lt.mpr foreign.2.1 short, none, rfl⟩)
    obtain ⟨probe, quoted, isProbe⟩ :=
      @quotesProbeV6_spec endian sport dport seq packet (Nat.not_lt.mp short)
    rw [if_neg short, quoted]
    cases probe with
    | true =>
      refine .inl ⟨⟨.inl transit, isProbe.mp rfl⟩, ?_⟩
      rw [answerCodeV6, classify, if_pos transit.1]
      rfl
    | false =>
      have other := mt isProbe.mpr Bool.false_ne_true
      exact .inr (.inl ⟨⟨transit, Nat.not_lt.mp short, other⟩, rfl⟩)
  · have notForeign : ¬ ForeignV6 sport dport seq packet := fun foreign => transit foreign.1
    rw [if_neg (show ¬ (packet.getD 0 0 = icmp6TimeExceeded ∧ _) from transit)]
    by_cases unreach : packet.getD 0 0 = icmp6DstUnreach
    · rw [if_pos unreach]
      by_cases short : packet.length < 8 + sizeofIp6 + 4
      · rw [if_pos short]
        exact .inr (.inr ⟨fun answers => Nat.not_lt.mpr answers.2.ports short, notForeign, none,
          rfl⟩)
      obtain ⟨probe, quoted, isProbe⟩ :=
        @quotesProbeV6_spec endian sport dport seq packet (Nat.not_lt.mp short)
      rw [if_neg short, quoted]
      cases probe with
      | true =>
        have notExceeded : packet.getD 0 0 ≠ icmp6TimeExceeded := by
          rw [unreach]
          decide
        refine .inl ⟨⟨.inr unreach, isProbe.mp rfl⟩, ?_⟩
        rw [answerCodeV6, classify, if_neg notExceeded]
        rfl
      | false =>
        have other := mt isProbe.mpr Bool.false_ne_true
        exact .inr (.inr ⟨fun answers => other answers.2, notForeign, none, rfl⟩)
    · rw [if_neg unreach]
      refine .inr (.inr ⟨?_, notForeign, _, rfl⟩)
      rintro ⟨isTransit | isUnreach, -⟩
      · exact transit isTransit
      · exact unreach isUnreach

/-- `recv_v6` looks at no byte that it has not received. -/
theorem examineV6_isSome (packet : List Byte) :
    (examineV6 endian verbose sport dport seq ret packet).isSome = true := by
  rcases examineV6_cases endian verbose ret packet with ⟨-, returns⟩ | ⟨-, returns⟩ |
    ⟨-, -, printed, again⟩
  · exact returns ▸ rfl
  · exact returns ▸ rfl
  · exact again ▸ rfl

/-- What a pass does to the loop. -/
theorem passV6_cases (pass : Pass) :
    (∃ code, EndsV6 sport dport seq pass code ∧
        passV6 endian verbose sport dport seq ret pass = some (.returns code)) ∨
      (∃ packet, pass = .recvfrom (.packet packet) ∧ ForeignV6 sport dport seq packet ∧
        passV6 endian verbose sport dport seq ret pass = some (.returns ret)) ∨
      ((∀ code, ¬ EndsV6 sport dport seq pass code) ∧
        (∀ packet, pass = .recvfrom (.packet packet) → ¬ ForeignV6 sport dport seq packet) ∧
        ∃ printed, passV6 endian verbose sport dport seq ret pass = some (.again printed)) := by
  cases pass with
  | gotalarm => exact .inl ⟨-3, .gotalarm, rfl⟩
  | recvfrom received =>
    cases received with
    | error errno =>
      refine .inr (.inr ⟨nofun, nofun, ?_⟩)
      rw [passV6, turnV6]
      split_ifs
      · exact ⟨_, rfl⟩
      · exact ⟨_, rfl⟩
    | packet packet =>
      rcases examineV6_cases endian verbose ret packet with ⟨answers, returns⟩ |
        ⟨foreign, returns⟩ | ⟨notAnswers, notForeign, printed, again⟩
      · exact .inl ⟨_, .answer answers, returns⟩
      · exact .inr (.inl ⟨packet, rfl, foreign, returns⟩)
      · refine .inr (.inr ⟨?_, ?_, printed, again⟩)
        · rintro code ⟨⟩
          rename_i answers
          exact notAnswers answers
        · rintro packet' ⟨⟩
          exact notForeign

/-- A foreign time exceeded is not an answer. -/
theorem not_ends_foreign {packet : List Byte} (foreign : ForeignV6 sport dport seq packet)
    (code : Int) : ¬ EndsV6 sport dport seq (.recvfrom (.packet packet)) code := by
  rintro ⟨⟩
  rename_i answers
  exact foreign.2.2 answers.2

/-- No foreign time exceeded comes before the wait has ended. -/
def NoForeign (sport dport : Nat) (seq : Int) (passes : List Pass) : Prop :=
  ∀ before packet after, passes = before ++ .recvfrom (.packet packet) :: after →
    (∀ pass ∈ before, ∀ code, ¬ EndsV6 sport dport seq pass code) →
      ¬ ForeignV6 sport dport seq packet

/-- A pass that neither ends the wait nor is foreign changes nothing about that. -/
theorem noForeign_cons {pass : Pass} {passes : List Pass}
    (goesOn : ∀ code, ¬ EndsV6 sport dport seq pass code)
    (notForeign : ∀ packet, pass = .recvfrom (.packet packet) →
      ¬ ForeignV6 sport dport seq packet) :
    NoForeign sport dport seq (pass :: passes) ↔ NoForeign sport dport seq passes := by
  constructor
  · intro none before packet after split earlier
    exact none (pass :: before) packet after (congrArg (pass :: ·) split)
      (List.forall_mem_cons.mpr ⟨goesOn, earlier⟩)
  · intro none before packet after split earlier
    cases before with
    | nil => exact notForeign packet (List.cons.inj split).1
    | cons first before =>
      exact none before packet after (List.cons.inj split).2
        fun other member => earlier other (List.mem_cons_of_mem _ member)

end ReceiveV6

/-- Whatever packets and alarms come, `recv_v6` keeps the law of `recv_v4`, and so returns nothing
that has not been assigned, exactly when no foreign time exceeded in transit comes before the wait
has ended. -/
theorem recvV6_waits_iff (endian : Endian) (verbose : Bool) (sport dport : Nat) (seq ret : Int)
    (passes : List Pass) :
    Waits (EndsV6 sport dport seq) passes (recvV6 endian verbose sport dport seq ret passes) ↔
      NoForeign sport dport seq passes := by
  induction passes with
  | nil =>
    refine iff_of_true (.inl ⟨fun pass member => absurd member List.not_mem_nil, rfl⟩) ?_
    intro before packet after split
    exact absurd split.symm (List.append_ne_nil_of_right_ne_nil _ (List.cons_ne_nil _ _))
  | cons pass passes inductionHypothesis =>
    rcases passV6_cases endian verbose ret pass with ⟨code, ends, returns⟩ |
      ⟨packet, rfl, foreign, returns⟩ | ⟨goesOn, notForeign, printed, again⟩
    · refine iff_of_true (.inr ⟨[], pass, passes, code, rfl, ?_, ends, ?_⟩) ?_
      · exact fun other member => absurd member List.not_mem_nil
      · rw [recvV6, returns]
        rfl
      · intro before packet after split earlier
        cases before with
        | nil =>
          obtain ⟨rfl, -⟩ := List.cons.inj split
          exact fun foreign => not_ends_foreign foreign code ends
        | cons first before =>
          obtain ⟨rfl, -⟩ := List.cons.inj split
          exact absurd ends (earlier pass List.mem_cons_self code)
    · refine iff_of_false ?_ ?_
      · rw [recvV6, returns]
        exact not_waits_of_returns (not_ends_foreign foreign)
      · intro none
        exact none [] packet passes rfl (fun other member => absurd member List.not_mem_nil)
          foreign
    · rw [waits_cons goesOn, noForeign_cons goesOn notForeign, ← inductionHypothesis, recvV6,
        again]
      rfl

/-- A time exceeded in transit about the datagram from port 32769 to this port. -/
def timeExceededV6 (port : Nat) : List Byte :=
  [3, 0] ++ List.replicate 6 0 ++ [0x60] ++ List.replicate 5 0 ++ [17] ++ List.replicate 33 0 ++
    Endian.big.bytes 32769 ++ Endian.big.bytes port

/-- Waiting for the answer to its first probe, `recv_v6` returns at a time exceeded about a datagram
to another port, and returns whatever its variable held. -/
theorem not_recvV6_waits :
    ¬ ∀ (endian : Endian) (verbose : Bool) (sport dport : Nat) (seq ret : Int)
      (passes : List Pass), Waits (EndsV6 sport dport seq) passes
        (recvV6 endian verbose sport dport seq ret passes) := by
  intro waits
  have law := waits .little false 32769 33434 1 7 [.recvfrom (.packet (timeExceededV6 33440))]
  have foreign : ForeignV6 32769 33434 1 (timeExceededV6 33440) := by
    refine ⟨⟨rfl, rfl⟩, by decide, fun quotes => ?_⟩
    have destination := quotes.destination
    revert destination
    decide
  have returned : recvV6 .little false 32769 33434 1 7
      [.recvfrom (.packet (timeExceededV6 33440))] = some (some (7, [])) := by decide
  rw [returned] at law
  exact not_waits_of_returns (not_ends_foreign foreign) law

end SocketProgram.Traceroute
