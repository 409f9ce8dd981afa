/-
This file puts `written` at one end of a reliable byte channel and `readn` at the
other. The sender calls `written` once for every message and closes the channel at
some point; the receiver calls `readn` once for every length. The two take their
system calls in any order, each call takes or gives any number of bytes it may, and
any of them may be interrupted.

Neither end knows where the other's calls begin. What holds the two together is the
stream: what has been sent and what the sender still owes is always all the messages
put together, and what the current `readn` has stored followed by the channel is
always what has been sent after the lengths of the calls that returned. So what the
calls have stored is the stream cut at their lengths.
-/

import SocketProgram.Library.Frames
import SocketProgram.Library.Runs
import SocketProgram.Transfer

namespace SocketProgram.Framing

open Source Runs Frames

/-! ### The two ends of the channel -/

/-- The sender's messages and its `written` in progress, the channel, and the receiver's
lengths and its `readn` in progress. -/
structure Link where
  unsent : List (List Byte)
  sending : Option (List Byte × WrittenFrame)
  channel : List Byte
  closed : Bool
  unreceived : List Nat
  receiving : Option (Nat × ReadnFrame)

/-- A step of one of the ends. A call that returns, returns in the step of its last system
call. -/
inductive Event
  | callWritten (message : List Byte) (returned : Option Int)
  | write (offered : List Byte) (outcome : WriteOutcome) (returned : Option Int)
  | close
  | callReadn (n : Nat) (returned : Option ReadnReturn)
  | read (n : Nat) (outcome : ReadOutcome) (returned : Option ReadnReturn)
  deriving DecidableEq, Repr

/-- The sender, with its call of `written` for this message as far as it has come. -/
def Link.sender (link : Link) (message : List Byte) (progress : Int ⊕ WrittenFrame) : Link :=
  { link with sending := progress.getRight?.map fun frame => (message, frame) }

/-- The receiver, with its call of `readn` for this length as far as it has come. -/
def Link.receiver (link : Link) (n : Nat) (progress : ReadnReturn ⊕ ReadnFrame) : Link :=
  { link with receiving := progress.getRight?.map fun frame => (n, frame) }

/-- The steps. The sender may close the channel early, and does nothing once it has. -/
inductive Step : Link → Event → Link → Prop
  | callWritten {link : Link} {message : List Byte} {unsent : List (List Byte)}
      (opened : link.closed = false) (idle : link.sending = none)
      (messages : link.unsent = message :: unsent) :
      Step link
        (.callWritten message
          ((written message.length).test (.enter message.length)).getLeft?)
        ({ link with unsent := unsent }.sender message
          ((written message.length).test (.enter message.length)))
  | write {link : Link} {message channel : List Byte} {frame : WrittenFrame}
      {outcome : WriteOutcome} (opened : link.closed = false)
      (sending : link.sending = some (message, frame))
      (writes : ChannelWrite (frame.offered message) link.channel outcome channel) :
      Step link
        (.write (frame.offered message) outcome
          ((written message.length).round outcome frame).getLeft?)
        ({ link with channel := channel }.sender message
          ((written message.length).round outcome frame))
  | close {link : Link} (opened : link.closed = false) :
      Step link .close { link with closed := true }
  | callReadn {link : Link} {n : Nat} {unreceived : List Nat} (idle : link.receiving = none)
      (lengths : link.unreceived = n :: unreceived) :
      Step link (.callReadn n ((readn n).test (.enter n)).getLeft?)
        ({ link with unreceived := unreceived }.receiver n ((readn n).test (.enter n)))
  | read {link : Link} {n : Nat} {channel : List Byte} {frame : ReadnFrame}
      {outcome : ReadOutcome} (receiving : link.receiving = some (n, frame))
      (reads : ChannelRead frame.nleft link.closed link.channel outcome channel) :
      Step link (.read n outcome ((readn n).round outcome frame).getLeft?)
        ({ link with channel := channel }.receiver n ((readn n).round outcome frame))

/-- Before the first call of either end. -/
def Link.initial (messages : List (List Byte)) : Link where
  unsent := messages
  sending := none
  channel := []
  closed := false
  unreceived := messages.map List.length
  receiving := none

/-- The two ends, each with its calls for these messages. -/
def link (messages : List (List Byte)) : System Link Event where
  start history link := history = [] ∧ link = Link.initial messages
  step link events next := ∃ event, Step link event next ∧ events = [event]

/-! ### What an observer sees -/

/-- The bytes a step puts into the channel. -/
def Event.bytes : Event → List Byte
  | .write offered outcome _ => offered.take outcome.count
  | _ => []

/-- What a step returns to the receiver, with the length it had asked for. -/
def Event.readn? : Event → Option (Nat × ReadnReturn)
  | .callReadn n returned | .read n _ returned => returned.map fun ret => (n, ret)
  | _ => none

/-- Whether the system call of a step was interrupted. -/
def Event.interrupted : Event → Bool
  | .write _ (.error .eintr) _ | .read _ (.error .eintr) _ => true
  | _ => false

/-- All that has been sent. -/
def sent (history : List Event) : List Byte := history.flatMap Event.bytes

/-- What the calls of `readn` that returned gave, in order. -/
def received (history : List Event) : List (Nat × ReadnReturn) := history.filterMap Event.readn?

/-- The receiver has made all its calls. -/
def Link.Finished (link : Link) : Prop := link.unreceived = [] ∧ link.receiving = none

/-- The sender has made all its calls and they have returned. -/
def Link.HandedOver (link : Link) : Prop := link.unsent = [] ∧ link.sending = none

/-- What a call returns that stored these bytes. -/
def stores (bytes : List Byte) : ReadnReturn := ⟨bytes.length, bytes⟩

theorem sent_concat (history : List Event) (event : Event) :
    sent (history ++ [event]) = sent history ++ event.bytes := by
  rw [sent, List.flatMap_append, List.flatMap_singleton]
  rfl

theorem received_concat (history : List Event) (event : Event) :
    received (history ++ [event]) = received history ++ event.readn?.toList := by
  rw [received, List.filterMap_append]
  cases same : event.readn? <;> simp [received, same]

/-! ### The sender -/

/-- The bytes the sender has still to write. -/
def Link.owed (link : Link) : List Byte :=
  (match link.sending with
    | none => []
    | some (message, frame) => message.drop frame.ptr) ++ link.unsent.flatten

/-- The sender never loses its place: what it has sent and what it owes is all the messages. -/
structure Sending (messages : List (List Byte)) (history : List Event) (link : Link) :
    Prop where
  stream : sent history ++ link.owed = messages.flatten
  inside : ∀ message frame, link.sending = some (message, frame) →
    frame.ptr + frame.nleft = message.length ∧ 0 < frame.nleft

theorem sender_upTo (link : Link) (message : List Byte) {passed : Nat}
    {progress : Int ⊕ WrittenFrame} (upTo : WrittenUpTo message.length passed progress) :
    (link.sender message progress).owed = message.drop passed ++ link.unsent.flatten ∧
      ∀ message' frame, (link.sender message progress).sending = some (message', frame) →
        frame.ptr + frame.nleft = message'.length ∧ 0 < frame.nleft := by
  cases progress with
  | inl value =>
    obtain ⟨_, rfl⟩ := upTo
    refine ⟨?_, nofun⟩
    rw [List.drop_length]
    rfl
  | inr frame =>
    obtain ⟨rfl, inside, left⟩ := upTo
    refine ⟨rfl, fun message' frame' same => ?_⟩
    cases same
    exact ⟨inside, left⟩

/-- A sender that has made all its calls has sent everything. -/
theorem Sending.handedOver {messages : List (List Byte)} {history : List Event} {link : Link}
    (sending : Sending messages history link) (handedOver : link.HandedOver) :
    sent history = messages.flatten := by
  obtain ⟨unsent, idle⟩ := handedOver
  have owed : link.owed = [] := by
    rw [Link.owed, idle, unsent]
    rfl
  have stream := sending.stream
  rwa [owed, List.append_nil] at stream

/-- A step that is not the sender's. -/
theorem Sending.silent {messages : List (List Byte)} {history : List Event} {link next : Link}
    {event : Event} (sending : Sending messages history link) (silent : event.bytes = [])
    (owed : next.owed = link.owed) (same : next.sending = link.sending) :
    Sending messages (history ++ [event]) next := by
  refine ⟨?_, fun message frame current => sending.inside message frame (same ▸ current)⟩
  rw [sent_concat, silent, List.append_nil, owed]
  exact sending.stream

theorem sending_step {messages : List (List Byte)} {history : List Event} {link next : Link}
    {event : Event} (sending : Sending messages history link) (step : Step link event next) :
    Sending messages (history ++ [event]) next := by
  have stream := sending.stream
  cases step with
  | @callWritten message unsent _ idle unsentIs =>
    obtain ⟨owed, inside⟩ := sender_upTo { link with unsent := unsent } message
      (written_enter message.length)
    refine ⟨?_, inside⟩
    rw [sent_concat, owed, ← stream, Link.owed, idle, unsentIs]
    simp [Event.bytes]
  | @write message channel frame outcome _ current writes =>
    obtain ⟨inside, left⟩ := sending.inside _ _ current
    have offered := offered_eq_drop inside
    rw [Link.owed, current] at stream
    cases writes with
    | wrote count positive fits =>
      have fits' : count ≤ frame.nleft := by
        rw [offered, List.length_drop] at fits
        omega
      obtain ⟨owed, inside'⟩ := sender_upTo
        { link with channel := link.channel ++ (frame.offered message).take count } message
        (written_round_wrote inside positive fits')
      refine ⟨?_, inside'⟩
      rw [sent_concat, owed, ← stream, Event.bytes, WriteOutcome.count_wrote, offered,
        ← List.drop_drop, List.append_assoc, ← List.append_assoc (List.take _ _),
        List.take_append_drop]
    | interrupted =>
      rw [written_round_interrupted left]
      have upTo : WrittenUpTo message.length frame.ptr (.inr frame) := ⟨rfl, inside, left⟩
      obtain ⟨owed, inside'⟩ := sender_upTo { link with channel := link.channel } message upTo
      refine ⟨?_, inside'⟩
      rw [sent_concat, owed, ← stream, Event.bytes, WriteOutcome.count_error, List.take_zero,
        List.append_nil]
  | close _ => exact sending.silent rfl rfl rfl
  | callReadn _ _ => exact sending.silent rfl rfl rfl
  | read _ _ => exact sending.silent rfl rfl rfl

/-! ### The receiver -/

/-- What the current `readn` has stored. -/
def Link.stored (link : Link) : List Byte :=
  match link.receiving with
  | none => []
  | some (_, frame) => frame.stored

/-- The length the current `readn` was asked for. -/
def Link.current (link : Link) : List Nat := (link.receiving.map Prod.fst).toList

/-- The receiver never loses its place: the calls that returned gave the stream cut at their
lengths, and what the current call has stored followed by the channel is the rest of the
stream. Only a closed channel leaves them short. -/
structure Receiving (messages : List (List Byte)) (history : List Event) (link : Link) :
    Prop where
  lengths : (received history).map Prod.fst ++ link.current ++ link.unreceived =
    messages.map List.length
  results : (received history).map Prod.snd =
    (((received history).map Prod.fst).splitLengths (sent history)).map stores
  rest : link.stored ++ link.channel =
    (sent history).drop ((received history).map Prod.fst).sum
  inside : ∀ n frame, link.receiving = some (n, frame) →
    frame.stored.length + frame.nleft = n ∧ 0 < frame.nleft
  covered : link.closed = false →
    ((received history).map Prod.fst).sum ≤ (sent history).length

/-- A step that is not the receiver's: it may add to the stream while the channel is open. -/
theorem Receiving.idle {messages : List (List Byte)} {history : List Event} {link next : Link}
    {event : Event} (receiving : Receiving messages history link) (silent : event.readn? = none)
    (same : next.receiving = link.receiving) (lengths : next.unreceived = link.unreceived)
    (channel : next.channel = link.channel ++ event.bytes)
    (opened : event.bytes = [] ∨ link.closed = false)
    (open' : next.closed = false → link.closed = false) :
    Receiving messages (history ++ [event]) next := by
  have received' : received (history ++ [event]) = received history := by
    rw [received_concat, silent]
    exact List.append_nil _
  have stored : next.stored = link.stored := by rw [Link.stored, same]; rfl
  have current : next.current = link.current := by rw [Link.current, same]; rfl
  have grown : (sent history).length ≤ (sent history ++ event.bytes).length := by
    rw [List.length_append]
    exact Nat.le_add_right _ _
  refine ⟨?_, ?_, ?_, fun n frame waits => receiving.inside n frame (same ▸ waits),
    fun opened' => ?_⟩
  · rw [received', current, lengths]
    exact receiving.lengths
  · rw [received', sent_concat, receiving.results]
    rcases opened with nothing | opened
    · rw [nothing, List.append_nil]
    · rw [splitLengths_append _ _ _ (receiving.covered opened)]
  · rw [received', sent_concat, stored, channel, ← List.append_assoc, receiving.rest]
    rcases opened with nothing | opened
    · rw [nothing, List.append_nil, List.append_nil]
    · rw [List.drop_append_of_le_length (receiving.covered opened)]
  · rw [received', sent_concat]
    exact (receiving.covered (open' opened')).trans grown

/-- A step of the receiver that leaves its call waiting. -/
theorem Receiving.waits {messages : List (List Byte)} {history : List Event} {link next : Link}
    {event : Event} {n : Nat} {frame : ReadnFrame}
    (receiving : Receiving messages history link) (silent : event.bytes = [])
    (waits : event.readn? = none) (call : link.current ++ link.unreceived = n :: next.unreceived)
    (current : next.receiving = some (n, frame))
    (inside : frame.stored.length + frame.nleft = n) (left : 0 < frame.nleft)
    (rest : frame.stored ++ next.channel = link.stored ++ link.channel)
    (open' : next.closed = link.closed) :
    Receiving messages (history ++ [event]) next := by
  have received' : received (history ++ [event]) = received history := by
    rw [received_concat, waits]
    exact List.append_nil _
  have stored : next.stored = frame.stored := by rw [Link.stored, current]
  have current' : next.current = [n] := by rw [Link.current, current]; rfl
  refine ⟨?_, ?_, ?_, ?_, ?_⟩
  · rw [received', current', ← receiving.lengths, List.append_assoc, List.append_assoc, call]
    rfl
  · rw [received', sent_concat, silent, List.append_nil]
    exact receiving.results
  · rw [received', sent_concat, silent, List.append_nil, stored, rest]
    exact receiving.rest
  · intro n' frame' same
    rw [current] at same
    cases same
    exact ⟨inside, left⟩
  · intro opened
    rw [received', sent_concat, silent, List.append_nil]
    exact receiving.covered (open' ▸ opened)

/-- A step of the receiver in which its call returns what it has stored: all it was asked for,
or all there is and will be. -/
theorem Receiving.returns {messages : List (List Byte)} {history : List Event}
    {link next : Link} {event : Event} {n : Nat} {bytes : List Byte}
    (receiving : Receiving messages history link) (silent : event.bytes = [])
    (returns : event.readn? = some (n, stores bytes))
    (call : link.current ++ link.unreceived = n :: next.unreceived)
    (current : next.receiving = none)
    (rest : bytes ++ next.channel = link.stored ++ link.channel)
    (full : bytes.length = n ∨ bytes.length ≤ n ∧ next.channel = [] ∧ link.closed = true)
    (open' : next.closed = link.closed) :
    Receiving messages (history ++ [event]) next := by
  have received' : received (history ++ [event]) = received history ++ [(n, stores bytes)] := by
    rw [received_concat, returns]
    rfl
  have stored : next.stored = [] := by rw [Link.stored, current]
  have current' : next.current = [] := by rw [Link.current, current]; rfl
  have stream : bytes ++ next.channel =
      (sent history).drop ((received history).map Prod.fst).sum := rest.trans receiving.rest
  have frame : (bytes ++ next.channel).take n = bytes := by
    rcases full with exact' | ⟨short, empty, _⟩
    · rw [← exact', List.take_left]
    · rw [empty, List.append_nil, List.take_of_length_le short]
  have after : (bytes ++ next.channel).drop n = next.channel := by
    rcases full with exact' | ⟨short, empty, _⟩
    · rw [← exact', List.drop_left]
    · rw [empty, List.append_nil, List.drop_of_length_le short]
  refine ⟨?_, ?_, ?_, ?_, ?_⟩
  · rw [received', current', ← receiving.lengths, List.map_append, List.append_nil,
      List.append_assoc, List.append_assoc, call]
    rfl
  · rw [received', sent_concat, silent, List.append_nil, List.map_append, List.map_append,
      List.map_singleton, List.map_singleton, splitLengths_concat, List.map_append,
      ← receiving.results, ← stream, frame]
    rfl
  · rw [received', sent_concat, silent, List.append_nil, stored, List.map_append,
      List.map_singleton, List.sum_append, List.sum_singleton, ← List.drop_drop, ← stream, after]
    rfl
  · intro n' frame' same
    rw [current] at same
    cases same
  · intro opened
    rw [open'] at opened
    have covered := receiving.covered opened
    have length : bytes.length = n := by
      rcases full with exact' | ⟨_, _, ended⟩
      · exact exact'
      · rw [opened] at ended
        cases ended
    have lengths := congrArg List.length stream
    rw [List.length_append, List.length_drop] at lengths
    rw [received', sent_concat, silent, List.append_nil, List.map_append, List.map_singleton,
      List.sum_append, List.sum_singleton]
    omega

/-- A step of the receiver, whichever way its call has come. -/
theorem Receiving.upTo {messages : List (List Byte)} {history : List Event} {link next : Link}
    {event : Event} {n : Nat} {bytes : List Byte} {progress : ReadnReturn ⊕ ReadnFrame}
    (receiving : Receiving messages history link) (upTo : ReadnUpTo n bytes progress)
    (silent : event.bytes = [])
    (result : event.readn? = progress.getLeft?.map fun ret => (n, ret))
    (call : link.current ++ link.unreceived = n :: next.unreceived)
    (current : next.receiving = progress.getRight?.map fun frame => (n, frame))
    (rest : bytes ++ next.channel = link.stored ++ link.channel)
    (open' : next.closed = link.closed) :
    Receiving messages (history ++ [event]) next := by
  cases progress with
  | inl ret =>
    obtain ⟨rfl, full⟩ := upTo
    refine receiving.returns silent ?_ call current rest (Or.inl full) open'
    rw [result, stores, full]
    rfl
  | inr frame =>
    obtain ⟨rfl, inside, left⟩ := upTo
    exact receiving.waits silent result call current inside left rest open'

theorem receiving_step {messages : List (List Byte)} {history : List Event} {link next : Link}
    {event : Event} (receiving : Receiving messages history link)
    (step : Step link event next) : Receiving messages (history ++ [event]) next := by
  cases step with
  | callWritten _ _ _ =>
    exact receiving.idle rfl rfl rfl (List.append_nil _).symm (Or.inl rfl) fun opened => opened
  | write opened _ writes =>
    refine receiving.idle rfl rfl rfl ?_ (Or.inr opened) fun opened => opened
    cases writes with
    | wrote count _ _ => rfl
    | interrupted => exact (List.append_nil _).symm
  | close opened =>
    exact receiving.idle rfl rfl rfl (List.append_nil _).symm (Or.inl rfl) fun _ => opened
  | @callReadn n unreceived idle lengths =>
    refine receiving.upTo (readn_enter n) rfl rfl ?_ rfl ?_ rfl
    · rw [Link.current, idle, lengths]
      rfl
    · rw [Link.stored, idle]
      rfl
  | @read n channel frame outcome current reads =>
    obtain ⟨inside, left⟩ := receiving.inside _ _ current
    have call : link.current ++ link.unreceived = n :: link.unreceived := by
      rw [Link.current, current]
      rfl
    have stored : link.stored = frame.stored := by rw [Link.stored, current]
    generalize before : link.channel = queue at reads
    cases reads with
    | data bytes rest nonempty fits =>
      exact receiving.upTo (readn_round_data inside nonempty fits) rfl rfl call rfl
        (by rw [stored, before, List.append_assoc]; rfl) rfl
    | eof ended =>
      rw [readn_round_eof inside]
      exact receiving.returns rfl rfl call rfl (by rw [stored, before]; rfl)
        (Or.inr ⟨by omega, rfl, ended⟩) rfl
    | interrupted =>
      rw [readn_round_interrupted left]
      exact receiving.waits rfl rfl call rfl inside left (by rw [stored, before]; rfl) rfl

/-- A call of `readn` that returns less than it was asked for returns on an end of file. -/
theorem short_at_eof {messages : List (List Byte)} {history : List Event} {link next : Link}
    {event : Event} (receiving : Receiving messages history link) (step : Step link event next)
    {n : Nat} {ret : ReadnReturn} (returns : event.readn? = some (n, ret))
    (short : ret.value < n) : event = .read n (.data []) (some ret) := by
  -- A call that has come as far as its buffer full is not short.
  have full : ∀ n' bytes progress, ReadnUpTo n' bytes progress →
      (progress.getLeft?.map fun ret => (n', ret)) = some (n, ret) → False := by
    intro n' bytes progress upTo same
    cases progress with
    | inl ret' =>
      cases same
      rw [upTo.1] at short
      exact Int.lt_irrefl _ short
    | inr frame => cases same
  cases step with
  | callWritten _ _ _ => cases returns
  | write _ _ _ => cases returns
  | close _ => cases returns
  | @callReadn n' _ _ _ => exact (full n' _ _ (readn_enter n') returns).elim
  | @read n' channel frame outcome current reads =>
    obtain ⟨inside, left⟩ := receiving.inside _ _ current
    generalize link.channel = queue at reads
    cases reads with
    | data bytes rest nonempty fits =>
      exact (full n' _ _ (readn_round_data inside nonempty fits) returns).elim
    | eof ended =>
      rw [readn_round_eof inside] at returns ⊢
      cases returns
      rfl
    | interrupted =>
      rw [readn_round_interrupted left] at returns
      cases returns

/-! ### Both ends get to the end -/

/-- How many steps that are not interrupted can still be taken. -/
def Link.rank (link : Link) : Nat :=
  (link.unsent.map fun message => message.length + 1).sum +
    (link.sending.map fun call => call.2.nleft).getD 0 + (!link.closed).toNat +
    (link.unreceived.map fun n => n + 1).sum + (link.receiving.map fun call => call.2.nleft).getD 0

theorem rank_sender {n passed : Nat} (message : List Byte) {progress : Int ⊕ WrittenFrame}
    (upTo : WrittenUpTo n passed progress) :
    passed + ((progress.getRight?.map fun frame => (message, frame)).map
      fun call => call.2.nleft).getD 0 = n := by
  cases progress with
  | inl value => exact upTo.2
  | inr frame => exact upTo.2.1

theorem rank_receiver {n : Nat} {bytes : List Byte} {progress : ReadnReturn ⊕ ReadnFrame}
    (upTo : ReadnUpTo n bytes progress) :
    bytes.length + ((progress.getRight?.map fun frame => (n, frame)).map
      fun call => call.2.nleft).getD 0 = n := by
  cases progress with
  | inl ret => exact upTo.2
  | inr frame => exact upTo.2.1

theorem rank_step {messages : List (List Byte)} {history : List Event} {link next : Link}
    {event : Event} (sending : Sending messages history link)
    (receiving : Receiving messages history link) (step : Step link event next) :
    next.rank + (!event.interrupted).toNat ≤ link.rank := by
  cases step with
  | @callWritten message unsent _ idle unsentIs =>
    have left := rank_sender message (written_enter message.length)
    simp only [Link.rank, Link.sender, idle, unsentIs, Event.interrupted, List.map_cons,
      List.sum_cons, Option.map_none, Option.getD_none, Bool.not_false, Bool.toNat_true]
    omega
  | @write message channel frame outcome _ current writes =>
    obtain ⟨inside, left⟩ := sending.inside _ _ current
    cases writes with
    | wrote count positive fits =>
      rw [offered_eq_drop inside, List.length_drop] at fits
      have left' := rank_sender message
        (written_round_wrote inside positive (by omega))
      simp only [Link.rank, Link.sender, current, Event.interrupted, Option.map_some,
        Option.getD_some, Bool.not_false, Bool.toNat_true]
      omega
    | interrupted =>
      rw [written_round_interrupted left]
      simp [Link.rank, Link.sender, current, Event.interrupted]
  | close opened =>
    simp only [Link.rank, Event.interrupted, opened, Bool.not_true, Bool.not_false,
      Bool.toNat_true, Bool.toNat_false]
    omega
  | @callReadn n unreceived idle lengths =>
    have left := rank_receiver (readn_enter n)
    simp only [Link.rank, Link.receiver, idle, lengths, Event.interrupted, List.map_cons,
      List.sum_cons, Option.map_none, Option.getD_none, List.length_nil, Bool.not_false,
      Bool.toNat_true] at left ⊢
    omega
  | @read n channel frame outcome current reads =>
    obtain ⟨inside, left⟩ := receiving.inside _ _ current
    generalize link.channel = queue at reads
    cases reads with
    | data bytes rest nonempty fits =>
      have left' := rank_receiver (readn_round_data inside nonempty fits)
      have positive := List.length_pos_iff.mpr nonempty
      simp only [Link.rank, Link.receiver, current, Event.interrupted, Option.map_some,
        Option.getD_some, List.length_append, Bool.not_false, Bool.toNat_true] at left' ⊢
      omega
    | eof ended =>
      rw [readn_round_eof inside]
      simp only [Link.rank, Link.receiver, current, Event.interrupted, Option.map_some,
        Option.getD_some, Sum.getRight?_inl, Option.map_none, Option.getD_none, Bool.not_false,
        Bool.toNat_true]
      omega
    | interrupted =>
      rw [readn_round_interrupted left]
      simp [Link.rank, Link.receiver, current, Event.interrupted]

/-- While the receiver has calls to make or to return from, one of the two can take a step
that is not interrupted. -/
theorem not_stuck {messages : List (List Byte)} {history : List Event} {link : Link}
    (sending : Sending messages history link) (receiving : Receiving messages history link)
    (unfinished : ¬ link.Finished) :
    ∃ event next, Step link event next ∧ event.interrupted = false := by
  cases current : link.receiving with
  | none =>
    cases lengths : link.unreceived with
    | nil => exact absurd ⟨lengths, current⟩ unfinished
    | cons n unreceived => exact ⟨_, _, .callReadn current lengths, rfl⟩
  | some call =>
    obtain ⟨n, frame⟩ := call
    obtain ⟨_, left⟩ := receiving.inside _ _ current
    cases channel : link.channel with
    | cons byte rest =>
      have reads : ChannelRead frame.nleft link.closed link.channel (.data [byte]) rest :=
        channel ▸ .data [byte] rest (List.cons_ne_nil _ _) left
      exact ⟨_, _, .read current reads, rfl⟩
    | nil =>
      cases closed : link.closed with
      | true =>
        have reads : ChannelRead frame.nleft link.closed link.channel (.data []) [] := by
          rw [channel]
          exact .eof closed
        exact ⟨_, _, .read current reads, rfl⟩
      | false =>
        cases written : link.sending with
        | some call' =>
          obtain ⟨message, frame'⟩ := call'
          obtain ⟨inside, left'⟩ := sending.inside _ _ written
          have fits : 1 ≤ (frame'.offered message).length := by
            rw [offered_eq_drop inside, List.length_drop]
            omega
          exact ⟨_, _, .write closed written (.wrote 1 Nat.one_pos fits), rfl⟩
        | none =>
          cases unsent : link.unsent with
          | nil => exact ⟨_, _, .close closed, rfl⟩
          | cons message rest => exact ⟨_, _, .callWritten closed written unsent, rfl⟩

/-! ### Framing -/

/-- How many steps that are not interrupted a run can have at most: for every message one for
each byte and one for the call, at both ends, and the close. -/
def work (messages : List (List Byte)) : Nat :=
  2 * (messages.map fun message => message.length + 1).sum + 1

/-- What holds after any number of steps. -/
structure Inv (messages : List (List Byte)) (history : List Event) (link : Link) : Prop where
  sending : Sending messages history link
  receiving : Receiving messages history link
  short : ∀ event ∈ history, ∀ n ret, event.readn? = some (n, ret) → ret.value < n →
    event = .read n (.data []) (some ret)
  steps : link.rank + (history.countP fun event => !event.interrupted) ≤ work messages

theorem inv_initial (messages : List (List Byte)) : Inv messages [] (Link.initial messages) where
  sending := ⟨rfl, nofun⟩
  receiving := ⟨rfl, rfl, rfl, nofun, fun _ => Nat.le_refl _⟩
  short := nofun
  steps := by
    simp [Link.rank, Link.initial, work, Function.comp_def]
    omega

theorem inv_step {messages : List (List Byte)} {history : List Event} {link next : Link}
    {event : Event} (inv : Inv messages history link) (step : Step link event next) :
    Inv messages (history ++ [event]) next where
  sending := sending_step inv.sending step
  receiving := receiving_step inv.receiving step
  short event' member n ret returns short := by
    rcases List.mem_append.mp member with before | now
    · exact inv.short event' before n ret returns short
    · obtain rfl := List.mem_singleton.mp now
      exact short_at_eof inv.receiving step returns short
  steps := by
    have less := rank_step inv.sending inv.receiving step
    have steps := inv.steps
    rw [List.countP_append, List.countP_singleton]
    cases same : event.interrupted <;> simp [same] at less ⊢ <;> omega

theorem inv_of_run {messages : List (List Byte)} {history : List Event} {link : Link}
    (run : Run (Framing.link messages) history link) : Inv messages history link := by
  refine run.invariant (Inv messages) ?_ ?_
  · rintro _ _ ⟨rfl, rfl⟩
    exact inv_initial messages
  · rintro history link _ next inv ⟨event, step, rfl⟩
    exact inv_step inv step

/-- The messages arrive in the frames they were sent in: when all calls of `written` have returned,
all the messages have been sent, and nothing else ever is; each call of `readn` gives the part of
its message that was sent; it gives less than the whole message only on an end of file, and never
when the channel was not closed before the calls of `written` had returned; and all the calls
return after finitely many steps that are not interrupted. -/
structure Faithful (messages : List (List Byte)) (history : List Event) (link : Link) :
    Prop where
  stream : sent history <+: messages.flatten
  handedOver : link.HandedOver → sent history = messages.flatten
  lengths : (received history).map Prod.fst <+: messages.map List.length
  parts : (received history).map Prod.snd =
    (((messages.map List.length).splitLengths (sent history)).take
      (received history).length).map stores
  short : ∀ event ∈ history, ∀ n ret, event.readn? = some (n, ret) → ret.value < n →
    event = .read n (.data []) (some ret)
  whole : (link.closed = true → link.HandedOver) →
    received history =
      (messages.take (received history).length).map fun message => (message.length, stores message)
  finished : link.Finished → (received history).length = messages.length
  unfinished : ¬ link.Finished → ∃ event next, Step link event next ∧ event.interrupted = false
  bounded : (history.countP fun event => !event.interrupted) ≤ work messages

/-- In every run, whatever the short counts, the interruptions and the moment of the close,
`readn` frames the stream as `written` did. -/
theorem readn_frames_written (messages : List (List Byte)) {history : List Event} {link : Link}
    (run : Run (Framing.link messages) history link) : Faithful messages history link := by
  obtain ⟨sending, receiving, short, steps⟩ := inv_of_run run
  have stream : sent history <+: messages.flatten := ⟨_, sending.stream⟩
  have lengths : (received history).map Prod.fst <+: messages.map List.length :=
    ⟨_, (List.append_assoc _ _ _).symm.trans receiving.lengths⟩
  have done : (received history).map Prod.fst =
      (messages.map List.length).take (received history).length := by
    rw [List.prefix_iff_eq_take.mp lengths, List.length_map]
  have parts : (received history).map Prod.snd =
      (((messages.map List.length).splitLengths (sent history)).take
        (received history).length).map stores := by
    rw [receiving.results, List.take_splitLength, ← done]
  refine ⟨stream, sending.handedOver, lengths, parts, short, ?_, ?_,
    not_stuck sending receiving, by omega⟩
  · intro whole
    have covered : ((messages.map List.length).take (received history).length).sum ≤
        (sent history).length := by
      rw [← done]
      cases closed : link.closed with
      | false => exact receiving.covered closed
      | true =>
        obtain ⟨rest, all⟩ := lengths
        rw [sending.handedOver (whole closed), List.length_flatten, ← all, List.sum_append]
        exact Nat.le_add_right _ _
    have contents := receiving.results
    rw [done, splitLengths_take messages _ _ stream covered] at contents
    have pairs : received history =
        ((received history).map Prod.fst).zip ((received history).map Prod.snd) := by
      rw [List.zip_map', List.map_id'' fun _ => rfl]
    rw [pairs, contents, done, ← List.map_take, List.zip_map']
    simp
  · intro finished
    obtain ⟨unreceived, idle⟩ := finished
    have all := congrArg List.length receiving.lengths
    rw [Link.current, idle, unreceived] at all
    simpa using all

/-- A message of two bytes, sent and received one byte at a time, with an interruption. -/
theorem readn_frames_written_two : ∃ history link,
    Run (Framing.link [[7, 8]]) history link ∧ received history = [(2, stores [7, 8])] ∧
      Faithful [[7, 8]] history link := by
  have start : Run (Framing.link [[7, 8]]) [] (Link.initial [[7, 8]]) := .start ⟨rfl, rfl⟩
  have called := start.step ⟨_, .callReadn rfl rfl, rfl⟩
  have interrupted := (called.step ⟨_, .callWritten rfl rfl rfl, rfl⟩).step
    ⟨_, .read rfl (.interrupted _), rfl⟩
  have first := (interrupted.step ⟨_, .write rfl rfl (.wrote 1 (by decide) (by decide)), rfl⟩).step
    ⟨_, .read rfl (.data [7] [] (by decide) (by decide)), rfl⟩
  have second := (first.step ⟨_, .write rfl rfl (.wrote 1 (by decide) (by decide)), rfl⟩).step
    ⟨_, .read rfl (.data [8] [] (by decide) (by decide)), rfl⟩
  exact ⟨_, _, second, rfl, readn_frames_written [[7, 8]] second⟩

end SocketProgram.Framing
