/-
This file is about messages that may be lost, delayed and reordered on their way, but are
not made up and not duplicated. A ledger keeps what is under way: it takes in what is sent,
and lets out only what is in it. Besides, it keeps the message sent last, and whether nothing
was under way when that one was sent.

If nothing was, then whatever is delivered before the next message is sent is that message.
-/

import Mathlib.Algebra.Order.Group.Multiset
import Mathlib.Tactic.Abel
import SocketProgram.Library.Runs

namespace Runs

/-- What can happen to a message. -/
inductive Entry (Message : Type*)
  | sent (message : Message)
  | delivered (message : Message)
  | lost (message : Message)

/-- A ledger of the messages under way. -/
structure Ledger (Message : Type*) where
  underWay : Multiset Message
  last : Option Message
  alone : Bool

namespace Ledger

variable {Message : Type*}

/-- The ledger of a network that nothing has been sent into. -/
def empty : Ledger Message := ⟨0, none, false⟩

/-- The messages that have been sent, in their order. -/
def sent (entries : List (Entry Message)) : List Message :=
  entries.filterMap fun entry => match entry with
    | .sent message => some message
    | _ => none

/-- The messages that have been delivered, in their order. -/
def delivered (entries : List (Entry Message)) : List Message :=
  entries.filterMap fun entry => match entry with
    | .delivered message => some message
    | _ => none

/-- The messages that have been lost, in their order. -/
def lost (entries : List (Entry Message)) : List Message :=
  entries.filterMap fun entry => match entry with
    | .lost message => some message
    | _ => none

section Append

variable (first second : List (Entry Message))

@[simp]
theorem sent_append : sent (first ++ second) = sent first ++ sent second :=
  List.filterMap_append

@[simp]
theorem delivered_append : delivered (first ++ second) = delivered first ++ delivered second :=
  List.filterMap_append

@[simp]
theorem lost_append : lost (first ++ second) = lost first ++ lost second :=
  List.filterMap_append

end Append

/-- A message is taken out of a ledger that has it. -/
def take? [DecidableEq Message] (ledger : Ledger Message) (message : Message) :
    Option (Ledger Message) :=
  if message ∈ ledger.underWay then
    some { ledger with underWay := ledger.underWay.erase message }
  else none

/-- An entry is written. Only what is under way can be delivered or lost. -/
def accept [DecidableEq Message] (ledger : Ledger Message) :
    Entry Message → Option (Ledger Message)
  | .sent message =>
    some ⟨message ::ₘ ledger.underWay, some message, decide (ledger.underWay = 0)⟩
  | .delivered message | .lost message => ledger.take? message

/-- What a ledger has in common with the entries it was written with. -/
structure Agrees (entries : List (Entry Message)) (ledger : Ledger Message) : Prop where
  conserved : ledger.underWay + (delivered entries : Multiset Message) +
    (lost entries : Multiset Message) = (sent entries : Multiset Message)
  last : ledger.last = (sent entries).getLast?
  alone : ledger.alone = true → ∃ message, ledger.last = some message ∧
    ledger.underWay ≤ {message}

theorem agrees_empty : Agrees [] (empty : Ledger Message) :=
  ⟨rfl, rfl, nofun⟩

section Entries

variable [DecidableEq Message] {entries word : List (Entry Message)}
  {ledger next : Ledger Message} {message : Message}

theorem take?_eq_some (taken : ledger.take? message = some next) :
    message ∈ ledger.underWay ∧
      next = { ledger with underWay := ledger.underWay.erase message } := by
  unfold take? at taken
  split_ifs at taken with member
  exact ⟨member, (Option.some.inj taken).symm⟩

/-- Taking a message out keeps what the ledger says of the one sent last. -/
theorem Agrees.alone_erase (agrees : Agrees entries ledger) (message : Message)
    (alone : ledger.alone = true) :
    ∃ last, ledger.last = some last ∧ ledger.underWay.erase message ≤ {last} := by
  obtain ⟨last, same, only⟩ := agrees.alone alone
  exact ⟨last, same, (Multiset.erase_le _ _).trans only⟩

/-- An entry that takes a message out of the ledger, to be delivered or lost. -/
theorem Agrees.takeOut (agrees : Agrees entries ledger) (member : message ∈ ledger.underWay)
    {entry : Entry Message} (unsent : sent [entry] = [])
    (out : (delivered [entry] : Multiset Message) + (lost [entry] : Multiset Message) =
      {message}) :
    Agrees (entries ++ [entry]) { ledger with underWay := ledger.underWay.erase message } := by
  refine ⟨?_, ?_, agrees.alone_erase message⟩
  · have whole : ledger.underWay = ledger.underWay.erase message + {message} := by
      rw [add_comm, Multiset.singleton_add, Multiset.cons_erase member]
    have conserved := agrees.conserved
    rw [whole, ← out] at conserved
    rw [delivered_append, lost_append, sent_append, unsent, List.append_nil, ← Multiset.coe_add,
      ← Multiset.coe_add, ← conserved]
    abel
  · rw [sent_append, unsent, List.append_nil]
    exact agrees.last

theorem Agrees.accept (agrees : Agrees entries ledger) {entry : Entry Message}
    (accepted : ledger.accept entry = some next) : Agrees (entries ++ [entry]) next := by
  cases entry with
  | sent message =>
    cases accepted
    refine ⟨?_, ?_, fun alone => ⟨message, rfl, ?_⟩⟩
    · rw [delivered_append, lost_append, sent_append, ← Multiset.coe_add, ← Multiset.coe_add,
        ← Multiset.coe_add, ← agrees.conserved, ← Multiset.singleton_add]
      show {message} + ledger.underWay + (_ + 0) + (_ + 0) = _ + {message}
      abel
    · rw [sent_append]
      exact List.getLast?_concat.symm
    · rw [of_decide_eq_true alone]
      exact le_refl _
  | delivered message =>
    obtain ⟨member, rfl⟩ := take?_eq_some accepted
    exact agrees.takeOut member rfl (add_zero _)
  | lost message =>
    obtain ⟨member, rfl⟩ := take?_eq_some accepted
    exact agrees.takeOut member rfl (zero_add _)

/-- Everything that has been sent is under way, delivered or lost. -/
theorem agrees_of_accepts (accepted : accepts accept empty entries = some ledger) :
    Agrees entries ledger :=
  accepts_invariant accept Agrees agrees_empty
    (fun _ _ _ _ agrees accepted => agrees.accept accepted) accepted

/-- What can be delivered is under way. -/
theorem mem_of_accept_delivered (accepted : ledger.accept (.delivered message) = some next) :
    message ∈ ledger.underWay :=
  (take?_eq_some accepted).1

/-- Every delivery is the delivery of a message of its own that was sent before. -/
theorem delivered_le_sent (accepted : accepts accept empty entries = some ledger)
    (delivers : ledger.accept (.delivered message) = some next) :
    message ::ₘ (delivered entries : Multiset Message) ≤ (sent entries : Multiset Message) := by
  have member := mem_of_accept_delivered delivers
  rw [← (agrees_of_accepts accepted).conserved, ← Multiset.cons_erase member, Multiset.cons_add,
    Multiset.cons_add]
  refine Multiset.cons_le_cons message ?_
  rw [add_right_comm]
  exact Multiset.le_add_left _ _

/-- As long as nothing is sent the ledger remembers how the last message was sent. -/
theorem alone_of_accepts (accepted : accepts accept ledger word = some next)
    (noneSent : sent word = []) : next.alone = ledger.alone := by
  induction word generalizing ledger with
  | nil =>
    cases accepted
    rfl
  | cons entry word inductionHypothesis =>
    rw [accepts_cons] at accepted
    obtain ⟨middle, first, rest⟩ := Option.bind_eq_some_iff.mp accepted
    cases entry with
    | sent message => cases noneSent
    | delivered message | lost message =>
      rw [inductionHypothesis rest noneSent, (take?_eq_some first).2]

/-- A message is sent alone when as many have been delivered or lost as were sent before it. -/
theorem alone_of_settled {before : List (Entry Message)}
    (accepted : accepts accept empty (before ++ [.sent message] ++ word) = some ledger)
    (settled : (sent before).length = (delivered before).length + (lost before).length)
    (noneSent : sent word = []) : ledger.alone = true := by
  obtain ⟨middle, first, rest⟩ := accepts_append_eq_some accept accepted
  obtain ⟨start, before', last⟩ := accepts_append_eq_some accept first
  rw [accepts_singleton] at last
  cases last
  rw [alone_of_accepts rest noneSent]
  refine decide_eq_true ?_
  have conserved := congrArg Multiset.card (agrees_of_accepts before').conserved
  rw [Multiset.card_add, Multiset.card_add, Multiset.coe_card, Multiset.coe_card,
    Multiset.coe_card, settled] at conserved
  exact Multiset.card_eq_zero.mp (by omega)

/-- What is delivered after a message that was sent alone is that message. -/
theorem delivered_eq_last (accepted : accepts accept empty entries = some ledger)
    (alone : ledger.alone = true)
    (delivers : ledger.accept (.delivered message) = some next) :
    (sent entries).getLast? = some message := by
  have agrees := agrees_of_accepts accepted
  obtain ⟨last, same, only⟩ := agrees.alone alone
  have member := Multiset.mem_of_le only (mem_of_accept_delivered delivers)
  rw [← agrees.last, same, Multiset.mem_singleton.mp member]

end Entries

end Ledger

end Runs
