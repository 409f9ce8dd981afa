/-
This file is about one process that calls `readline` on several descriptors. The
buffer of `readline.c` is static: it belongs to the process, not to a descriptor,
and `my_read` looks at its descriptor only when the buffer is empty.

The byte-at-a-time `readline` keeps descriptors apart whatever the order of the
calls. The buffered one does so in every run in which no call finds in the buffer
what was read ahead on another descriptor, and delivers the other descriptor's
bytes otherwise.
-/

import Mathlib.Logic.Function.Basic
import SocketProgram.Readline

namespace SocketProgram

open Source

variable {Fd : Type*}

/-! ### Sessions -/

/-- A call of `readline`: the descriptor and `maxlen`. -/
abbrev ReadlineCall (Fd : Type*) := Fd × Nat

/-- What a sequence of calls gives, each result with its descriptor. `none` when some call
never returns. -/
def session {Process : Type*} (call : Fd → Nat → Process → Option (Return × Process)) :
    Process → List (ReadlineCall Fd) → Option (List (Fd × Return))
  | _, [] => some []
  | process, (fd, maxlen) :: calls =>
    match call fd maxlen process with
    | none => none
    | some (ret, next) => (session call next calls).map fun results => (fd, ret) :: results

/-! ### A shared buffer -/

/-- A process that has not called `readline` yet. -/
def freshProcess (queues : Fd → List Arrival) : LineBuffer × (Fd → List Arrival) :=
  (LineBuffer.zero, queues)

/-- The buffer is ahead on the descriptor of the last call that read, and on no other. -/
structure AheadOnLast (process : LineBuffer × (Fd → List Arrival)) (last : Option Fd)
    (queues : Fd → List Arrival) : Prop where
  sound : process.1.Sound
  ahead : ∀ fd, last = some fd → process.1.unread.map Arrival.byte ++ process.2 fd = queues fd
  level : ∀ fd, last ≠ some fd → process.2 fd = queues fd

theorem aheadOnLast_fresh (queues : Fd → List Arrival) :
    AheadOnLast (freshProcess queues) none queues where
  sound := LineBuffer.sound_zero
  ahead := nofun
  level _ _ := rfl

/-- An empty buffer is ahead on no descriptor. -/
theorem AheadOnLast.level_of_empty {process : LineBuffer × (Fd → List Arrival)}
    {last : Option Fd} {queues : Fd → List Arrival} (ahead : AheadOnLast process last queues)
    (empty : process.1.cnt ≤ 0) (fd : Fd) : process.2 fd = queues fd := by
  by_cases same : last = some fd
  · have behind := ahead.ahead fd same
    rw [LineBuffer.unread_of_nonpos empty] at behind
    exact behind
  · exact ahead.level fd same

theorem AheadOnLast.ahead_on {process : LineBuffer × (Fd → List Arrival)} {last : Option Fd}
    {queues : Fd → List Arrival} (ahead : AheadOnLast process last queues) {fd : Fd}
    (clean : last ≠ some fd → process.1.cnt ≤ 0) :
    Ahead (process.1, process.2 fd) (queues fd) := by
  refine ⟨ahead.sound, ?_⟩
  by_cases same : last = some fd
  · exact ahead.ahead fd same
  · rw [LineBuffer.unread_of_nonpos (clean same)]
    exact ahead.level fd same

/-! ### Keeping descriptors apart -/

variable [DecidableEq Fd]

/-- The calls, or the results, on one descriptor. -/
def on {Value : Type*} (fd : Fd) (list : List (Fd × Value)) : List (Fd × Value) :=
  list.filter fun item => decide (item.1 = fd)

/-- A sequence of calls keeps descriptors apart: on each of them it gives what the calls on
that descriptor alone would have given, and if it never returns then neither would the calls
on some descriptor alone. -/
def KeptApart {Process : Type*} (call : Fd → Nat → Process → Option (Return × Process))
    (process : Process) (calls : List (ReadlineCall Fd)) : Prop :=
  (∀ results, session call process calls = some results →
    ∀ fd, session call process (on fd calls) = some (on fd results)) ∧
  (session call process calls = none → ∃ fd, session call process (on fd calls) = none)

/-- `readline` of `readline1.c` in a process: each descriptor is its queue. -/
def callReadline1 (split : Fd → Split) (fd : Fd) (maxlen : Nat) (queues : Fd → List Arrival) :
    Option (Return × (Fd → List Arrival)) :=
  (readline1 (split fd) maxlen (queues fd)).map fun answer =>
    (answer.1, Function.update queues fd answer.2)

/-- `readline` of `readline.c` in a process: one buffer for all the descriptors. -/
def callReadline (split : Fd → Split) (fd : Fd) (maxlen : Nat)
    (process : LineBuffer × (Fd → List Arrival)) :
    Option (Return × LineBuffer × (Fd → List Arrival)) :=
  (readline (split fd) maxlen (process.1, process.2 fd)).map fun answer =>
    (answer.1, answer.2.1, Function.update process.2 fd answer.2.2)

/-! ### The byte-at-a-time version keeps descriptors apart -/

theorem on_cons_self {Value : Type*} (fd : Fd) (value : Value) (list : List (Fd × Value)) :
    on fd ((fd, value) :: list) = (fd, value) :: on fd list :=
  List.filter_cons_of_pos (decide_eq_true rfl)

theorem on_cons_of_ne {Value : Type*} {fd other : Fd} (different : other ≠ fd) (value : Value)
    (list : List (Fd × Value)) : on fd ((other, value) :: list) = on fd list :=
  List.filter_cons_of_neg (by simpa using different)

theorem mem_on {Value : Type*} {fd : Fd} {list : List (Fd × Value)} {item : Fd × Value}
    (member : item ∈ on fd list) : item.1 = fd :=
  of_decide_eq_true (List.mem_filter.mp member).2

/-- Calls on one descriptor do not look at the queues of the others. -/
theorem session_readline1_congr (split : Fd → Split) (fd : Fd) (calls : List (ReadlineCall Fd))
    (single : ∀ call ∈ calls, call.1 = fd) (queues queues' : Fd → List Arrival)
    (same : queues fd = queues' fd) :
    session (callReadline1 split) queues calls = session (callReadline1 split) queues' calls := by
  induction calls generalizing queues queues' with
  | nil => rfl
  | cons call calls inductionHypothesis =>
    obtain ⟨fd', maxlen⟩ := call
    obtain rfl : fd' = fd := single _ List.mem_cons_self
    rw [session, session, callReadline1, callReadline1, same]
    cases readline1 (split fd') maxlen (queues' fd') with
    | none => rfl
    | some answer =>
      have later := inductionHypothesis (fun call member => single call (.tail _ member))
        (Function.update queues fd' answer.2) (Function.update queues' fd' answer.2)
        (by rw [Function.update_self, Function.update_self])
      simp only [Option.map_some, later]

/-- The byte-at-a-time version keeps descriptors apart, whatever the calls. -/
theorem readline1_keptApart (split : Fd → Split) (queues : Fd → List Arrival)
    (calls : List (ReadlineCall Fd)) : KeptApart (callReadline1 split) queues calls := by
  induction calls generalizing queues with
  | nil => exact ⟨fun results same _ => by cases same; rfl, nofun⟩
  | cons call calls inductionHypothesis =>
    obtain ⟨fd, maxlen⟩ := call
    cases called : callReadline1 split fd maxlen queues with
    | none =>
      refine ⟨?_, fun _ => ⟨fd, ?_⟩⟩
      · intro results same
        rw [session, called] at same
        cases same
      · rw [on_cons_self, session, called]
    | some answer =>
      obtain ⟨ret, next⟩ := answer
      -- What a call leaves of the other descriptors is what it found.
      have untouched : ∀ other, other ≠ fd → next other = queues other := by
        intro other different
        obtain ⟨_, _, same⟩ := Option.map_eq_some_iff.mp called
        rw [← (Prod.mk.inj same).2, Function.update_of_ne different]
      have alone : ∀ other,
        session (callReadline1 split) queues (on other ((fd, maxlen) :: calls)) =
          if fd = other then
            (session (callReadline1 split) next (on other calls)).map ((fd, ret) :: ·)
          else session (callReadline1 split) next (on other calls) := by
        intro other
        by_cases same : fd = other
        · subst same
          rw [on_cons_self, session, called, if_pos rfl]
        · rw [on_cons_of_ne same, if_neg same]
          exact session_readline1_congr split other _ (fun call member => mem_on member) _ _
            (untouched other (Ne.symm same)).symm
      obtain ⟨returned, blocked⟩ := inductionHypothesis next
      refine ⟨?_, ?_⟩
      · intro results same other
        rw [session, called] at same
        obtain ⟨rest, later, rfl⟩ := Option.map_eq_some_iff.mp same
        rw [alone other, returned rest later other]
        by_cases here : fd = other
        · subst here
          rw [if_pos rfl, on_cons_self]
          rfl
        · rw [if_neg here, on_cons_of_ne here]
      · intro never
        rw [session, called] at never
        obtain ⟨other, stuck⟩ := blocked (Option.map_eq_none_iff.mp never)
        refine ⟨other, ?_⟩
        rw [alone other, stuck]
        split <;> rfl

/-! ### The buffered version -/

/-- No call of the sequence that reads finds in the buffer what was read ahead on another
descriptor: whenever it is on another descriptor than the last call that read, the buffer is
empty. -/
def NoReadAhead (split : Fd → Split) :
    LineBuffer × (Fd → List Arrival) → Option Fd → List (ReadlineCall Fd) → Prop
  | _, _, [] => True
  | process, last, (fd, maxlen) :: calls =>
    (1 < maxlen → last ≠ some fd → process.1.cnt ≤ 0) ∧
    ∀ ret next, callReadline split fd maxlen process = some (ret, next) →
      NoReadAhead split next (if 1 < maxlen then some fd else last) calls

/-- A call on a descriptor leaves the buffer ahead on that one. -/
theorem AheadOnLast.called {process : LineBuffer × (Fd → List Arrival)} {last : Option Fd}
    {queues : Fd → List Arrival} (ahead : AheadOnLast process last queues) {fd : Fd}
    (clean : last ≠ some fd → process.1.cnt ≤ 0) {buffer : LineBuffer}
    {queue queue' : List Arrival} (relation : Ahead (buffer, queue) queue') :
    AheadOnLast (buffer, Function.update process.2 fd queue) (some fd)
      (Function.update queues fd queue') where
  sound := relation.1
  ahead other same := by
    obtain rfl := Option.some.inj same
    show buffer.unread.map Arrival.byte ++ Function.update process.2 fd queue fd = _
    rw [Function.update_self, Function.update_self]
    exact relation.2
  level other different := by
    have different' : other ≠ fd := fun same => different (congrArg some same.symm)
    show Function.update process.2 fd queue other = _
    rw [Function.update_of_ne different', Function.update_of_ne different']
    by_cases same : last = some fd
    · exact ahead.level other fun same' => different (same.symm.trans same')
    · exact ahead.level_of_empty (clean same) other

/-- A call that leaves the loop at its first test reads nothing. -/
theorem readline_of_not_lt {split : Split} {maxlen : Nat} (short : ¬ 1 < maxlen)
    (source : LineBuffer × List Arrival) :
    readline split maxlen source = some (Frame.enter.filled, source) :=
  Loop.run_finish (decide_eq_false short)

theorem readline1_of_not_lt {split : Split} {maxlen : Nat} (short : ¬ 1 < maxlen)
    (queue : List Arrival) : readline1 split maxlen queue = some (Frame.enter.filled, queue) :=
  readline1Loop_finish short

/-- One call that does not find another descriptor's bytes in the buffer. -/
theorem callReadline_agree (split split' : Fd → Split) (fd : Fd) (maxlen : Nat)
    (process : LineBuffer × (Fd → List Arrival)) (last : Option Fd) (queues : Fd → List Arrival)
    (ahead : AheadOnLast process last queues)
    (clean : 1 < maxlen → last ≠ some fd → process.1.cnt ≤ 0) :
    Agree (fun process queues =>
        AheadOnLast process (if 1 < maxlen then some fd else last) queues)
      (callReadline split fd maxlen process) (callReadline1 split' fd maxlen queues) := by
  rw [callReadline, callReadline1]
  by_cases long : 1 < maxlen
  · have agree := readline_agree (split fd) (split' fd) maxlen _ _ (ahead.ahead_on (clean long))
    rw [if_pos long]
    revert agree
    generalize readline (split fd) maxlen (process.1, process.2 fd) = answer
    generalize readline1 (split' fd) maxlen (queues fd) = answer'
    intro agree
    cases agree with
    | blocked => exact .blocked
    | replied relation => exact .replied (ahead.called (clean long) relation)
  · rw [readline_of_not_lt long, readline1_of_not_lt long, if_neg long]
    simp only [Option.map_some, Function.update_eq_self]
    exact .replied ahead

/-- While no call finds another descriptor's bytes in the buffer, the buffered version gives
what the byte-at-a-time version gives. -/
theorem session_readline_eq (split split' : Fd → Split) (calls : List (ReadlineCall Fd))
    (process : LineBuffer × (Fd → List Arrival)) (last : Option Fd) (queues : Fd → List Arrival)
    (ahead : AheadOnLast process last queues) (clean : NoReadAhead split process last calls) :
    session (callReadline split) process calls = session (callReadline1 split') queues calls := by
  induction calls generalizing process last queues with
  | nil => rfl
  | cons call calls inductionHypothesis =>
    obtain ⟨fd, maxlen⟩ := call
    obtain ⟨empty, later⟩ := clean
    have agree := callReadline_agree split split' fd maxlen process last queues ahead empty
    rw [session, session]
    cases called : callReadline split fd maxlen process with
    | none =>
      rw [called] at agree
      rw [agree.of_none]
    | some answer =>
      obtain ⟨ret, next⟩ := answer
      rw [called] at agree
      obtain ⟨next', called', ahead'⟩ := agree.of_some
      rw [called']
      dsimp only
      rw [inductionHypothesis next _ next' ahead' (later ret next called)]

/-- Calls on one descriptor never find another descriptor's bytes. -/
theorem noReadAhead_single (split : Fd → Split) (fd : Fd) (calls : List (ReadlineCall Fd))
    (single : ∀ call ∈ calls, call.1 = fd) (process : LineBuffer × (Fd → List Arrival))
    (last : Option Fd) (owned : last = some fd ∨ process.1.cnt ≤ 0 ∧ last = none) :
    NoReadAhead split process last calls := by
  induction calls generalizing process last with
  | nil => trivial
  | cons call calls inductionHypothesis =>
    obtain ⟨fd', maxlen⟩ := call
    obtain rfl : fd' = fd := single _ List.mem_cons_self
    refine ⟨?_, ?_⟩
    · intro _ different
      rcases owned with same | ⟨empty, _⟩
      · exact absurd same different
      · exact empty
    · intro ret next called
      refine inductionHypothesis (fun call member => single call (.tail _ member)) next _ ?_
      by_cases long : 1 < maxlen
      · exact Or.inl (if_pos long)
      · rw [callReadline, readline_of_not_lt long] at called
        obtain ⟨_, rfl⟩ := Prod.mk.inj (Option.some.inj called)
        rw [if_neg long]
        exact owned

/-- The calls on one descriptor alone give what the byte-at-a-time version gives. -/
theorem session_alone (split split' : Fd → Split) (queues : Fd → List Arrival) (fd : Fd)
    (calls : List (ReadlineCall Fd)) :
    session (callReadline split) (freshProcess queues) (on fd calls) =
      session (callReadline1 split') queues (on fd calls) :=
  session_readline_eq split split' _ _ none queues (aheadOnLast_fresh queues)
    (noReadAhead_single split fd _ (fun _ member => mem_on member) _ none
      (Or.inr ⟨Int.le_refl 0, rfl⟩))

/-- The buffered version keeps descriptors apart in every run in which no call that reads
finds in the buffer what was read ahead on another descriptor. -/
theorem readline_keptApart (split : Fd → Split) (queues : Fd → List Arrival)
    (calls : List (ReadlineCall Fd)) (clean : NoReadAhead split (freshProcess queues) none calls) :
    KeptApart (callReadline split) (freshProcess queues) calls := by
  obtain ⟨returned, blocked⟩ := readline1_keptApart split queues calls
  rw [KeptApart, session_readline_eq split split calls _ none queues (aheadOnLast_fresh queues)
    clean]
  simp only [session_alone split split]
  exact ⟨returned, blocked⟩

/-- A call that finds read-ahead in the buffer hands it over first, whatever its descriptor and
whatever has arrived there. -/
theorem readAhead_comes_first (split : Fd → Split) (fd : Fd) {maxlen : Nat} (long : 1 < maxlen)
    {process next : LineBuffer × (Fd → List Arrival)} (sound : process.1.Sound)
    (ahead : 0 < process.1.cnt) {ret : Return}
    (returned : callReadline split fd maxlen process = some (ret, next)) :
    ∃ c rest, process.1.unread = c :: rest ∧ [c] <+: ret.stored := by
  obtain ⟨c, reply, unread, _⟩ := LineBuffer.deliver_spec sound ahead
  refine ⟨c, _, unread, ?_⟩
  obtain ⟨⟨ret', source⟩, result, same⟩ := Option.map_eq_some_iff.mp returned
  obtain rfl : ret' = ret := congrArg Prod.fst same
  have pulled : myRead (split fd) (process.1, process.2 fd) =
      some (⟨1, c⟩, process.1.deliver.2, process.2 fd) := by
    rw [myRead, if_neg (Int.not_le.mpr ahead), reply]
  have stored : [c] <+: (readlineBody ⟨1, c⟩ Frame.enter).elim Return.stored Frame.stored := by
    unfold readlineBody
    rw [if_pos rfl]
    split_ifs
    · exact ⟨[0], rfl⟩
    · exact List.prefix_refl _
  have more : (readlineLoop maxlen).more Frame.enter = true := decide_eq_true long
  unfold readline at result
  cases body : readlineBody ⟨1, c⟩ Frame.enter with
  | inl first =>
    rw [Loop.run_return more pulled body] at result
    obtain ⟨rfl, _⟩ := Prod.mk.inj (Option.some.inj result)
    rw [body] at stored
    exact stored
  | inr frame =>
    rw [Loop.run_round more pulled body] at result
    rw [body] at stored
    refine Loop.run_invariant (fun frame => [c] <+: frame.stored)
      (fun ret => [c] <+: ret.stored) ?_ ?_ ?_ result stored
    · intro reply frame next entered round
      have grown := stored_of_readlineBody reply frame
      rw [show readlineBody reply frame = .inr next from round] at grown
      exact entered.trans grown
    · intro reply frame ret entered round
      have grown := stored_of_readlineBody reply frame
      rw [show readlineBody reply frame = .inl ret from round] at grown
      exact entered.trans grown
    · intro frame entered
      exact entered.trans (List.prefix_append _ _)

/-- A descriptor on which these bytes arrive, and nothing more yet. -/
def arriving (bytes : List Byte) : List Arrival := bytes.map Arrival.byte

/-- Descriptor 3 with the lines `a` and `b`, descriptor 4 with the line `c`. -/
def twoDescriptors (fd : Int) : List Arrival :=
  if fd = 3 then arriving [97, 10, 98, 10] else if fd = 4 then arriving [99, 10] else []

/-- `read` hands over a line at a time. -/
def lineAtATime : Split := fun _ _ => 2

/-- `read` hands over everything that has arrived. -/
def everything : Split := fun queue _ => queue.length

/-- When the two lines arrive in their own segments, reading one and then the other
descriptor keeps them apart. -/
theorem readline_keptApart_lineAtATime :
    KeptApart (callReadline fun _ => lineAtATime) (freshProcess twoDescriptors)
      [((3 : Int), maxline), (4, maxline)] := by
  refine readline_keptApart (fun _ => lineAtATime) twoDescriptors [(3, maxline), (4, maxline)]
    ⟨fun _ _ => Int.le_refl 0, fun ret next called => ⟨fun _ _ => ?_, fun _ _ _ => trivial⟩⟩
  have emptied : (callReadline (fun _ => lineAtATime) (3 : Int) maxline
      (freshProcess twoDescriptors)).map (fun answer => answer.2.1.cnt) = some 0 := by
    decide +kernel
  rw [called] at emptied
  exact Int.le_of_eq (Option.some.inj emptied)

/-- When both lines of descriptor 3 come with one `read`, the call on descriptor 4 is given
the second of them. -/
theorem not_readline_keptApart_everything :
    ¬ KeptApart (callReadline fun _ => everything) (freshProcess twoDescriptors)
      [((3 : Int), maxline), (4, maxline)] := by
  rintro ⟨returned, _⟩
  have together : session (callReadline fun _ => everything) (freshProcess twoDescriptors)
      [((3 : Int), maxline), (4, maxline)] =
        some [(3, ⟨2, [97, 10, 0]⟩), (4, ⟨2, [98, 10, 0]⟩)] := by
    decide +kernel
  have alone : session (callReadline fun _ => everything) (freshProcess twoDescriptors)
      [((4 : Int), maxline)] = some [(4, ⟨2, [99, 10, 0]⟩)] := by
    decide +kernel
  have same := returned _ together 4
  have calls : on (4 : Int) [((3 : Int), maxline), (4, maxline)] = [(4, maxline)] := by decide
  rw [calls, alone] at same
  exact absurd same (by decide)

end SocketProgram
