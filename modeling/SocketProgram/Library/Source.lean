/-
This file is the theory of loops that pull from a source. A source answers a
request with a reply and the source it has become, or blocks. A loop tests its
frame, pulls one reply, and either goes round with another frame or returns.

A loop is run over a source to its end, or one reply at a time when others step in
between. The rule of the file is that a loop cannot tell related sources apart: when
two sources give the same replies from related states and stay related, every loop
over them returns the same and leaves them related.
-/

import Mathlib.Order.Basic

namespace Source

/-- Two answers agree: both sources block, or both give the same reply and have become
related sources. -/
inductive Agree {Reply First Second : Type*} (related : First → Second → Prop) :
    Option (Reply × First) → Option (Reply × Second) → Prop
  | blocked : Agree related none none
  | replied {reply : Reply} {first : First} {second : Second} (relation : related first second) :
      Agree related (some (reply, first)) (some (reply, second))

section Agree

variable {Reply First Second : Type*} {related : First → Second → Prop}

theorem Agree.of_none {answer : Option (Reply × Second)}
    (agree : Agree related (none : Option (Reply × First)) answer) : answer = none := by
  cases agree
  rfl

theorem Agree.of_some {reply : Reply} {first : First} {answer : Option (Reply × Second)}
    (agree : Agree related (some (reply, first)) answer) :
    ∃ second, answer = some (reply, second) ∧ related first second := by
  cases agree with
  | replied relation => exact ⟨_, rfl, relation⟩

end Agree

/-- The text of a loop: the test of its frame, what it returns when the test fails, and its
body on a reply. -/
structure Text (Reply Frame Return : Type*) where
  more : Frame → Bool
  finish : Frame → Return
  body : Reply → Frame → Return ⊕ Frame

namespace Text

variable {Reply Frame Return : Type*} (text : Text Reply Frame Return)

/-- The test of the loop: it returns, or waits in its frame for a reply. -/
def test (frame : Frame) : Return ⊕ Frame :=
  if text.more frame = true then .inr frame else .inl (text.finish frame)

/-- One reply to a waiting loop: it returns, or waits in another frame. -/
def round (reply : Reply) (frame : Frame) : Return ⊕ Frame :=
  match text.body reply frame with
  | .inl ret => .inl ret
  | .inr next => text.test next

variable {text} {reply : Reply} {frame next : Frame} {ret : Return}

theorem test_more (more : text.more frame = true) : text.test frame = .inr frame := if_pos more

theorem test_over (stopped : text.more frame = false) :
    text.test frame = .inl (text.finish frame) :=
  if_neg (by rw [stopped]; exact Bool.false_ne_true)

theorem round_return (returns : text.body reply frame = .inl ret) :
    text.round reply frame = .inl ret := by
  rw [round, returns]

theorem round_next (goes : text.body reply frame = .inr next) :
    text.round reply frame = text.test next := by
  rw [round, goes]

/-- A loop waits only in a frame that has passed its test. -/
theorem frame_of_test (waits : text.test frame = .inr next) :
    frame = next ∧ text.more frame = true := by
  rw [test] at waits
  split_ifs at waits with more
  exact ⟨Sum.inr.inj waits, more⟩

theorem more_of_round (waits : text.round reply frame = .inr next) : text.more next = true := by
  rw [round] at waits
  split at waits
  · cases waits
  · obtain ⟨rfl, more⟩ := frame_of_test waits
    exact more

/-- Two texts that test alike answer alike to replies their bodies take alike. -/
theorem round_congr {Reply' : Type*} {text' : Text Reply' Frame Return} {reply' : Reply'}
    (body : text.body reply frame = text'.body reply' frame) (test : text.test = text'.test) :
    text.round reply frame = text'.round reply' frame := by
  rw [round, round, body, test]

/-! ### A loop that is answered by a stream -/

section Stream

variable {Reply Frame Return : Type*} (text : Text Reply Frame Return) (stream : Nat → Reply)
  (entered : Frame)

/-- A loop after so many replies of a stream: the replies it has taken, each with the frame it
waited in, and where it is. A loop that has returned takes no more. -/
def after : Nat → List (Frame × Reply) × (Return ⊕ Frame)
  | 0 => ([], text.test entered)
  | count + 1 =>
    match after count with
    | (taken, .inl ret) => (taken, .inl ret)
    | (taken, .inr waiting) =>
      (taken ++ [(waiting, stream count)], text.round (stream count) waiting)

variable {text stream entered} {count : Nat} {taken : List (Frame × Reply)} {waiting : Frame}
  {ret : Return}

theorem after_return (returned : text.after stream entered count = (taken, .inl ret)) :
    text.after stream entered (count + 1) = (taken, .inl ret) := by
  rw [after, returned]

theorem after_round (waits : text.after stream entered count = (taken, .inr waiting)) :
    text.after stream entered (count + 1) =
      (taken ++ [(waiting, stream count)], text.round (stream count) waiting) := by
  rw [after, waits]

/-- The rule for what a loop has taken and where it is: what holds when it is entered and is kept
by every round holds after any number of replies. -/
theorem after_invariant (Inv : List (Frame × Reply) → Return ⊕ Frame → Prop)
    (atEntry : Inv [] (text.test entered))
    (kept : ∀ count taken waiting, text.after stream entered count = (taken, .inr waiting) →
      Inv taken (.inr waiting) →
      Inv (taken ++ [(waiting, stream count)]) (text.round (stream count) waiting))
    (count : Nat) :
    Inv (text.after stream entered count).1 (text.after stream entered count).2 := by
  induction count with
  | zero => exact atEntry
  | succ count inductionHypothesis =>
    rcases waits : text.after stream entered count with ⟨taken, ret | waiting⟩
    · rw [after_return waits]
      rw [waits] at inductionHypothesis
      exact inductionHypothesis
    · rw [after_round waits]
      rw [waits] at inductionHypothesis
      exact kept count taken waiting waits inductionHypothesis

theorem more_of_after (waits : text.after stream entered count = (taken, .inr waiting)) :
    text.more waiting = true := by
  have passed : ∀ waiting, (text.after stream entered count).2 = .inr waiting →
      text.more waiting = true :=
    after_invariant
      (fun _ progress => ∀ waiting, progress = .inr waiting → text.more waiting = true)
      (fun _ waits => (frame_of_test waits).1 ▸ (frame_of_test waits).2)
      (fun _ _ _ _ _ _ => more_of_round) count
  rw [waits] at passed
  exact passed waiting rfl

/-- A loop that from some reply on comes nearer to its end in every round returns. -/
theorem returns_of_nearer (distance : Frame → Nat) (last : Nat)
    (nearer : ∀ count, last ≤ count → ∀ waiting next,
      text.round (stream count) waiting = .inr next → distance next < distance waiting) :
    ∃ count taken ret, text.after stream entered count = (taken, .inl ret) := by
  suffices returns : ∀ bound count taken waiting, last ≤ count →
      text.after stream entered count = (taken, .inr waiting) → distance waiting < bound →
      ∃ count taken ret, text.after stream entered count = (taken, .inl ret) by
    rcases waits : text.after stream entered last with ⟨taken, ret | waiting⟩
    · exact ⟨last, taken, ret, waits⟩
    · exact returns _ last taken waiting (Nat.le_refl last) waits (Nat.lt_succ_self _)
  intro bound
  induction bound with
  | zero =>
    intro count taken waiting late waits close
    exact absurd close (Nat.not_lt_zero _)
  | succ bound inductionHypothesis =>
    intro count taken waiting late waits close
    have round := after_round waits
    rcases answered : text.round (stream count) waiting with ret | next
    · rw [answered] at round
      exact ⟨count + 1, _, ret, round⟩
    · rw [answered] at round
      have closer := nearer count late waiting next answered
      exact inductionHypothesis (count + 1) _ next (Nat.le_succ_of_le late) round
        (Nat.lt_of_lt_of_le closer (Nat.le_of_lt_succ close))

end Stream

end Text

/-- A loop whose body brings it nearer to the end whenever it goes round. -/
structure Loop (Reply Frame Return : Type*) extends Text Reply Frame Return where
  distance : Frame → Nat
  nearer : ∀ reply frame next, more frame = true → body reply frame = .inr next →
    distance next < distance frame

namespace Loop

variable {Reply Frame Return : Type*} (loop : Loop Reply Frame Return)

/-- The loop over a source: what it returns and what the source has become, or `none` when
the source blocks. -/
def run {Pulled : Type*} (pull : Pulled → Option (Reply × Pulled)) (source : Pulled)
    (frame : Frame) : Option (Return × Pulled) :=
  if _more : loop.more frame = true then
    match pull source with
    | none => none
    | some (reply, rest) =>
      match _round : loop.body reply frame with
      | .inl ret => some (ret, rest)
      | .inr next => run pull rest next
  else some (loop.finish frame, source)
termination_by loop.distance frame
decreasing_by exact loop.nearer reply frame next _more _round

section Run

variable {loop} {Pulled : Type*} {pull : Pulled → Option (Reply × Pulled)}
  {source rest : Pulled} {frame next : Frame} {reply : Reply} {ret : Return}

theorem run_finish (stopped : loop.more frame = false) :
    loop.run pull source frame = some (loop.finish frame, source) := by
  rw [run, dif_neg (by rw [stopped]; exact Bool.false_ne_true)]

theorem run_blocked (more : loop.more frame = true) (pulled : pull source = none) :
    loop.run pull source frame = none := by
  rw [run, dif_pos more, pulled]

theorem run_return (more : loop.more frame = true) (pulled : pull source = some (reply, rest))
    (round : loop.body reply frame = .inl ret) :
    loop.run pull source frame = some (ret, rest) := by
  rw [run, dif_pos more, pulled]
  dsimp only
  split
  · rename_i other same
    rw [Sum.inl.inj (round.symm.trans same)]
  · rename_i other same
    cases round.symm.trans same

theorem run_round (more : loop.more frame = true) (pulled : pull source = some (reply, rest))
    (round : loop.body reply frame = .inr next) :
    loop.run pull source frame = loop.run pull rest next := by
  rw [run, dif_pos more, pulled]
  dsimp only
  split
  · rename_i other same
    cases round.symm.trans same
  · rename_i other same
    rw [Sum.inr.inj (round.symm.trans same)]

/-- Two sources that give the same next answer are the same to a loop that pulls. -/
theorem run_congr {other : Pulled} (more : loop.more frame = true)
    (same : pull source = pull other) : loop.run pull source frame = loop.run pull other frame := by
  rw [run, dif_pos more, same]
  conv => rhs; rw [run, dif_pos more]

/-- The rule for what a loop returns, whatever its source: what holds of the frame it is entered
with and is kept by every round holds of the result. -/
theorem run_invariant (inv : Frame → Prop) (post : Return → Prop)
    (kept : ∀ reply frame next, inv frame → loop.body reply frame = .inr next → inv next)
    (returns : ∀ reply frame ret, inv frame → loop.body reply frame = .inl ret → post ret)
    (finishes : ∀ frame, inv frame → post (loop.finish frame))
    (result : loop.run pull source frame = some (ret, rest)) (entered : inv frame) :
    post ret := by
  induction source, frame using run.induct loop pull with
  | case1 source frame more blocked =>
    rw [run_blocked more blocked] at result
    cases result
  | case2 source frame more reply rest' pulled ret' round =>
    rw [run_return more pulled round] at result
    obtain ⟨rfl, rfl⟩ := Prod.mk.inj (Option.some.inj result)
    exact returns reply frame ret' entered round
  | case3 source frame more reply rest' pulled next round inductionHypothesis =>
    rw [run_round more pulled round] at result
    exact inductionHypothesis result (kept reply frame next entered round)
  | case4 source frame stopped =>
    rw [run_finish (Bool.not_eq_true _ ▸ stopped)] at result
    obtain ⟨rfl, rfl⟩ := Prod.mk.inj (Option.some.inj result)
    exact finishes frame entered

end Run

/-- A loop cannot tell related sources apart. -/
theorem run_agree {First Second : Type*} {pull : First → Option (Reply × First)}
    {pull' : Second → Option (Reply × Second)} {related : First → Second → Prop}
    (step : ∀ first second, related first second → Agree related (pull first) (pull' second))
    (first : First) (second : Second) (frame : Frame) (relation : related first second) :
    Agree related (loop.run pull first frame) (loop.run pull' second frame) := by
  induction first, frame using run.induct loop pull generalizing second with
  | case1 first frame more blocked =>
    have agree := step first second relation
    rw [blocked] at agree
    rw [run_blocked more blocked, run_blocked more agree.of_none]
    exact .blocked
  | case2 first frame more reply rest pulled ret round =>
    have agree := step first second relation
    rw [pulled] at agree
    obtain ⟨rest', pulled', relation'⟩ := agree.of_some
    rw [run_return more pulled round, run_return more pulled' round]
    exact .replied relation'
  | case3 first frame more reply rest pulled next round inductionHypothesis =>
    have agree := step first second relation
    rw [pulled] at agree
    obtain ⟨rest', pulled', relation'⟩ := agree.of_some
    rw [run_round more pulled round, run_round more pulled' round]
    exact inductionHypothesis rest' relation'
  | case4 first frame stopped =>
    rw [run_finish (Bool.not_eq_true _ ▸ stopped), run_finish (Bool.not_eq_true _ ▸ stopped)]
    exact .replied relation

end Loop

end Source
