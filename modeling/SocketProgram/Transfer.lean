/-
This file models `written` and `readn` of `lib/`: the loops that go on calling
`write` until all of a buffer is written and `read` until all of a buffer is
filled. Each is the text of a loop that waits for the result of one system call at
a time, so that whatever shares the descriptor can step in between.

What a caller needs to know of a call in progress is how far it has come: how many
bytes of the buffer `ptr` has passed, and that `nleft` is what remains.
-/

import SocketProgram.Kernel
import SocketProgram.Library.Source

namespace SocketProgram

open Source

/-! ### `written` -/

/-- The locals of `written`: `nleft`, and `ptr` as an offset from `vptr`. -/
structure WrittenFrame where
  nleft : Nat
  ptr : Nat
  deriving DecidableEq, Repr

namespace WrittenFrame

/-- The locals at the first test of the loop. -/
def enter (n : Nat) : WrittenFrame := ⟨n, 0⟩

/-- `nleft -= nwritten; ptr += nwritten;`. -/
def advance (frame : WrittenFrame) (nwritten : Nat) : WrittenFrame :=
  ⟨frame.nleft - nwritten, frame.ptr + nwritten⟩

/-- The bytes `write(fd,ptr,nleft)` is offered. -/
def offered (vptr : List Byte) (frame : WrittenFrame) : List Byte :=
  (vptr.drop frame.ptr).take frame.nleft

end WrittenFrame

/-- `written(fd,vptr,n)`, one `write` at a time. -/
def written (n : Nat) : Text WriteOutcome WrittenFrame Int where
  more frame := decide (0 < frame.nleft)
  finish _ := n
  body outcome frame :=
    if outcome.value ≤ 0 then
      if outcome.value < 0 ∧ outcome.errno? = some .eintr then .inr (frame.advance 0)
      else .inl (-1)
    else .inr (frame.advance outcome.value.toNat)

/-- How far a call of `written` has come: it has returned with everything written, or waits
for its next `write` with `passed` bytes behind it. -/
def WrittenUpTo (n passed : Nat) : Int ⊕ WrittenFrame → Prop
  | .inl value => value = n ∧ passed = n
  | .inr frame => frame.ptr = passed ∧ passed + frame.nleft = n ∧ 0 < frame.nleft

theorem written_test {n : Nat} {frame : WrittenFrame} (inside : frame.ptr + frame.nleft = n) :
    WrittenUpTo n frame.ptr ((written n).test frame) := by
  by_cases left : 0 < frame.nleft
  · rw [Text.test_more (decide_eq_true left)]
    exact ⟨rfl, inside, left⟩
  · rw [Text.test_over (decide_eq_false left)]
    exact ⟨rfl, by omega⟩

theorem written_enter (n : Nat) : WrittenUpTo n 0 ((written n).test (.enter n)) :=
  written_test (Nat.zero_add n)

/-- A `write` that moves bytes takes the loop on. -/
theorem written_body_wrote (n : Nat) {count : Nat} (frame : WrittenFrame) (positive : 0 < count) :
    (written n).body (.wrote count) frame = .inr (frame.advance count) := by
  refine if_neg ?_
  rw [WriteOutcome.value_wrote]
  omega

theorem written_round_wrote {n count : Nat} {frame : WrittenFrame}
    (inside : frame.ptr + frame.nleft = n) (positive : 0 < count) (fits : count ≤ frame.nleft) :
    WrittenUpTo n (frame.ptr + count) ((written n).round (.wrote count) frame) := by
  have inside' : (frame.advance count).ptr + (frame.advance count).nleft = n := by
    show frame.ptr + count + (frame.nleft - count) = n
    omega
  rw [Text.round_next (written_body_wrote n frame positive)]
  exact written_test inside'

theorem written_round_interrupted {n : Nat} {frame : WrittenFrame} (left : 0 < frame.nleft) :
    (written n).round (.error .eintr) frame = .inr frame := by
  have body : (written n).body (.error .eintr) frame = .inr (frame.advance 0) := rfl
  rw [Text.round_next body]
  exact Text.test_more (decide_eq_true left)

/-- Past the bytes it has written a call offers the ones that are left. -/
theorem offered_eq_drop {vptr : List Byte} {frame : WrittenFrame}
    (inside : frame.ptr + frame.nleft = vptr.length) :
    frame.offered vptr = vptr.drop frame.ptr := by
  refine List.take_of_length_le ?_
  rw [List.length_drop]
  omega

/-- What a call of `written` has still to write. -/
def owed (vptr : List Byte) : Int ⊕ WrittenFrame → List Byte
  | .inl _ => []
  | .inr frame => frame.offered vptr

theorem owed_test (n : Nat) (vptr : List Byte) (frame : WrittenFrame) :
    owed vptr ((written n).test frame) = frame.offered vptr := by
  by_cases left : 0 < frame.nleft
  · rw [Text.test_more (decide_eq_true left), owed]
  · rw [Text.test_over (decide_eq_false left), owed, WrittenFrame.offered,
      Nat.eq_zero_of_not_pos left, List.take_zero]

/-- A `write` that moves bytes takes them from what is owed. -/
theorem owed_round_wrote (n : Nat) (vptr : List Byte) {count : Nat} (frame : WrittenFrame)
    (positive : 0 < count) :
    (frame.offered vptr).take count ++ owed vptr ((written n).round (.wrote count) frame) =
      frame.offered vptr := by
  have rest : (frame.advance count).offered vptr = (frame.offered vptr).drop count := by
    rw [WrittenFrame.offered, WrittenFrame.offered, List.drop_take, List.drop_drop]
    rfl
  rw [Text.round_next (written_body_wrote n frame positive), owed_test, rest,
    List.take_append_drop]

theorem owed_round_interrupted (n : Nat) (vptr : List Byte) (frame : WrittenFrame) :
    owed vptr ((written n).round (.error .eintr) frame) = frame.offered vptr := by
  have body : (written n).body (.error .eintr) frame = .inr (frame.advance 0) := rfl
  rw [Text.round_next body, owed_test]
  rfl

/-- A `write` to a channel moves bytes from what is owed to the channel. -/
theorem owed_round (n : Nat) {vptr channel channel' : List Byte} {frame : WrittenFrame}
    {outcome : WriteOutcome}
    (writes : ChannelWrite (frame.offered vptr) channel outcome channel') :
    channel' ++ owed vptr ((written n).round outcome frame) =
      channel ++ frame.offered vptr := by
  cases writes with
  | wrote count positive fits =>
    rw [List.append_assoc, owed_round_wrote n vptr frame positive]
  | interrupted => rw [owed_round_interrupted]

/-! ### `readn` -/

/-- What a call of `readn` leaves its caller: the value it returned and the bytes it stored
from `vptr` on. -/
structure ReadnReturn where
  value : Int
  stored : List Byte
  deriving DecidableEq, Repr

/-- The locals of `readn`: `nleft`, and the bytes `ptr` has passed. -/
structure ReadnFrame where
  nleft : Nat
  stored : List Byte
  deriving DecidableEq, Repr

namespace ReadnFrame

/-- The locals at the first test of the loop. -/
def enter (n : Nat) : ReadnFrame := ⟨n, []⟩

/-- `nleft -= nread; ptr += nread;`. -/
def advance (frame : ReadnFrame) (bytes : List Byte) : ReadnFrame :=
  ⟨frame.nleft - bytes.length, frame.stored ++ bytes⟩

/-- `return (n-nleft)`. -/
def counted (n : Nat) (frame : ReadnFrame) : ReadnReturn := ⟨(n : Int) - frame.nleft, frame.stored⟩

end ReadnFrame

/-- `readn(fd,vptr,n)`, one `read` at a time. -/
def readn (n : Nat) : Text ReadOutcome ReadnFrame ReadnReturn where
  more frame := decide (0 < frame.nleft)
  finish frame := frame.counted n
  body outcome frame :=
    if outcome.value < 0 then
      if outcome.errno? = some .eintr then .inr (frame.advance [])
      else .inl ⟨-1, frame.stored⟩
    else if outcome.value = 0 then .inl (frame.counted n)
    else .inr (frame.advance outcome.bytes)

/-- How far a call of `readn` has come: it has returned with its buffer full, or waits for its
next `read` with these bytes stored. -/
def ReadnUpTo (n : Nat) (stored : List Byte) : ReadnReturn ⊕ ReadnFrame → Prop
  | .inl ret => ret = ⟨n, stored⟩ ∧ stored.length = n
  | .inr frame => frame.stored = stored ∧ stored.length + frame.nleft = n ∧ 0 < frame.nleft

theorem readn_test {n : Nat} {frame : ReadnFrame}
    (inside : frame.stored.length + frame.nleft = n) :
    ReadnUpTo n frame.stored ((readn n).test frame) := by
  by_cases left : 0 < frame.nleft
  · rw [Text.test_more (decide_eq_true left)]
    exact ⟨rfl, inside, left⟩
  · have value : (n : Int) - frame.nleft = n := by omega
    rw [Text.test_over (decide_eq_false left)]
    exact ⟨congrArg (ReadnReturn.mk · frame.stored) value, by omega⟩

theorem readn_enter (n : Nat) : ReadnUpTo n [] ((readn n).test (.enter n)) :=
  readn_test (Nat.zero_add n)

theorem readn_round_data {n : Nat} {frame : ReadnFrame} {bytes : List Byte}
    (inside : frame.stored.length + frame.nleft = n) (nonempty : bytes ≠ [])
    (fits : bytes.length ≤ frame.nleft) :
    ReadnUpTo n (frame.stored ++ bytes) ((readn n).round (.data bytes) frame) := by
  have positive := List.length_pos_iff.mpr nonempty
  have body : (readn n).body (.data bytes) frame = .inr (frame.advance bytes) := by
    rw [readn]
    dsimp only
    rw [ReadOutcome.value_data, if_neg (by omega), if_neg (by omega)]
    rfl
  have inside' : (frame.advance bytes).stored.length + (frame.advance bytes).nleft = n := by
    show (frame.stored ++ bytes).length + (frame.nleft - bytes.length) = n
    rw [List.length_append]
    omega
  rw [Text.round_next body]
  exact readn_test inside'

theorem readn_round_interrupted {n : Nat} {frame : ReadnFrame} (left : 0 < frame.nleft) :
    (readn n).round (.error .eintr) frame = .inr frame := by
  have body : (readn n).body (.error .eintr) frame = .inr frame := by
    show Sum.inr (frame.advance []) = _
    rw [ReadnFrame.advance, List.append_nil]
    rfl
  rw [Text.round_next body]
  exact Text.test_more (decide_eq_true left)

/-- At the end of the file `readn` returns what it has. -/
theorem readn_round_eof {n : Nat} {frame : ReadnFrame}
    (inside : frame.stored.length + frame.nleft = n) :
    (readn n).round (.data []) frame = .inl ⟨frame.stored.length, frame.stored⟩ := by
  have value : (n : Int) - frame.nleft = frame.stored.length := by omega
  have body : (readn n).body (.data []) frame = .inl ⟨frame.stored.length, frame.stored⟩ :=
    congrArg (fun value => Sum.inl (ReadnReturn.mk value frame.stored)) value
  exact Text.round_return body

end SocketProgram
