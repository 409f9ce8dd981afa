/-
This file is about what one call of either `readline` of `lib/` stores and returns. What is in
front of a reader is a stream of bytes; interrupted calls do not count, and it ends at an
end-of-file mark or an error. A call is to store the longest line at the front of it for which
there is room and a NUL, and to return the length of the line.

The loop counts from one and is left in three ways. At a newline `n` has counted the newline; at
end of file one is taken off again. When the room is used up `n` has been counted up behind the
last byte, and what is returned is one more than has been stored.
-/

import SocketProgram.Readline
import SocketProgram.Stdio

namespace SocketProgram

open Source

/-! ### Lines of a stream -/

/-- The bytes in front of a reader that tries again when it is interrupted. -/
def stream : List Arrival → List Byte
  | .byte c :: rest => c :: stream rest
  | .fail errno :: rest => if errno = .eintr then stream rest else []
  | .eof :: _ => []
  | [] => []

/-- The longest line at the front of some bytes that there is room for. -/
structure IsLongestLine (room : Nat) (bytes line : List Byte) : Prop where
  isLine : IsLine room line
  front : line <+: bytes
  longest : ∀ other, IsLine room other → other <+: bytes → other <+: line

/-- What is left of a line behind its first byte. -/
theorem IsLine.tail {room : Nat} {c : Byte} {line : List Byte}
    (isLine : IsLine (room + 1) (c :: line)) : IsLine room line := by
  refine ⟨Nat.le_of_succ_le_succ isLine.fits, fun first rest split => ?_⟩
  exact isLine.ends (c :: first) rest (congrArg (c :: ·) split)

/-- `fgets` stores the longest line. -/
theorem isLongestLine_fgetsLine (room : Nat) (bytes : List Byte) :
    IsLongestLine room bytes (fgetsLine room bytes) := by
  refine ⟨isLine_fgetsLine room bytes, prefix_fgetsLine room bytes, ?_⟩
  induction room generalizing bytes with
  | zero =>
    intro other isLine front
    rw [List.eq_nil_of_length_eq_zero (Nat.le_zero.mp isLine.fits)]
    exact List.nil_prefix
  | succ room inductionHypothesis =>
    intro other isLine front
    cases other with
    | nil => exact List.nil_prefix
    | cons c other =>
      obtain ⟨rest, rfl⟩ := front
      rw [List.cons_append, fgetsLine]
      split_ifs with same
      · obtain rfl : other = [] := isLine.ends [] other (congrArg (· :: other) same)
        exact List.prefix_refl [c]
      · exact List.cons_prefix_cons.mpr
          ⟨rfl, inductionHypothesis _ other isLine.tail (List.prefix_append other rest)⟩

theorem IsLongestLine.unique {room : Nat} {bytes line : List Byte}
    (longest : IsLongestLine room bytes line) : line = fgetsLine room bytes := by
  have other := isLongestLine_fgetsLine room bytes
  have shorter := other.longest line longest.isLine longest.front
  exact shorter.eq_of_length_le
    (longest.longest _ other.isLine other.front).length_le

/-- A line is not cut off: it has its newline, or is shorter than there is room for. -/
def Whole (room : Nat) (bytes : List Byte) : Prop :=
  newline ∈ fgetsLine room bytes ∨ (fgetsLine room bytes).length < room

instance (room : Nat) (bytes : List Byte) : Decidable (Whole room bytes) :=
  inferInstanceAs (Decidable (_ ∨ _))

/-- What is in front of the buffered reader: what it has read ahead, and what is still to arrive. -/
def remaining (source : LineBuffer × List Arrival) : List Arrival :=
  source.1.unread.map Arrival.byte ++ source.2

/-- Where the static buffer of `readline.c` can be when a descriptor has been read with it alone:
zero, or as some call has left it. -/
inductive Reached : LineBuffer × List Arrival → Prop
  | zero (queue : List Arrival) : Reached (LineBuffer.zero, queue)
  | call {split : Split} {maxlen : Nat} {source rest : LineBuffer × List Arrival} {ret : Return}
      (reached : Reached source) (called : readline split maxlen source = some (ret, rest)) :
      Reached rest

/-- The buffer stays sound, and ahead of the descriptor. -/
theorem Reached.ahead {source : LineBuffer × List Arrival} (reached : Reached source) :
    Ahead source (remaining source) := by
  induction reached with
  | zero queue => exact ⟨LineBuffer.sound_zero, rfl⟩
  | @call split maxlen source rest ret reached called inductionHypothesis =>
    have agree := readline_agree split split maxlen _ _ inductionHypothesis
    rw [called] at agree
    obtain ⟨queue, -, ahead⟩ := agree.of_some
    exact ⟨ahead.1, rfl⟩

end SocketProgram
