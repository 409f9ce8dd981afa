/-
This file is about cutting a stream into frames of given lengths. The cut of a
stream that is still growing is final as soon as the stream covers the lengths, and
the cut of a stream put together from messages, at the messages' lengths, is the
messages.
-/

import Mathlib.Algebra.BigOperators.Group.List.Basic
import Mathlib.Algebra.GroupWithZero.Nat
import Mathlib.Data.List.SplitLengths

namespace Frames

variable {Data : Type*}

/-- Cutting one frame more: it is what follows the other frames. -/
theorem splitLengths_concat (lengths : List Nat) (length : Nat) (stream : List Data) :
    (lengths ++ [length]).splitLengths stream =
      lengths.splitLengths stream ++ [(stream.drop lengths.sum).take length] := by
  induction lengths generalizing stream with
  | nil => simp [List.splitLengths]
  | cons first lengths inductionHypothesis =>
    simp only [List.cons_append, List.splitLengths, List.splitAt_eq, List.sum_cons]
    rw [inductionHypothesis, List.drop_drop]

/-- Frames the stream covers are not changed by what the stream goes on with. -/
theorem splitLengths_append (lengths : List Nat) (stream more : List Data)
    (covered : lengths.sum ≤ stream.length) :
    lengths.splitLengths (stream ++ more) = lengths.splitLengths stream := by
  induction lengths generalizing stream with
  | nil => rfl
  | cons first lengths inductionHypothesis =>
    rw [List.sum_cons] at covered
    have here : first ≤ stream.length := by omega
    have later : lengths.sum ≤ (stream.drop first).length := by
      rw [List.length_drop]
      omega
    simp only [List.splitLengths, List.splitAt_eq]
    rw [List.take_append_of_le_length here, List.drop_append_of_le_length here,
      inductionHypothesis _ later]

/-- Messages put together and cut at their lengths are the messages. -/
theorem splitLengths_flatten (messages : List (List Data)) :
    (messages.map List.length).splitLengths messages.flatten = messages := by
  induction messages with
  | nil => rfl
  | cons message messages inductionHypothesis =>
    simp only [List.map_cons, List.flatten_cons, List.splitLengths, List.splitAt_eq]
    rw [List.take_left, List.drop_left, inductionHypothesis]

/-- The first messages, cut from a stream that starts as the messages put together do and
covers them. -/
theorem splitLengths_take (messages : List (List Data)) (count : Nat) (stream : List Data)
    (isPrefix : stream <+: messages.flatten)
    (covered : ((messages.map List.length).take count).sum ≤ stream.length) :
    ((messages.map List.length).take count).splitLengths stream = messages.take count := by
  obtain ⟨more, whole⟩ := isPrefix
  rw [← splitLengths_append _ stream more covered, whole, ← List.take_splitLength,
    splitLengths_flatten]

end Frames
