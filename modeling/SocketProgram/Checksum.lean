/-
This file says what `in_cksum` is good for. Its result is the complement of the
one's-complement sum of a buffer; on a machine of the other byte order it is the same two
bytes in memory; stored in a field that was zero while it was computed it makes the sum
over the whole buffer zero; and where that sum is zero no single word can have been
changed without making it something else, except that zero and all ones are the same to
it.

All of this comes down to the residue of the sum modulo 65535. A word that is stored adds
itself to the sum, and the complement of a digit is what is missing to all ones.
-/

import SocketProgram.Ping

namespace SocketProgram

open Memory Words

/-! ### A field of a buffer -/

/-- What `send_v4` does to the checksum field at an offset: it is cleared, and what `in_cksum`
gives for the first `len` bytes is stored there. -/
def fillCksum (endian : Endian) (buf : List Byte) (offset len : Nat) : List Byte :=
  let buf := overwrite buf offset (endian.bytes 0)
  overwrite buf offset (endian.bytes (inCksum endian buf len))

/-- The checksum of an echo request is filled in. -/
theorem sendV4_eq_fillCksum (endian : Endian) (pid : Nat) (nsent : Int) (now : Ping.Timeval)
    (sendbuf : List Byte) :
    Ping.sendV4 endian pid nsent now sendbuf =
      (fillCksum endian (Ping.request endian pid nsent now sendbuf) 2 (8 + Ping.datalen)).take
        (8 + Ping.datalen) := rfl

/-- The sum of the words around a field. -/
def sumAround (endian : Endian) (buf : List Byte) (offset : Nat) : Nat :=
  (words endian (buf.take offset)).sum + (words endian (buf.drop (offset + 2))).sum

section Field

variable {endian : Endian} {buf : List Byte} {offset : Nat}

/-- The two bytes of a field. -/
theorem take_two_drop (inside : offset + 2 ≤ buf.length) :
    (buf.drop offset).take 2 = [buf.getD offset 0, buf.getD (offset + 1) 0] := by
  rw [List.drop_eq_getElem_cons (by omega), List.drop_eq_getElem_cons (by omega),
    List.getD_eq_getElem _ _ (by omega), List.getD_eq_getElem _ _ (by omega)]
  rfl

/-- A word in a field at an even offset adds itself to the sum. -/
theorem sum_words_overwrite (even : offset % 2 = 0) (inside : offset + 2 ≤ buf.length)
    (first second : Byte) :
    (words endian (overwrite buf offset [first, second])).sum =
      sumAround endian buf offset + endian.word first second := by
  have start : (buf.take offset).length = offset := by
    rw [List.length_take, Nat.min_eq_left (by omega)]
  have split : overwrite buf offset [first, second] =
      buf.take offset ++ first :: second :: buf.drop (offset + 2) := by
    rw [overwrite, List.append_assoc]
    rfl
  rw [split, words_append _ _ (by rw [start]; exact even), words, List.sum_append, List.sum_cons,
    sumAround]
  omega

/-- So does the word that a value is stored as. -/
theorem sum_words_overwrite_bytes (even : offset % 2 = 0) (inside : offset + 2 ≤ buf.length)
    (value : Nat) (small : value < 65536) :
    (words endian (overwrite buf offset (endian.bytes value))).sum =
      sumAround endian buf offset + value := by
  obtain ⟨first, second, pair⟩ := List.length_eq_two.mp (Endian.length_bytes endian value)
  have word : words endian (endian.bytes value) = [value] := by
    rw [words_bytes, Nat.mod_eq_of_lt small]
  rw [pair] at word ⊢
  rw [sum_words_overwrite even inside, (List.cons.inj word).1]

end Field

/-- `in_cksum` is zero just where the sum is all ones. -/
theorem inCksum_eq_zero_iff {endian : Endian} {buf : List Byte} (fits : buf.length ≤ 131074) :
    inCksum endian buf buf.length = 0 ↔ checksum endian buf = 65535 := by
  have small : checksum endian buf < 65536 := checksum_lt buf
  rw [inCksum_eq_complement endian buf buf.length (by rwa [List.take_length]), List.take_length]
  omega

/-! ### What is computed -/

/-- `in_cksum` over a buffer whose words cannot wrap the accumulator is the complement of the
one's-complement sum of its words, an odd last byte being the first of a word whose second
byte is zero. That is the complement of zero where all bytes are zero, and elsewhere of the
representative from 1 to 65535 of the sum modulo 65535. -/
theorem inCksum_computes (endian : Endian) (buf : List Byte) (fits : buf.length ≤ 131074) :
    inCksum endian buf buf.length = 65535 - OnesComplement.sum 65536 (words endian buf) ∧
      ((∀ byte ∈ buf, byte = 0) → inCksum endian buf buf.length = 65535 - 0) ∧
      ((∃ byte ∈ buf, byte ≠ 0) → ∃ representative, 1 ≤ representative ∧
        representative ≤ 65535 ∧ representative ≡ (words endian buf).sum [MOD 65535] ∧
        inCksum endian buf buf.length = 65535 - representative) := by
  have complement : inCksum endian buf buf.length = 65535 - checksum endian buf := by
    rw [inCksum_eq_complement endian buf buf.length (by rwa [List.take_length]),
      List.take_length]
  refine ⟨complement, ?_, ?_⟩
  · intro zeros
    rw [complement, checksum_eq_digit,
      OnesComplement.digit_eq_zero.mpr ((sum_words_eq_zero buf).mpr zeros)]
  · rintro ⟨byte, member, nonzero⟩
    have positive : checksum endian buf ≠ 0 := by
      rw [checksum_eq_digit, ne_eq, OnesComplement.digit_eq_zero, sum_words_eq_zero]
      exact fun zeros => nonzero (zeros byte member)
    have small : checksum endian buf < 65536 := checksum_lt buf
    refine ⟨checksum endian buf, Nat.one_le_iff_ne_zero.mpr positive, Nat.lt_succ_iff.mp small,
      ?_, complement⟩
    rw [checksum_eq_digit]
    exact OnesComplement.digit_modEq _

/-- Three bytes that are not all zero. -/
theorem inCksum_computes_example :
    inCksum .little [1, 2, 3] 3 = 65535 - OnesComplement.sum 65536 (words .little [1, 2, 3]) ∧
      ∃ representative, 1 ≤ representative ∧ representative ≤ 65535 ∧
        representative ≡ 516 [MOD 65535] ∧
        inCksum .little [1, 2, 3] 3 = 65535 - representative := by
  obtain ⟨complement, -, nonzero⟩ := inCksum_computes .little [1, 2, 3] (by decide)
  exact ⟨complement, nonzero ⟨1, by decide, by decide⟩⟩

/-! ### The two byte orders -/

/-- What `in_cksum` gives on a little-endian machine is the byte swap of what it gives on a
big-endian one, so that each of them stores the same two bytes. -/
theorem inCksum_byte_order (buf : List Byte) (fits : buf.length ≤ 131074) :
    inCksum .little buf buf.length = swap (inCksum .big buf buf.length) ∧
      Endian.little.bytes (inCksum .little buf buf.length) =
        Endian.big.bytes (inCksum .big buf buf.length) := by
  have swapped : inCksum .little buf buf.length = swap (inCksum .big buf buf.length) := by
    have whole : (buf.take buf.length).length ≤ 131074 := by rwa [List.take_length]
    have small : checksum .little buf < 65536 := checksum_lt buf
    rw [inCksum_eq_complement .little buf buf.length whole,
      inCksum_eq_complement .big buf buf.length whole, List.take_length, checksum_big_eq_swap,
      ← swap_complement small, swap_swap (by omega)]
  refine ⟨swapped, ?_⟩
  rw [swapped, bytes_swap]

/-- A buffer of an odd length. -/
theorem inCksum_byte_order_example :
    inCksum .little [0xff, 0x12, 0x34] 3 = swap (inCksum .big [0xff, 0x12, 0x34] 3) ∧
      Endian.little.bytes (inCksum .little [0xff, 0x12, 0x34] 3) =
        Endian.big.bytes (inCksum .big [0xff, 0x12, 0x34] 3) :=
  inCksum_byte_order [0xff, 0x12, 0x34] (by decide)

/-! ### Filling in and verifying -/

/-- With the checksum filled in, the sum over everything is zero. -/
theorem inCksum_fillCksum (endian : Endian) (buf : List Byte) {offset len : Nat}
    (even : offset % 2 = 0) (inside : offset + 2 ≤ len) (room : len ≤ buf.length)
    (fits : len ≤ 131074) : inCksum endian (fillCksum endian buf offset len) len = 0 := by
  have bytes (value : Nat) : offset + (endian.bytes value).length ≤ len := by
    rwa [Endian.length_bytes]
  have start : offset ≤ buf.length := (Nat.le_add_right offset 2).trans (inside.trans room)
  have front : (buf.take len).length = len := by rw [List.length_take, Nat.min_eq_left room]
  have insideFront : offset + 2 ≤ (buf.take len).length := by rwa [front]
  have filled (value : Nat) : (overwrite buf offset (endian.bytes value)).take len =
      overwrite (buf.take len) offset (endian.bytes value) :=
    take_overwrite_comm buf _ (bytes value) start
  have length (value : Nat) :
      (overwrite (buf.take len) offset (endian.bytes value)).length = len := by
    rw [length_overwrite _ _ _ (by rw [front]; exact bytes value), front]
  have sum (value : Nat) (small : value < 65536) :
      (words endian (overwrite (buf.take len) offset (endian.bytes value))).sum =
        sumAround endian (buf.take len) offset + value :=
    sum_words_overwrite_bytes even insideFront value small
  -- What is stored is the complement of the digit of the words around the field.
  have stored : inCksum endian (overwrite buf offset (endian.bytes 0)) len =
      65535 - OnesComplement.digit 65536 (sumAround endian (buf.take len) offset) := by
    rw [inCksum_eq_complement _ _ _ (by rw [filled, length]; exact fits), filled,
      checksum_eq_digit, sum 0 (by decide), Nat.add_zero]
  have stays : fillCksum endian buf offset len = overwrite buf offset
      (endian.bytes (inCksum endian (overwrite buf offset (endian.bytes 0)) len)) :=
    overwrite_overwrite buf _ _ offset
      ((Endian.length_bytes _ _).trans (Endian.length_bytes _ _).symm) start
  rw [stays, ← inCksum_take, filled, stored]
  generalize value : 65535 - OnesComplement.digit 65536 _ = value'
  have whole := length value'
  have zero := @inCksum_eq_zero_iff endian
    (overwrite (buf.take len) offset (endian.bytes value')) (by rwa [whole])
  rw [whole] at zero
  rw [zero, checksum_eq_digit, sum value' (by omega), ← value]
  exact OnesComplement.digit_add_sub (by decide) _

/-- An echo request verifies. -/
theorem inCksum_sendV4 (endian : Endian) (pid : Nat) (nsent : Int) (now : Ping.Timeval)
    (sendbuf : List Byte)
    (room : 8 + Ping.datalen ≤ (Ping.request endian pid nsent now sendbuf).length) :
    inCksum endian (Ping.sendV4 endian pid nsent now sendbuf) (8 + Ping.datalen) = 0 := by
  rw [sendV4_eq_fillCksum, inCksum_take]
  exact inCksum_fillCksum endian _ (by decide) (by decide) room (by decide)

/-- Where two buffers verify that differ in one word, the word was zero in one of them and all ones
in the other. -/
theorem inCksum_changed {endian : Endian} {buf other : List Byte} {rest old new : Nat}
    (fits : buf.length ≤ 131074) (length : other.length = buf.length)
    (verified : inCksum endian buf buf.length = 0)
    (oldSum : (words endian buf).sum = rest + old)
    (newSum : (words endian other).sum = rest + new) (oldSmall : old < 65536)
    (newSmall : new < 65536) (zero : inCksum endian other buf.length = 0) :
    old = new ∨ (old = 0 ∧ new = 65535) ∨ (old = 65535 ∧ new = 0) := by
  rw [← length] at zero
  exact eq_of_checksum_eq_max oldSum newSum ((inCksum_eq_zero_iff fits).mp verified)
    ((inCksum_eq_zero_iff (by rwa [length])).mp zero) oldSmall newSmall

/-- A field that is cleared, summed over and filled in makes `in_cksum` over the whole buffer
zero. Where `in_cksum` is zero, a word that is changed makes it something else, unless the
change is between zero and all ones; and so does an odd last byte that is changed. -/
theorem inCksum_detects (endian : Endian) (buf : List Byte) (fits : buf.length ≤ 131074) :
    (∀ offset, offset % 2 = 0 → offset + 2 ≤ buf.length →
      inCksum endian (fillCksum endian buf offset buf.length) buf.length = 0) ∧
    (inCksum endian buf buf.length = 0 →
      (∀ offset first second, offset % 2 = 0 → offset + 2 ≤ buf.length →
        let old := endian.word (buf.getD offset 0) (buf.getD (offset + 1) 0)
        let new := endian.word first second
        old ≠ new → ¬ (old = 0x0000 ∧ new = 0xffff) → ¬ (old = 0xffff ∧ new = 0x0000) →
          inCksum endian (overwrite buf offset [first, second]) buf.length ≠ 0) ∧
      (∀ front last last', buf = front ++ [last] → front.length % 2 = 0 → last' ≠ last →
        inCksum endian (front ++ [last']) buf.length ≠ 0)) := by
  refine ⟨?_, ?_⟩
  · intro offset even inside
    exact inCksum_fillCksum endian buf even inside le_rfl fits
  · intro verified
    refine ⟨?_, ?_⟩
    · intro offset first second even inside old new different up down zero
      have here : buf = overwrite buf offset [buf.getD offset 0, buf.getD (offset + 1) 0] := by
        have stands := overwrite_self buf offset 2
        rw [take_two_drop inside] at stands
        exact stands.symm
      have oldSum := @sum_words_overwrite endian _ _ even inside (buf.getD offset 0)
        (buf.getD (offset + 1) 0)
      rw [← here] at oldSum
      rcases inCksum_changed fits (length_overwrite buf offset [first, second] inside) verified
        oldSum (sum_words_overwrite even inside first second) (endian.word_lt _ _)
        (endian.word_lt _ _) zero with same | rise | fall
      · exact different same
      · exact up rise
      · exact down fall
    · intro front last last' split even different zero
      have sum (byte : Byte) : (words endian (front ++ [byte])).sum =
          (words endian front).sum + endian.word byte 0 := by
        rw [words_append _ _ even, List.sum_append, words, List.sum_singleton]
      subst split
      have length : (front ++ [last']).length = (front ++ [last]).length := by
        rw [List.length_append, List.length_append, List.length_singleton, List.length_singleton]
      have cases := inCksum_changed fits length verified (sum last) (sum last')
        (endian.word_lt _ _) (endian.word_lt _ _) zero
      have oldByte := last.toNat_lt
      have newByte := last'.toNat_lt
      have different' : last.toNat ≠ last'.toNat := fun same =>
        different (UInt8.toNat_inj.mp same).symm
      cases endian <;> simp only [Endian.word, UInt8.toNat_zero] at cases <;> omega

/-- The checksum of four bytes that verify, and one of their words changed. -/
theorem inCksum_detects_example :
    inCksum .big (fillCksum .big [1, 2, 3, 4] 2 4) 4 = 0 ∧
      inCksum .big (overwrite [1, 2, 0xfe, 0xfd] 0 [1, 3]) 4 ≠ 0 := by
  obtain ⟨filled, -⟩ := inCksum_detects .big [1, 2, 3, 4] (by decide)
  obtain ⟨-, detected⟩ := inCksum_detects .big [1, 2, 0xfe, 0xfd] (by decide)
  exact ⟨filled 2 (by decide) (by decide), (detected (by decide)).1 0 1 3 (by decide) (by decide)
    (by decide) (by decide) (by decide)⟩

end SocketProgram
