/-
This file models `in_cksum` of `ping/in_cksum.c`: the words of a buffer are added in a
32-bit accumulator, an odd last byte as the first byte of a word, the carries are folded
back twice, and the complement is returned. As long as the accumulator cannot wrap, the
result is the complement of the one's-complement sum of the words.
-/

import SocketProgram.Kernel
import SocketProgram.Library.Words

namespace SocketProgram

open Words

/-- The accumulator of `in_cksum` after the loop and the odd byte, from the bytes that are
left. -/
def inCksumSum (endian : Endian) : List Byte → Nat → Nat
  | first :: second :: w, sum => inCksumSum endian w ((sum + endian.word first second) % 2 ^ 32)
  | [last], sum => (sum + endian.word last 0) % 2 ^ 32
  | [], sum => sum

/-- `in_cksum(addr,len)`. -/
def inCksum (endian : Endian) (addr : List Byte) (len : Nat) : Nat :=
  let sum := inCksumSum endian (addr.take len) 0
  let sum := ((sum >>> 16) + (sum &&& 0xffff)) % 2 ^ 32
  let sum := (sum + (sum >>> 16)) % 2 ^ 32
  (2 ^ 32 - 1 - sum) % 2 ^ 16

/-- `in_cksum` reads no further than `len`. -/
theorem inCksum_take (endian : Endian) (addr : List Byte) (len : Nat) :
    inCksum endian (addr.take len) len = inCksum endian addr len := by
  unfold inCksum
  rw [List.take_take, Nat.min_self]

/-- The words of so many bytes cannot wrap the accumulator. -/
theorem sum_words_le (endian : Endian) (bytes : List Byte) :
    (words endian bytes).sum ≤ 65535 * ((bytes.length + 1) / 2) := by
  induction bytes using words.induct with
  | case1 first second rest inductionHypothesis =>
    have word := endian.word_lt first second
    rw [words, List.sum_cons, List.length_cons, List.length_cons]
    omega
  | case2 last =>
    have word := endian.word_lt last 0
    rw [words, List.sum_singleton, List.length_singleton]
    omega
  | case3 => exact Nat.zero_le _

/-- An accumulator that does not wrap holds the sum. -/
theorem inCksumSum_eq (endian : Endian) (bytes : List Byte) (sum : Nat)
    (fits : sum + (words endian bytes).sum < 2 ^ 32) :
    inCksumSum endian bytes sum = sum + (words endian bytes).sum := by
  fun_induction inCksumSum endian bytes sum with
  | case1 first second w sum inductionHypothesis =>
    rw [words, List.sum_cons, ← Nat.add_assoc] at fits ⊢
    have small : sum + endian.word first second < 2 ^ 32 :=
      (Nat.le_add_right _ _).trans_lt fits
    rw [Nat.mod_eq_of_lt small] at inductionHypothesis
    rw [Nat.mod_eq_of_lt small]
    exact inductionHypothesis fits
  | case2 last sum =>
    rw [words, List.sum_singleton] at fits ⊢
    exact Nat.mod_eq_of_lt fits
  | case3 sum => rfl

/-- `in_cksum` is the complement of the one's-complement sum of the words, for every buffer
whose words do not wrap the accumulator. -/
theorem inCksum_eq_complement (endian : Endian) (addr : List Byte) (len : Nat)
    (fits : (addr.take len).length ≤ 131074) :
    inCksum endian addr len = 65535 - checksum endian (addr.take len) := by
  have bounded := sum_words_le endian (addr.take len)
  have small : (words endian (addr.take len)).sum < 2 ^ 32 := by omega
  have total : inCksumSum endian (addr.take len) 0 = (words endian (addr.take len)).sum := by
    rw [inCksumSum_eq endian _ 0 (by rwa [Nat.zero_add]), Nat.zero_add]
  rw [checksum_eq_digit, ← OnesComplement.fold_eq_digit (by decide) small]
  unfold inCksum OnesComplement.fold
  rw [total]
  generalize (words endian (addr.take len)).sum = sum at small ⊢
  have mask (value : Nat) : value &&& 0xffff = value % 65536 := Nat.and_two_pow_sub_one_eq_mod _ 16
  simp only [Nat.shiftRight_eq_div_pow, mask]
  omega

end SocketProgram
