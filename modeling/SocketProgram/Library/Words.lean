/-
This file is the theory of integers in memory. An integer is a number of bytes, in the
order of the machine, and what is stored is loaded again. A 16-bit word is two bytes;
memory of an odd length ends with a byte and a zero. The conversion to network order
makes what is stored independent of the machine, and the sum of the words of the same
memory differs between the two orders only by a factor that the modulus of
one's-complement sums does not see.
-/

import SocketProgram.Library.OnesComplement

namespace Words

/-- The order of the two bytes of a word in memory. -/
inductive Endian
  | little
  | big
  deriving DecidableEq, Repr

namespace Endian

/-- The word that stands in memory as these two bytes. -/
def word : Endian → UInt8 → UInt8 → Nat
  | .little, first, second => first.toNat + 256 * second.toNat
  | .big, first, second => 256 * first.toNat + second.toNat

/-- A word as it stands in memory. -/
def bytes : Endian → Nat → List UInt8
  | .little, value => [UInt8.ofNat value, UInt8.ofNat (value / 256)]
  | .big, value => [UInt8.ofNat (value / 256), UInt8.ofNat value]

/-- `htons`: the word that stands in memory as the value does in network order. -/
def htons : Endian → Nat → Nat
  | .little, value => value % 256 * 256 + value / 256 % 256
  | .big, value => value % 65536

@[simp]
theorem length_bytes (endian : Endian) (value : Nat) : (endian.bytes value).length = 2 := by
  cases endian <;> rfl

theorem word_lt (endian : Endian) (first second : UInt8) : endian.word first second < 65536 := by
  have := first.toNat_lt
  have := second.toNat_lt
  cases endian <;> simp only [word] <;> omega

/-- Words are the same only when their bytes are. -/
theorem word_inj (endian : Endian) {first second first' second' : UInt8} :
    endian.word first second = endian.word first' second' ↔
      first = first' ∧ second = second' := by
  have := first.toNat_lt
  have := second.toNat_lt
  have := first'.toNat_lt
  have := second'.toNat_lt
  rw [← UInt8.toNat_inj, ← UInt8.toNat_inj]
  cases endian <;> simp only [Endian.word] <;> omega

/-- A word is what `htons` makes of a value when its bytes are the value in network order. -/
theorem word_eq_htons_iff (endian : Endian) (first second : UInt8) (value : Nat) :
    endian.word first second = endian.htons value ↔ big.word first second = value % 65536 := by
  have := first.toNat_lt
  have := second.toNat_lt
  have nested : value / 256 / 256 = value / 65536 := Nat.div_div_eq_div_mul value 256 256
  cases endian with
  | little =>
    simp only [word, htons]
    omega
  | big => simp only [word, htons]

/-- A word is stored as the bytes it was loaded from. -/
theorem bytes_word (endian : Endian) (first second : UInt8) :
    endian.bytes (endian.word first second) = [first, second] := by
  have := first.toNat_lt
  have := second.toNat_lt
  have byte (value : Nat) (digit : UInt8) (same : value % 256 = digit.toNat) :
      UInt8.ofNat value = digit := UInt8.toNat_inj.mp (by rw [UInt8.toNat_ofNat', ← same])
  cases endian with
  | little =>
    simp only [bytes, word]
    rw [byte _ first (by omega), byte _ second (by omega)]
  | big =>
    simp only [bytes, word]
    rw [byte _ first (by omega), byte _ second (by omega)]

/-- The same word, seen in the other order, is that of the bytes in the other order. -/
theorem word_little (first second : UInt8) : little.word first second = big.word second first :=
  Nat.add_comm _ _

/-- What is stored after `htons` is the value in network order. -/
theorem bytes_htons (endian : Endian) (value : Nat) :
    endian.bytes (endian.htons value) = big.bytes value := by
  cases endian with
  | little =>
    have high : (value % 256 * 256 + value / 256 % 256) / 256 = value % 256 := by omega
    simp only [bytes, htons, high]
    refine congrArg₂ (fun first second => [first, second]) ?_ ?_
    · exact UInt8.toNat_inj.mp (by simp only [UInt8.toNat_ofNat']; omega)
    · exact UInt8.toNat_inj.mp (by simp only [UInt8.toNat_ofNat']; omega)
  | big =>
    simp only [bytes, htons]
    refine congrArg₂ (fun first second => [first, second]) ?_ ?_
    · exact UInt8.toNat_inj.mp (by simp only [UInt8.toNat_ofNat']; omega)
    · exact UInt8.toNat_inj.mp (by simp only [UInt8.toNat_ofNat']; omega)

/-- The digits of a value to base 256, the lowest first. -/
def digits : Nat → Nat → List UInt8
  | 0, _ => []
  | count + 1, value => UInt8.ofNat value :: digits count (value / 256)

/-- The value of some digits. -/
def ofDigits : List UInt8 → Nat
  | [] => 0
  | digit :: rest => digit.toNat + 256 * ofDigits rest

/-- An integer of so many bytes as it stands in memory. -/
def store (endian : Endian) (count value : Nat) : List UInt8 :=
  match endian with
  | .little => digits count value
  | .big => (digits count value).reverse

/-- The integer that stands in memory as these bytes. -/
def load (endian : Endian) (memory : List UInt8) : Nat :=
  match endian with
  | .little => ofDigits memory
  | .big => ofDigits memory.reverse

theorem length_digits (count value : Nat) : (digits count value).length = count := by
  induction count generalizing value with
  | zero => rfl
  | succ count inductionHypothesis => exact congrArg Nat.succ (inductionHypothesis (value / 256))

@[simp]
theorem length_store (endian : Endian) (count value : Nat) :
    (endian.store count value).length = count := by
  cases endian with
  | little => exact length_digits count value
  | big => exact List.length_reverse.trans (length_digits count value)

theorem ofDigits_digits (count value : Nat) :
    ofDigits (digits count value) = value % 256 ^ count := by
  induction count generalizing value with
  | zero => exact (Nat.mod_one value).symm
  | succ count inductionHypothesis =>
    have power : 256 ^ (count + 1) = 256 * 256 ^ count := Nat.pow_succ'
    rw [digits, ofDigits, inductionHypothesis, UInt8.toNat_ofNat', power]
    exact Nat.mod_mul.symm

/-- What has been stored is loaded, as far as there was room for it. -/
theorem load_store (endian : Endian) (count value : Nat) :
    endian.load (endian.store count value) = value % 256 ^ count := by
  cases endian with
  | little => exact ofDigits_digits count value
  | big => exact (congrArg ofDigits (List.reverse_reverse _)).trans (ofDigits_digits count value)

theorem digits_ofDigits (memory : List UInt8) :
    digits memory.length (ofDigits memory) = memory := by
  induction memory with
  | nil => rfl
  | cons digit rest inductionHypothesis =>
    have low : UInt8.ofNat (digit.toNat + 256 * ofDigits rest) = digit := by
      refine UInt8.toNat_inj.mp ?_
      have := digit.toNat_lt
      rw [UInt8.toNat_ofNat']
      omega
    have high : (digit.toNat + 256 * ofDigits rest) / 256 = ofDigits rest := by
      have := digit.toNat_lt
      omega
    rw [List.length_cons, ofDigits, digits, low, high, inductionHypothesis]

/-- What has been loaded is stored again. -/
theorem store_load (endian : Endian) {count : Nat} {memory : List UInt8}
    (length : memory.length = count) : endian.store count (endian.load memory) = memory := by
  subst length
  cases endian with
  | little => exact digits_ofDigits memory
  | big =>
    show (digits memory.length (ofDigits memory.reverse)).reverse = memory
    rw [← List.length_reverse, digits_ofDigits, List.reverse_reverse]

/-- The order does not matter where all bytes are the same. -/
theorem store_load_replicate (endian other : Endian) (count : Nat) (digit : UInt8) :
    endian.store count (other.load (List.replicate count digit)) = List.replicate count digit := by
  have load : ∀ endian : Endian,
      endian.load (List.replicate count digit) = ofDigits (List.replicate count digit) := by
    intro endian
    cases endian with
    | little => rfl
    | big => exact congrArg ofDigits List.reverse_replicate
  rw [load other, ← load endian, store_load endian List.length_replicate]

/-- In network order the last byte is the lowest. -/
theorem load_big_concat (memory : List UInt8) (last : UInt8) :
    big.load (memory ++ [last]) = last.toNat + 256 * big.load memory := by
  show ofDigits (memory ++ [last]).reverse = _
  rw [List.reverse_append, List.reverse_singleton]
  rfl

/-- `ntohl`: the value of the four bytes of an integer in network order. -/
def ntohl (endian : Endian) (value : Nat) : Nat := big.load (endian.store 4 value)

/-- `ntohl` of what has been loaded is what the bytes are in network order. -/
theorem ntohl_load (endian : Endian) {memory : List UInt8} (length : memory.length = 4) :
    endian.ntohl (endian.load memory) = big.load memory := by
  rw [ntohl, store_load endian length]

end Endian

/-- The words of some memory, an odd last byte being followed by a zero. -/
def words (endian : Endian) : List UInt8 → List Nat
  | first :: second :: rest => endian.word first second :: words endian rest
  | [last] => [endian.word last 0]
  | [] => []

variable {endian : Endian}

theorem words_lt (memory : List UInt8) : ∀ value ∈ words endian memory, value < 65536 := by
  fun_induction words endian memory with
  | case1 first second rest inductionHypothesis =>
    intro value member
    rcases List.mem_cons.mp member with rfl | later
    · exact endian.word_lt first second
    · exact inductionHypothesis value later
  | case2 last =>
    intro value member
    rw [List.mem_singleton.mp member]
    exact endian.word_lt last 0
  | case3 => exact fun value member => absurd member List.not_mem_nil

/-- A word in memory is the word that was stored. -/
theorem words_bytes (value : Nat) : words endian (endian.bytes value) = [value % 65536] := by
  cases endian with
  | little =>
    simp only [Endian.bytes, words, Endian.word, UInt8.toNat_ofNat']
    refine congrArg (fun word => [word]) ?_
    omega
  | big =>
    simp only [Endian.bytes, words, Endian.word, UInt8.toNat_ofNat']
    refine congrArg (fun word => [word]) ?_
    omega

/-- Words stay words behind memory of an even length. -/
theorem words_append (first second : List UInt8) (even : first.length % 2 = 0) :
    words endian (first ++ second) = words endian first ++ words endian second := by
  induction first using words.induct with
  | case1 high low rest inductionHypothesis =>
    rw [List.length_cons, List.length_cons] at even
    rw [List.cons_append, List.cons_append, words, words, List.cons_append,
      inductionHypothesis (by omega)]
  | case2 last =>
    rw [List.length_singleton] at even
    omega
  | case3 => rfl

/-- Two values are stored alike when they have the same 16 bits. -/
theorem bytes_eq_bytes_iff (first second : Nat) :
    endian.bytes first = endian.bytes second ↔ first % 65536 = second % 65536 := by
  constructor
  · intro same
    have words := congrArg (words endian) same
    rw [words_bytes, words_bytes] at words
    exact (List.cons.inj words).1
  · intro same
    have bits (value : Nat) : endian.bytes value = endian.bytes (value % 65536) := by
      have byte (first second : Nat) (same : first % 256 = second % 256) :
          UInt8.ofNat first = UInt8.ofNat second :=
        UInt8.toNat_inj.mp (by rw [UInt8.toNat_ofNat', UInt8.toNat_ofNat']; exact same)
      cases endian with
      | little =>
        simp only [Endian.bytes]
        rw [byte value (value % 65536) (by omega),
          byte (value / 256) (value % 65536 / 256) (by omega)]
      | big =>
        simp only [Endian.bytes]
        rw [byte value (value % 65536) (by omega),
          byte (value / 256) (value % 65536 / 256) (by omega)]
    rw [bits first, bits second, same]

/-- The sum of the words is zero only when the memory is. -/
theorem sum_words_eq_zero (memory : List UInt8) :
    (words endian memory).sum = 0 ↔ ∀ byte ∈ memory, byte = 0 := by
  have word (first second : UInt8) : endian.word first second = 0 ↔ first = 0 ∧ second = 0 := by
    rw [← UInt8.toNat_inj, ← UInt8.toNat_inj]
    cases endian <;> simp only [Endian.word, UInt8.toNat_zero] <;> omega
  induction memory using words.induct with
  | case1 first second rest inductionHypothesis =>
    rw [words, List.sum_cons, Nat.add_eq_zero_iff, word, List.forall_mem_cons,
      List.forall_mem_cons, ← and_assoc]
    exact and_congr_right' inductionHypothesis
  | case2 last =>
    rw [words, List.sum_singleton, word, List.forall_mem_singleton]
    exact and_iff_left rfl
  | case3 => exact iff_of_true rfl fun byte member => absurd member List.not_mem_nil

/-- Seen in the other order, the words of the same memory have a sum 256 times as large, but
for multiples of 65535. -/
theorem sum_words_big_modEq (memory : List UInt8) :
    (words .big memory).sum ≡ 256 * (words .little memory).sum [MOD 65535] := by
  have word (first second : UInt8) :
      Endian.big.word first second ≡ 256 * Endian.little.word first second [MOD 65535] := by
    have same : 256 * Endian.little.word first second =
        Endian.big.word first second + 65535 * second.toNat := by
      simp only [Endian.word]
      omega
    rw [same]
    exact (Nat.add_mul_mod_self_left _ _ _).symm
  induction memory using words.induct with
  | case1 first second rest inductionHypothesis =>
    rw [words, words, List.sum_cons, List.sum_cons, Nat.mul_add]
    exact (word first second).add inductionHypothesis
  | case2 last =>
    rw [words, words, List.sum_singleton, List.sum_singleton]
    exact word last 0
  | case3 => rfl

/-- The one's-complement sum of the words of some memory. -/
def checksum (endian : Endian) (memory : List UInt8) : Nat :=
  OnesComplement.sum 65536 (words endian memory)

theorem checksum_eq_digit (memory : List UInt8) :
    checksum endian memory = OnesComplement.digit 65536 (words endian memory).sum :=
  OnesComplement.sum_eq_digit (by decide) (words_lt memory)

/-- The sum is all ones just for multiples of 65535 other than zero. -/
theorem checksum_eq_max {memory : List UInt8} :
    checksum endian memory = 65535 ↔
      (words endian memory).sum ≠ 0 ∧ 65535 ∣ (words endian memory).sum := by
  rw [checksum_eq_digit]
  exact OnesComplement.digit_eq_max (show 2 ≤ 65536 by decide)

theorem checksum_lt (memory : List UInt8) : checksum endian memory < 65536 := by
  rw [checksum_eq_digit]
  exact OnesComplement.digit_lt (by decide) _

/-- All ones are seen in either order: both ends of a connection agree on whether a checksum
is right, whatever their machines. -/
theorem checksum_eq_max_big_iff (memory : List UInt8) :
    checksum .big memory = 65535 ↔ checksum .little memory = 65535 := by
  have nonzero : (words .big memory).sum ≠ 0 ↔ (words .little memory).sum ≠ 0 := by
    rw [ne_eq, ne_eq, sum_words_eq_zero, sum_words_eq_zero]
  have divides : 65535 ∣ (words .big memory).sum ↔ 65535 ∣ (words .little memory).sum := by
    rw [(sum_words_big_modEq memory).dvd_iff dvd_rfl]
    exact (by decide : Nat.Coprime 65535 256).dvd_mul_left
  rw [checksum_eq_max, checksum_eq_max, nonzero, divides]

/-- All ones on the machine that made the checksum are all ones in network order. -/
theorem checksum_big_eq_max {memory : List UInt8} (max : checksum endian memory = 65535) :
    checksum .big memory = 65535 := by
  cases endian with
  | little => exact (checksum_eq_max_big_iff memory).mpr max
  | big => exact max

/-! ### The two orders -/

/-- The two bytes of a word in the other order. -/
def swap (value : Nat) : Nat := value % 256 * 256 + value / 256 % 256

theorem swap_lt (value : Nat) : swap value < 65536 := by
  unfold swap
  omega

theorem swap_swap {value : Nat} (small : value < 65536) : swap (swap value) = value := by
  have low : (value % 256 * 256 + value / 256 % 256) % 256 = value / 256 := by omega
  have high : (value % 256 * 256 + value / 256 % 256) / 256 = value % 256 := by omega
  unfold swap
  rw [low, high]
  omega

/-- The complement of a word is the complement of its bytes. -/
theorem swap_complement {value : Nat} (small : value < 65536) :
    swap (65535 - value) = 65535 - swap value := by
  have low : (65535 - value) % 256 = 255 - value % 256 := by omega
  have high : (65535 - value) / 256 = 255 - value / 256 := by omega
  unfold swap
  rw [low, high]
  omega

/-- Up to the modulus of one's-complement sums, the other order is 256 times the value. -/
theorem swap_modEq {value : Nat} (small : value < 65536) :
    swap value ≡ 256 * value [MOD 65535] := by
  have same : 256 * value = swap value + 65535 * (value / 256) := by
    unfold swap
    omega
  rw [same]
  exact (Nat.add_mul_mod_self_left _ _ _).symm

/-- A word and its swap, each stored in its own order, are the same memory. -/
theorem bytes_swap (value : Nat) : Endian.little.bytes (swap value) = Endian.big.bytes value :=
  Endian.bytes_htons .little value

/-- The sums of the same memory in the two orders are each other's swap. -/
theorem checksum_big_eq_swap (memory : List UInt8) :
    checksum .big memory = swap (checksum .little memory) := by
  have small : checksum .little memory < 65536 := checksum_lt memory
  have residue : checksum .little memory ≡ (words .little memory).sum [MOD 65535] := by
    rw [checksum_eq_digit]
    exact OnesComplement.digit_modEq _
  have none : swap (checksum .little memory) = 0 ↔ checksum .little memory = 0 := by
    unfold swap
    omega
  have zero : swap (checksum .little memory) = 0 ↔ (words .big memory).sum = 0 := by
    rw [none, checksum_eq_digit, OnesComplement.digit_eq_zero, sum_words_eq_zero,
      sum_words_eq_zero]
  have same : swap (checksum .little memory) ≡ (words .big memory).sum [MOD 65535] :=
    calc swap (checksum .little memory)
        ≡ 256 * checksum .little memory [MOD 65535] := swap_modEq small
      _ ≡ 256 * (words .little memory).sum [MOD 65535] := residue.mul_left 256
      _ ≡ (words .big memory).sum [MOD 65535] := (sum_words_big_modEq memory).symm
  exact ((OnesComplement.eq_digit (swap_lt _) zero same).trans (checksum_eq_digit memory).symm).symm

/-! ### A word that is changed -/

/-- Two words behind which the same sum comes out as all ones are the same, but for the two
zeros. -/
theorem eq_of_checksum_eq_max {first second : List UInt8} {rest old new : Nat}
    (firstSum : (words endian first).sum = rest + old)
    (secondSum : (words endian second).sum = rest + new)
    (firstMax : checksum endian first = 65535) (secondMax : checksum endian second = 65535)
    (oldSmall : old < 65536) (newSmall : new < 65536) :
    old = new ∨ (old = 0 ∧ new = 65535) ∨ (old = 65535 ∧ new = 0) := by
  obtain ⟨-, firstDivides⟩ := checksum_eq_max.mp firstMax
  obtain ⟨-, secondDivides⟩ := checksum_eq_max.mp secondMax
  rw [firstSum] at firstDivides
  rw [secondSum] at secondDivides
  omega

end Words
