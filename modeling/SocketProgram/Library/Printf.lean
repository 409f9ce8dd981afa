/-
This file is the theory of `printf`. A format is read into directives. Each of them puts out
its own text, or takes the next argument and puts out that; an argument of another type is not
defined, and arguments that are left over are ignored.

The numbers among the arguments are integers and doubles. A double is a rational number that
has been rounded to 53 binary digits, of which `%.pf` shows `p` places behind the point. So a
quantity that was computed with doubles is shown exactly, to the last of its places, as long as
the errors of the roundings stay together below half a unit of that place.
-/

import Mathlib.Data.Int.Log
import Mathlib.Data.Rat.Floor
import Mathlib.Tactic.Linarith
import Mathlib.Tactic.Ring

namespace Printf

/-! ### Numbers as text -/

/-- An integer as `%d` writes it. -/
def decimal : Int → List Char
  | .ofNat n => Nat.toDigits 10 n
  | .negSucc n => '-' :: Nat.toDigits 10 (n + 1)

/-- A number of units of the last of `precision` places behind the point. -/
def point (precision units : Nat) : List Char :=
  Nat.toDigits 10 (units / 10 ^ precision) ++
    if precision = 0 then []
    else '.' :: (Nat.toDigits 10 (units % 10 ^ precision)).leftpad precision '0'

theorem isDigit_of_mem {n : Nat} {c : Char} (member : c ∈ Nat.toDigits 10 n) : c.isDigit = true :=
  Nat.isDigit_of_mem_toDigits (by decide) (by decide) member

/-- The text of a number with places behind the point is digits and the point. -/
theorem isDigit_of_mem_point {precision units : Nat} {c : Char}
    (member : c ∈ point precision units) : c.isDigit = true ∨ c = '.' := by
  rcases List.mem_append.mp member with whole | places
  · exact .inl (isDigit_of_mem whole)
  · split_ifs at places with none
    · exact absurd places List.not_mem_nil
    · rcases List.mem_cons.mp places with rfl | digit
      · exact .inr rfl
      · rcases List.mem_append.mp digit with zero | digit
        · rw [List.eq_of_mem_replicate zero]
          exact .inl rfl
        · exact .inl (isDigit_of_mem digit)

/-- There is a digit in front of the point, and all the places behind it. -/
theorem length_point {precision units : Nat} (places : precision ≠ 0) :
    precision + 2 ≤ (point precision units).length := by
  have whole : 0 < (Nat.toDigits 10 (units / 10 ^ precision)).length := Nat.length_toDigits_pos
  rw [point, if_neg places, List.length_append, List.length_cons, List.length_leftpad]
  omega

/-! ### Rounding -/

/-- The integer next to a number, and of two the even one. -/
def nearest (x : ℚ) : ℤ :=
  if x - ⌊x⌋ < 1 / 2 then ⌊x⌋
  else if 1 / 2 < x - ⌊x⌋ then ⌊x⌋ + 1
  else if ⌊x⌋ % 2 = 0 then ⌊x⌋
  else ⌊x⌋ + 1

/-- A number rounded to 53 binary digits: a double, where its exponent is one of a double. -/
def double (x : ℚ) : ℚ :=
  if x = 0 then 0
  else
    let unit : ℚ := 2 ^ (Int.log 2 |x| - 52)
    nearest (x / unit) * unit

theorem abs_nearest_sub_le (x : ℚ) : |nearest x - x| ≤ 1 / 2 := by
  have low := Int.floor_le x
  have high := Int.lt_floor_add_one x
  have down (half : x - ⌊x⌋ ≤ 1 / 2) : |(⌊x⌋ : ℚ) - x| ≤ 1 / 2 :=
    abs_le.mpr ⟨by linarith, by linarith⟩
  have up (half : 1 / 2 ≤ x - ⌊x⌋) : |((⌊x⌋ + 1 : ℤ) : ℚ) - x| ≤ 1 / 2 := by
    push_cast
    exact abs_le.mpr ⟨by linarith, by linarith⟩
  unfold nearest
  split_ifs with below above even
  · exact down below.le
  · exact up above.le
  · exact down (not_lt.mp above)
  · exact up (not_lt.mp below)

/-- What is nearer than one half to an integer is rounded to that. -/
theorem nearest_eq {x : ℚ} {n : ℤ} (near : |x - n| < 1 / 2) : nearest x = n := by
  have rounded := abs_nearest_sub_le x
  have close : |((nearest x - n : ℤ) : ℚ)| < 1 := by
    push_cast
    calc |(nearest x : ℚ) - n| = |(nearest x - x) + (x - n)| := by ring_nf
      _ ≤ |nearest x - x| + |x - n| := abs_add_le _ _
      _ < 1 := by linarith
  have whole : |nearest x - n| < 1 := by exact_mod_cast close
  exact sub_eq_zero.mp (Int.abs_lt_one_iff.mp whole)

/-- The relative error of a double. -/
theorem abs_double_sub_le (x : ℚ) : |double x - x| ≤ |x| / 2 ^ 53 := by
  unfold double
  split_ifs with zero
  · simp [zero]
  · have positive : 0 < |x| := abs_pos.mpr zero
    have lead : (2 : ℚ) ^ Int.log 2 |x| ≤ |x| := Int.zpow_log_le_self (by decide) positive
    generalize unit_eq : (2 : ℚ) ^ (Int.log 2 |x| - 52) = unit
    have unit_pos : 0 < unit := unit_eq ▸ zpow_pos (by norm_num) _
    have unit_le : unit * 2 ^ 52 ≤ |x| := by
      refine le_trans (le_of_eq ?_) lead
      rw [← unit_eq, ← zpow_natCast, ← zpow_add₀ (by norm_num)]
      norm_num
    have split : nearest (x / unit) * unit - x = (nearest (x / unit) - x / unit) * unit := by
      rw [sub_mul, div_mul_cancel₀ x unit_pos.ne']
    dsimp only
    rw [split, abs_mul, abs_of_pos unit_pos]
    calc |nearest (x / unit) - x / unit| * unit ≤ 1 / 2 * unit :=
          mul_le_mul_of_nonneg_right (abs_nearest_sub_le _) unit_pos.le
      _ ≤ |x| / 2 ^ 53 := by linarith

/-- A double of what is not negative, between two bounds. -/
theorem double_bounds {x : ℚ} (nonneg : 0 ≤ x) :
    x * (1 - 1 / 2 ^ 53) ≤ double x ∧ double x ≤ x * (1 + 1 / 2 ^ 53) := by
  have error := abs_double_sub_le x
  rw [abs_of_nonneg nonneg, abs_le] at error
  constructor <;> linarith only [error.1, error.2]

/-- A double as `%.pf` writes it. -/
def fixed (precision : Nat) (value : ℚ) : List Char :=
  (if value < 0 then ['-'] else []) ++
    point precision (nearest (|value| * 10 ^ precision)).toNat

/-- A double nearer than half a unit of the last place to a number of units is shown as that. -/
theorem fixed_eq_point {precision units : Nat} {value : ℚ} (nonneg : 0 ≤ value)
    (near : |value * 10 ^ precision - units| < 1 / 2) : fixed precision value =
      point precision units := by
  have rounded : nearest (|value| * 10 ^ precision) = (units : ℤ) := by
    rw [abs_of_nonneg nonneg]
    exact nearest_eq (by exact_mod_cast near)
  rw [fixed, if_neg nonneg.not_gt, rounded, Int.toNat_natCast]
  rfl

/-! ### Formats -/

/-- A part of a format. -/
inductive Directive
  | char (c : Char)
  | signed
  | unsigned
  | string
  | fixed (precision : Nat)
  | message (precision : Nat)
  deriving DecidableEq, Repr

/-- The directives of a format: `%d`, `%u`, `%s`, `%.pf` and `%.pm`, with a precision of one
digit, and the characters that stand for themselves. -/
def format : List Char → List Directive
  | '%' :: 'd' :: rest => .signed :: format rest
  | '%' :: 'u' :: rest => .unsigned :: format rest
  | '%' :: 's' :: rest => .string :: format rest
  | '%' :: '.' :: precision :: 'f' :: rest => .fixed (precision.toNat - '0'.toNat) :: format rest
  | '%' :: '.' :: precision :: 'm' :: rest => .message (precision.toNat - '0'.toNat) :: format rest
  | c :: rest => .char c :: format rest
  | [] => []

/-- An argument, with its type. -/
inductive Argument
  | int (n : Int)
  | string (text : List Char)
  | double (value : ℚ)

/-- The next argument, which is an integer. -/
def int? : List Argument → Option (Int × List Argument)
  | .int n :: arguments => some (n, arguments)
  | _ => none

/-- The next argument, which is a string. -/
def string? : List Argument → Option (List Char × List Argument)
  | .string text :: arguments => some (text, arguments)
  | _ => none

/-- The next argument, which is a double. -/
def double? : List Argument → Option (ℚ × List Argument)
  | .double value :: arguments => some (value, arguments)
  | _ => none

/-- What a directive puts out, and the arguments that it leaves. `message` is the text of
`strerror(errno)`, which `%m` stands for and which takes no argument. -/
def Directive.put (message : List Char) (arguments : List Argument) :
    Directive → Option (List Char × List Argument)
  | .char c => some ([c], arguments)
  | .signed => (int? arguments).map fun (n, left) => (decimal (n.bmod (2 ^ 32)), left)
  | .unsigned => (int? arguments).map fun (n, left) => (decimal (n % 2 ^ 32), left)
  | .string => string? arguments
  | .fixed precision =>
    (double? arguments).map fun (value, left) => (Printf.fixed precision value, left)
  | .message precision => some (message.take precision, arguments)

/-- `printf`. An argument that is not of the type of its directive is not defined, and those behind
the last directive are ignored. -/
def printf (message : List Char) : List Directive → List Argument → Option (List Char)
  | [], _ => some []
  | directive :: directives, arguments =>
    (directive.put message arguments).bind fun (text, left) =>
      (printf message directives left).map (text ++ ·)

section Directives

variable {message : List Char} {directives : List Directive} {arguments : List Argument}

@[simp] theorem printf_nil : printf message [] arguments = some [] := rfl

@[simp] theorem printf_char (c : Char) :
    printf message (.char c :: directives) arguments =
      (printf message directives arguments).map ([c] ++ ·) := rfl

@[simp] theorem printf_signed (n : Int) :
    printf message (.signed :: directives) (.int n :: arguments) =
      (printf message directives arguments).map (decimal (n.bmod (2 ^ 32)) ++ ·) := rfl

@[simp] theorem printf_unsigned (n : Int) :
    printf message (.unsigned :: directives) (.int n :: arguments) =
      (printf message directives arguments).map (decimal (n % 2 ^ 32) ++ ·) := rfl

@[simp] theorem printf_string (text : List Char) :
    printf message (.string :: directives) (.string text :: arguments) =
      (printf message directives arguments).map (text ++ ·) := rfl

@[simp] theorem printf_fixed (precision : Nat) (value : ℚ) :
    printf message (.fixed precision :: directives) (.double value :: arguments) =
      (printf message directives arguments).map (fixed precision value ++ ·) := rfl

@[simp] theorem printf_message (precision : Nat) :
    printf message (.message precision :: directives) arguments =
      (printf message directives arguments).map (message.take precision ++ ·) := rfl

/-- Characters that stand for themselves. -/
def literal (text : String) : List Directive := text.toList.map .char

@[simp] theorem printf_literal (text : String) :
    printf message (literal text ++ directives) arguments =
      (printf message directives arguments).map (text.toList ++ ·) := by
  unfold literal
  induction text.toList with
  | nil => simp
  | cons c text hypothesis =>
    rw [List.map_cons, List.cons_append, printf_char, hypothesis, Option.map_map]
    rfl

@[simp] theorem printf_literal_end (text : String) :
    printf message (literal text) arguments = some text.toList := by
  rw [← List.append_nil (literal text), printf_literal, printf_nil, Option.map_some,
    List.append_nil]

end Directives

end Printf
