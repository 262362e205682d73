import Mathlib.Data.Int.Log
import Mathlib.Data.Rat.Floor
import Mathlib.Tactic.Linarith
import Mathlib.Tactic.Positivity

/-!
# Double-precision numbers

The numbers of binary64 that are not negative, as rationals, and the rounding of the result of an operation to them: to the nearest, a
tie to the even one, and to infinity from `2 ^ 1024` on. `none` stands for infinity. Integers up to `2 ^ 53` are kept, and
rounding does not go below one. Last the 32-bit integer of a number, as bitwise operators take it.
-/

namespace Binary64

/-! ## Rounding -/

/-- The nearest integer, of two the even one. -/
def roundHalfEven (x : ℚ) : ℤ :=
  if x - ⌊x⌋ < 1 / 2 then ⌊x⌋ else if x - ⌊x⌋ = 1 / 2 then ⌊x⌋ + ⌊x⌋ % 2 else ⌊x⌋ + 1

/-- The exponent of the last place of a number, of 53 places or fewer. -/
def lastPlace (x : ℚ) : ℤ := max (Int.log 2 x - 52) (-1074)

/-- A number with its last place rounded. -/
def rounded (x : ℚ) : ℚ := roundHalfEven (x / 2 ^ lastPlace x) * 2 ^ lastPlace x

/-- The double nearest to a number. -/
def round (x : ℚ) : Option ℚ := if 2 ^ 1024 ≤ rounded x then none else some (rounded x)

/-- A product by a positive number. -/
def times (c : ℚ) (x : Option ℚ) : Option ℚ := x.bind fun x => round (x * c)

/-- A sum. -/
def plus (x y : Option ℚ) : Option ℚ := x.bind fun x => y.bind fun y => round (x + y)

/-- `ToInt32`: the last 32 bits of the integer part, as a signed integer. -/
def toInt32 : Option ℚ → ℤ
  | none => 0
  | some x => if 2 ^ 31 ≤ ⌊x⌋ % 2 ^ 32 then ⌊x⌋ % 2 ^ 32 - 2 ^ 32 else ⌊x⌋ % 2 ^ 32

/-- An integer is not rounded. -/
theorem roundHalfEven_intCast (m : ℤ) : roundHalfEven m = m := by
  simp [roundHalfEven]

/-- A number whose last place is an integer is kept. -/
theorem rounded_eq {x : ℚ} {m : ℤ} (h : x / 2 ^ lastPlace x = m) : rounded x = x := by
  have hpos : (0 : ℚ) < 2 ^ lastPlace x := zpow_pos (by norm_num) _
  rw [rounded, h, roundHalfEven_intCast, ← h, div_mul_cancel₀ _ (ne_of_gt hpos)]

/-- A number below `2 ^ 53` has places after the point. -/
theorem lastPlace_nonpos {x : ℚ} (hpos : 0 < x) (h : x < 2 ^ 53) : ∃ k : ℕ, lastPlace x = -k := by
  have hlog : Int.log 2 x < 53 := (Int.lt_zpow_iff_log_lt (by decide) hpos).1 (by exact_mod_cast h)
  have hle : lastPlace x ≤ 0 := max_le (by omega) (by decide)
  exact ⟨(-lastPlace x).toNat, by omega⟩

/-- The last place of an integer below `2 ^ 53`, scaled, is an integer. -/
theorem natCast_div_eq {x : ℚ} {k : ℕ} (n : ℕ) (h : lastPlace x = -k) : (n : ℚ) / 2 ^ lastPlace x = ((n * 2 ^ k : ℕ) : ℤ) := by
  rw [h, zpow_neg, zpow_natCast, div_inv_eq_mul]
  push_cast
  rfl

/-- An integer up to `2 ^ 53` is kept. -/
theorem rounded_natCast {n : ℕ} (h : n ≤ 2 ^ 53) : rounded n = n := by
  rcases Nat.eq_zero_or_pos n with rfl | hpos
  · refine rounded_eq (m := 0) ?_
    simp
  · rcases Nat.lt_or_ge n (2 ^ 53) with hlt | hge
    · obtain ⟨k, hk⟩ := lastPlace_nonpos (x := n) (by exact_mod_cast hpos) (by exact_mod_cast hlt)
      exact rounded_eq (natCast_div_eq n hk)
    · obtain rfl : n = 2 ^ 53 := by omega
      have hlog : Int.log 2 ((2 ^ 53 : ℕ) : ℚ) = 53 := by
        rw [Int.log_natCast, Nat.log_pow (by decide)]
        rfl
      have hplace : lastPlace ((2 ^ 53 : ℕ) : ℚ) = 1 := by
        rw [lastPlace, hlog]
        decide
      refine rounded_eq (m := 2 ^ 52) ?_
      rw [hplace]
      norm_num

/-- An integer up to `2 ^ 53` is a double. -/
theorem round_natCast {n : ℕ} (h : n ≤ 2 ^ 53) : round n = some (n : ℚ) := by
  rw [round, rounded_natCast h, if_neg]
  have hle : (n : ℚ) ≤ 2 ^ 53 := by exact_mod_cast h
  refine not_le.2 (lt_of_le_of_lt hle ?_)
  exact pow_lt_pow_right₀ (by norm_num) (by decide)

/-! ## Integers -/

/-- A product of integers up to `2 ^ 53` is exact. -/
theorem times_natCast {c n : ℕ} (h : n * c ≤ 2 ^ 53) : times c (some (n : ℚ)) = some ((n * c : ℕ) : ℚ) := by
  rw [times, Option.bind_some, ← Nat.cast_mul, round_natCast h]

/-- A sum of integers up to `2 ^ 53` is exact. -/
theorem plus_natCast {m n : ℕ} (h : m + n ≤ 2 ^ 53) : plus (some (m : ℚ)) (some (n : ℚ)) = some ((m + n : ℕ) : ℚ) := by
  rw [plus, Option.bind_some, Option.bind_some, ← Nat.cast_add, round_natCast h]

/-- A 32-bit integer is below `2 ^ 31`. -/
theorem toInt32_lt (x : Option ℚ) : toInt32 x < 2 ^ 31 := by
  cases x with
  | none => decide
  | some x =>
    have hmod := Int.emod_lt_of_pos ⌊x⌋ (show (0 : ℤ) < 2 ^ 32 by decide)
    unfold toInt32
    split <;> omega

/-- An integer below `2 ^ 31` is its own 32-bit integer. -/
theorem toInt32_natCast {n : ℕ} (h : n < 2 ^ 31) : toInt32 (some (n : ℚ)) = n := by
  rw [toInt32, Int.floor_natCast, Int.emod_eq_of_lt (by omega) (by omega), if_neg (by omega)]

end Binary64
