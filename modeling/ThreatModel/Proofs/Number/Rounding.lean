import Mathlib.Algebra.Order.Field.Power
import Mathlib.Algebra.Order.Floor.Semifield
import Mathlib.Data.Int.Log
import Mathlib.Data.Nat.Cast.Order.Field
import Mathlib.Data.Rat.Floor
import Mathlib.Tactic.FieldSimp
import Mathlib.Tactic.Linarith
import Mathlib.Tactic.NormNum
import Mathlib.Tactic.Positivity
import Mathlib.Tactic.Ring
import ThreatModel.Number.Decimal

/-!
# Which number is nearest

Rounding is done on ratios of natural numbers, whose logarithms are searched for. Here it is stated over
rational numbers. Main statements: what a decimal is read as depends on its value alone, and whatever is
closer to a number than its 2^54-th part is read as that number.
-/

namespace ThreatModel

namespace Double

/-! ## The nearest number, over rational numbers -/

/-- The natural number nearest to a value, and of two the even one. -/
def nearestInt (value : ℚ) : ℕ :=
  let whole := ⌊value⌋₊
  if 1 / 2 < value - whole ∨ (value - whole = 1 / 2 ∧ whole % 2 = 1) then whole + 1 else whole

/-- The power of two of which the numbers around a value are multiples. -/
def gridOf (value : ℚ) : ℤ := max (Int.log 2 value - 52) (-1074)

/-- The place of the number nearest to a positive value. -/
def nearestPlace (value : ℚ) : ℕ :=
  (gridOf value + 1074).toNat * 4503599627370496 + nearestInt (value / 2 ^ gridOf value)

/-- The number of a sign whose magnitude is nearest to a value. -/
def nearest (negative : Bool) (value : ℚ) : Double :=
  atPlace negative (if value = 0 then 0 else nearestPlace value)

/-- The magnitude of a finite number. -/
def magnitude (x : Double) : ℚ := x.significand * 2 ^ x.scale

theorem nearestInt_eq {value : ℚ} {n : ℕ} (below : (n : ℚ) - 1 / 2 < value)
    (above : value < (n : ℚ) + 1 / 2) : nearestInt value = n := by
  unfold nearestInt
  by_cases reached : (n : ℚ) ≤ value
  · have whole : ⌊value⌋₊ = n := by
      rw [Nat.floor_eq_iff (by linarith [n.cast_nonneg (α := ℚ)])]
      exact ⟨reached, by linarith⟩
    rw [whole, if_neg]
    rintro (more | ⟨half, -⟩) <;> linarith
  · have missed : value < n := not_le.mp reached
    rcases n with _ | n
    · have whole : ⌊value⌋₊ = 0 := Nat.floor_eq_zero.mpr (by push_cast at missed; linarith)
      push_cast at missed
      simp only [whole, Nat.cast_zero, sub_zero]
      rw [if_neg]
      rintro (more | ⟨half, -⟩) <;> linarith
    · push_cast at below missed
      have whole : ⌊value⌋₊ = n := by
        rw [Nat.floor_eq_iff (by linarith [n.cast_nonneg (α := ℚ)])]
        exact ⟨by linarith, missed⟩
      rw [whole, if_pos (.inl (by linarith))]

theorem le_nearestInt {value : ℚ} {n : ℕ} (le : (n : ℚ) ≤ value) : n ≤ nearestInt value := by
  have whole : n ≤ ⌊value⌋₊ := Nat.le_floor le
  unfold nearestInt
  dsimp only
  split <;> omega

/-! ## Ratios -/

/-- A quotient of natural numbers is rounded as its value is. -/
theorem roundDiv_eq {num den : ℕ} (pos : 0 < den) : roundDiv num den = nearestInt (num / den) := by
  have den_pos : (0 : ℚ) < den := by exact_mod_cast pos
  have whole : ⌊(num : ℚ) / den⌋₊ = num / den := Nat.floor_div_eq_div num den
  have rest : (num : ℚ) / den - ((num / den : ℕ) : ℚ) = ((num % den : ℕ) : ℚ) / den := by
    have split : (num : ℚ) = den * ((num / den : ℕ) : ℚ) + ((num % den : ℕ) : ℚ) := by
      exact_mod_cast (Nat.div_add_mod num den).symm
    rw [eq_div_iff den_pos.ne', sub_mul, div_mul_cancel₀ _ den_pos.ne']
    linarith
  have more : 1 / 2 < ((num % den : ℕ) : ℚ) / den ↔ den < 2 * (num % den) := by
    rw [div_lt_div_iff₀ two_pos den_pos, one_mul, mul_comm]
    exact_mod_cast Iff.rfl
  have half : ((num % den : ℕ) : ℚ) / den = 1 / 2 ↔ 2 * (num % den) = den := by
    rw [div_eq_div_iff den_pos.ne' two_ne_zero, one_mul, mul_comm]
    exact_mod_cast Iff.rfl
  simp only [roundDiv, nearestInt, whole, rest, more, half, Bool.or_eq_true, Bool.and_eq_true,
    decide_eq_true_eq]

/-- A power with a natural exponent, where the exponent is not negative. -/
theorem cast_pow_up (base : ℕ) {power : ℤ} (up : 0 ≤ power) :
    ((Nat.pow base power.toNat : ℕ) : ℚ) = (base : ℚ) ^ power := by
  lift power to ℕ using up
  simp

/-- A power with a natural exponent, where the exponent is negative. -/
theorem cast_pow_down (base : ℕ) {power : ℤ} (down : ¬ 0 ≤ power) :
    ((Nat.pow base (-power).toNat : ℕ) : ℚ) = ((base : ℚ) ^ power)⁻¹ := by
  have up : 0 ≤ -power := by omega
  rw [cast_pow_up base up, zpow_neg]

theorem roundScaled_eq {num den : ℕ} (pos : 0 < den) (scale : ℤ) :
    roundScaled num den scale = nearestInt (num / den / 2 ^ scale) := by
  unfold roundScaled
  split
  · rename_i up
    have more : 0 < den * Nat.pow 2 scale.toNat := Nat.mul_pos pos (Nat.pow_pos two_pos)
    rw [roundDiv_eq more, Nat.cast_mul, cast_pow_up 2 up, div_div]
    rfl
  · rename_i down
    rw [roundDiv_eq pos, Nat.cast_mul, cast_pow_down 2 down, mul_div_right_comm]
    rfl

/-- Whether a ratio reaches a power of two is a question of natural numbers. -/
theorem reached_iff (num : ℕ) {den : ℕ} (pos : 0 < den) (power : ℤ) :
    (if 0 ≤ power then den * Nat.pow 2 power.toNat ≤ num else den ≤ num * Nat.pow 2 (-power).toNat) ↔
      (2 : ℚ) ^ power ≤ num / den := by
  have den_pos : (0 : ℚ) < den := by exact_mod_cast pos
  rw [le_div_iff₀ den_pos]
  split
  · rename_i up
    rw [← Nat.cast_le (α := ℚ), Nat.cast_mul, cast_pow_up 2 up, mul_comm]
    rfl
  · rename_i down
    rw [← Nat.cast_le (α := ℚ), Nat.cast_mul, cast_pow_down 2 down, ← div_eq_mul_inv,
      le_div_iff₀ (by positivity), mul_comm]
    rfl

theorem log2_around {n : ℕ} (pos : 0 < n) :
    (2 : ℚ) ^ (n.log2 : ℤ) ≤ n ∧ (n : ℚ) < 2 ^ ((n.log2 : ℤ) + 1) := by
  constructor
  · exact_mod_cast Nat.log2_self_le pos.ne'
  · exact_mod_cast Nat.lt_log2_self

/-- A ratio is above half the power of two that the logarithms of its parts suggest, and below its double. -/
theorem ratio_around {num den : ℕ} (num_pos : 0 < num) (den_pos : 0 < den) :
    (2 : ℚ) ^ ((num.log2 : ℤ) - den.log2 - 1) ≤ num / den ∧
      (num : ℚ) / den < 2 ^ ((num.log2 : ℤ) - den.log2 + 1) := by
  have den_pos' : (0 : ℚ) < den := by exact_mod_cast den_pos
  obtain ⟨num_low, num_high⟩ := log2_around num_pos
  obtain ⟨den_low, den_high⟩ := log2_around den_pos
  rw [le_div_iff₀ den_pos', div_lt_iff₀ den_pos']
  constructor
  · calc (2 : ℚ) ^ ((num.log2 : ℤ) - den.log2 - 1) * den
        ≤ 2 ^ ((num.log2 : ℤ) - den.log2 - 1) * 2 ^ ((den.log2 : ℤ) + 1) := by
          gcongr
      _ = 2 ^ (num.log2 : ℤ) := by
          rw [← zpow_add₀ two_ne_zero]
          congr 1
          omega
      _ ≤ num := num_low
  · calc (num : ℚ) < 2 ^ ((num.log2 : ℤ) + 1) := num_high
      _ = 2 ^ ((num.log2 : ℤ) - den.log2 + 1) * 2 ^ (den.log2 : ℤ) := by
          rw [← zpow_add₀ two_ne_zero]
          congr 1
          omega
      _ ≤ 2 ^ ((num.log2 : ℤ) - den.log2 + 1) * den := by
          gcongr

/-- Which power of two the value of a ratio reaches is found from natural numbers. -/
theorem binade_eq {num den : ℕ} (num_pos : 0 < num) (den_pos : 0 < den) :
    binade num den = Int.log 2 ((num : ℚ) / den) := by
  have ratio_pos : (0 : ℚ) < num / den := by positivity
  have reaches : ∀ power : ℤ, (2 : ℚ) ^ power ≤ num / den ↔ power ≤ Int.log 2 ((num : ℚ) / den) :=
    fun power => by exact_mod_cast Int.zpow_le_iff_le_log one_lt_two ratio_pos
  obtain ⟨low, high⟩ := ratio_around num_pos den_pos
  rw [← not_le] at high
  unfold binade
  dsimp only
  simp only [reached_iff num den_pos]
  rw [reaches] at low high
  by_cases holds : (2 : ℚ) ^ ((num.log2 : ℤ) - den.log2) ≤ num / den
  · rw [if_pos holds]
    rw [reaches] at holds
    omega
  · rw [if_neg holds]
    rw [reaches] at holds
    omega

/-- A ratio is rounded to the number that is nearest to its value. -/
theorem ofRatio_eq (negative : Bool) (num : ℕ) {den : ℕ} (pos : 0 < den) :
    ofRatio negative num den = nearest negative (num / den) := by
  unfold ofRatio nearest
  by_cases zero : num = 0
  · simp [zero]
  · have den_ne : (den : ℚ) ≠ 0 := by exact_mod_cast pos.ne'
    have value_ne : (num : ℚ) / den ≠ 0 := div_ne_zero (by exact_mod_cast zero) den_ne
    rw [if_neg zero, if_neg value_ne]
    dsimp only
    rw [binade_eq (Nat.pos_of_ne_zero zero) pos, roundScaled_eq pos]
    rfl

/-! ## Numbers stand for themselves -/

/-- The place of a number, from its significand and its scale. -/
theorem place_eq (x : Double) : x.place = (x.scale + 1074).toNat * 4503599627370496 + x.significand := by
  have power : Nat.pow 2 52 = 4503599627370496 := by norm_num
  unfold scale significand
  rw [power]
  split <;> omega

theorem scale_ge (x : Double) : -1074 ≤ x.scale := by
  unfold scale
  omega

/-- The significand has all its digits, unless the number stands on the finest grid. -/
theorem significand_cases (x : Double) :
    (4503599627370496 ≤ x.significand ∧ x.significand < 9007199254740992) ∨
      (x.significand < 4503599627370496 ∧ x.scale = -1074) := by
  have power : Nat.pow 2 52 = 4503599627370496 := by norm_num
  unfold scale significand
  rw [power]
  split <;> omega

theorem significand_pos {x : Double} (nonzero : x.place ≠ 0) : 0 < x.significand := by
  have place := x.place_eq
  have scale := x.scale_ge
  rcases x.significand_cases with full | fine
  · omega
  · omega

theorem magnitude_pos {x : Double} (nonzero : x.place ≠ 0) : 0 < x.magnitude := by
  have significand : (0 : ℚ) < x.significand := by exact_mod_cast significand_pos nonzero
  unfold magnitude
  positivity

/-- A value in units of a power of two reaches the powers that it reaches itself, moved by that power. -/
theorem zpow_le_scaled_iff {value : ℚ} (positive : 0 < value) (scale power : ℤ) :
    (2 : ℚ) ^ power ≤ value / 2 ^ scale ↔ scale + power ≤ Int.log 2 value := by
  have reaches := Int.zpow_le_iff_le_log (x := scale + power) one_lt_two positive
  rw [le_div_iff₀ (by positivity), mul_comm, ← zpow_add₀ two_ne_zero]
  exact_mod_cast reaches

section Near

variable {x : Double} {value : ℚ} (near : |value - x.magnitude| * 18014398509481984 < x.magnitude)
  (nonzero : x.place ≠ 0)

include near

/-- A value near a number, in units of the number's grid. -/
theorem near_significand : (x.significand : ℚ) - x.significand / 18014398509481984 < value / 2 ^ x.scale ∧
    value / 2 ^ x.scale < x.significand + x.significand / 18014398509481984 := by
  have unit : (0 : ℚ) < 2 ^ x.scale := by positivity
  have apart : |value - x.magnitude| < x.magnitude / 18014398509481984 := by
    rw [lt_div_iff₀ (by norm_num)]
    exact near
  obtain ⟨below, above⟩ := abs_lt.mp apart
  rw [lt_div_iff₀ unit, div_lt_iff₀ unit]
  unfold magnitude at below above
  constructor <;> linarith

include nonzero

/-- Which power of two is reached near a number. -/
theorem log_near : 0 < value ∧ Int.log 2 value < x.scale + 53 ∧
    (4503599627370496 ≤ x.significand → x.scale + 51 ≤ Int.log 2 value) ∧
    (4503599627370496 < x.significand → x.scale + 52 ≤ Int.log 2 value) := by
  have unit : (0 : ℚ) < 2 ^ x.scale := by positivity
  obtain ⟨below, above⟩ := near_significand near
  have some : (1 : ℚ) ≤ x.significand := by exact_mod_cast significand_pos nonzero
  have most : (x.significand : ℚ) + 1 ≤ 9007199254740992 := by
    have cases := x.significand_cases
    have bound : x.significand + 1 ≤ 9007199254740992 := by omega
    exact_mod_cast bound
  have scaled : 0 < value / (2 : ℚ) ^ x.scale := by linarith
  have positive : 0 < value := (div_pos_iff_of_pos_right unit).mp scaled
  have reaches := zpow_le_scaled_iff positive x.scale
  refine ⟨positive, ?_, fun full => ?_, fun more => ?_⟩
  · rw [← not_le, ← reaches 53, not_le]
    norm_num
    linarith
  · have full' : (4503599627370496 : ℚ) ≤ x.significand := by exact_mod_cast full
    rw [← reaches 51]
    norm_num
    linarith
  · have more' : (4503599627370496 : ℚ) + 1 ≤ x.significand := by exact_mod_cast more
    rw [← reaches 52]
    norm_num
    linarith

/-- A value that differs from a number by less than its 2^54-th part stands on the grid of the number, or
on the next finer one if the number is the first of its grid. -/
theorem gridOf_near :
    gridOf value = x.scale ∨ (gridOf value = x.scale - 1 ∧ x.significand = 4503599627370496) := by
  obtain ⟨-, above, below, reached⟩ := log_near near nonzero
  have cases := x.significand_cases
  have least := x.scale_ge
  unfold gridOf
  omega

/-- A value that differs from a number by less than its 2^54-th part is nearest to that number. -/
theorem nearestPlace_near : nearestPlace value = x.place := by
  obtain ⟨below, above⟩ := near_significand near
  have most : (x.significand : ℚ) ≤ 9007199254740992 := by
    have cases := x.significand_cases
    have bound : x.significand ≤ 9007199254740992 := by omega
    exact_mod_cast bound
  unfold nearestPlace
  rw [x.place_eq]
  rcases gridOf_near near nonzero with same | ⟨finer, first⟩
  · rw [same, nearestInt_eq (n := x.significand)]
    · linarith
    · linarith
  · -- On the finer grid the first number of a grid has twice its significand.
    have halved : value / (2 : ℚ) ^ (x.scale - 1) = value / 2 ^ x.scale * 2 := by
      rw [zpow_sub₀ two_ne_zero, zpow_one]
      field_simp
    have least : -1074 ≤ gridOf value := le_max_right ..
    rw [first] at below above
    push_cast at below above
    rw [finer, halved, nearestInt_eq (n := 9007199254740992)]
    · omega
    · push_cast
      linarith
    · push_cast
      linarith

end Near

/-- A value that differs from a number by less than its 2^54-th part is read as that number. -/
theorem nearest_near {x : Double} {value : ℚ}
    (near : |value - x.magnitude| * 18014398509481984 < x.magnitude) (nonzero : x.place ≠ 0) :
    nearest x.negative value = x := by
  have positive := (log_near near nonzero).1
  have small : min x.place infinitePlace = x.place := Nat.min_eq_left x.place_le
  unfold nearest atPlace
  simp only [positive.ne', if_false, nearestPlace_near near nonzero, small]

/-! ## The ends of the range -/

theorem nearestPlace_tiny {value : ℚ} (positive : 0 < value) (tiny : value < 2 ^ (-1075 : ℤ)) :
    nearestPlace value = 0 := by
  have log_lt : Int.log 2 value < -1075 := (Int.lt_zpow_iff_log_lt one_lt_two positive).mp tiny
  have grid : gridOf value = -1074 := by
    unfold gridOf
    omega
  have half : value / (2 : ℚ) ^ (-1074 : ℤ) < 1 / 2 := by
    rw [div_lt_iff₀ (by positivity)]
    calc value < 2 ^ (-1075 : ℤ) := tiny
      _ = 1 / 2 * 2 ^ (-1074 : ℤ) := by
        rw [show (-1075 : ℤ) = -1 + -1074 by rfl, zpow_add₀ two_ne_zero]
        norm_num
  have above : 0 < value / (2 : ℚ) ^ (-1074 : ℤ) := by positivity
  unfold nearestPlace
  rw [grid]
  generalize value / (2 : ℚ) ^ (-1074 : ℤ) = scaled at half above ⊢
  rw [nearestInt_eq (n := 0)]
  · rfl
  · push_cast
    linarith
  · push_cast
    linarith

theorem infinitePlace_le_nearestPlace {value : ℚ} (huge : (2 : ℚ) ^ (1024 : ℤ) ≤ value) :
    infinitePlace ≤ nearestPlace value := by
  have positive : 0 < value := lt_of_lt_of_le (by positivity) huge
  have log_ge : 1024 ≤ Int.log 2 value := (Int.zpow_le_iff_le_log one_lt_two positive).mp huge
  have grid : gridOf value = Int.log 2 value - 52 := by
    unfold gridOf
    omega
  have full : ((4503599627370496 : ℕ) : ℚ) ≤ value / 2 ^ gridOf value := by
    rw [le_div_iff₀ (by positivity)]
    calc ((4503599627370496 : ℕ) : ℚ) * 2 ^ gridOf value = 2 ^ Int.log 2 value := by
          rw [grid, show ((4503599627370496 : ℕ) : ℚ) = 2 ^ (52 : ℤ) by norm_num, ← zpow_add₀ two_ne_zero]
          congr 1
          omega
      _ ≤ value := by exact_mod_cast Int.zpow_log_le_self one_lt_two positive
  have digits := le_nearestInt full
  unfold nearestPlace infinitePlace
  omega

end Double

namespace Decimal

/-- The magnitude that a decimal denotes. -/
def magnitude (d : Decimal) : ℚ := d.coefficient * 10 ^ d.exponent

theorem width_pos (n : ℕ) : 0 < width n := Nat.length_toDigits_pos

theorem width_le_iff {n k : ℕ} (positive : 0 < k) : width n ≤ k ↔ n < 10 ^ k :=
  Nat.length_toDigits_le_iff (by decide) positive

theorem lt_pow_width (n : ℕ) : n < 10 ^ width n := (width_le_iff (width_pos n)).mp le_rfl

/-- A number has as many digits as the powers of ten that it reaches. -/
theorem width_eq {n : ℕ} (positive : 0 < n) : (width n : ℤ) = Int.log 10 (n : ℚ) + 1 := by
  have pos := width_pos n
  have reached : 10 ^ (width n - 1) ≤ n := by
    rcases Nat.eq_zero_or_pos (width n - 1) with single | more
    · rw [single]
      exact positive
    · rw [← not_lt, ← width_le_iff more]
      omega
  have log : Nat.log 10 n = width n - 1 := by
    rw [Nat.log_eq_iff (by omega), Nat.sub_add_cancel pos]
    exact ⟨reached, lt_pow_width n⟩
  rw [Int.log_natCast]
  omega

theorem magnitude_pos {d : Decimal} (nonzero : d.coefficient ≠ 0) : 0 < d.magnitude := by
  have coefficient : (0 : ℚ) < d.coefficient := by exact_mod_cast Nat.pos_of_ne_zero nonzero
  unfold magnitude
  positivity

theorem log_magnitude {d : Decimal} (nonzero : d.coefficient ≠ 0) :
    Int.log 10 d.magnitude + 1 = width d.coefficient + d.exponent := by
  have coefficient : (0 : ℚ) < d.coefficient := by exact_mod_cast Nat.pos_of_ne_zero nonzero
  have ten : 1 < 10 := by decide
  have reached := Int.zpow_log_le_self ten coefficient
  have missed := Int.lt_zpow_succ_log_self ten (d.coefficient : ℚ)
  have low : ((10 : ℕ) : ℚ) ^ (Int.log 10 (d.coefficient : ℚ) + d.exponent) ≤ d.magnitude := by
    rw [zpow_add₀ (by norm_num)]
    unfold magnitude
    push_cast at reached ⊢
    gcongr
  have high : d.magnitude < ((10 : ℕ) : ℚ) ^ (Int.log 10 (d.coefficient : ℚ) + 1 + d.exponent) := by
    rw [zpow_add₀ (by norm_num)]
    unfold magnitude
    push_cast at missed ⊢
    gcongr
  have low' := (Int.zpow_le_iff_le_log ten (magnitude_pos nonzero)).mp low
  have high' := (Int.lt_zpow_iff_log_lt ten (magnitude_pos nonzero)).mp high
  rw [width_eq (Nat.pos_of_ne_zero nonzero)]
  omega

/-- Four hundred places before the point are more than any finite number has. -/
theorem two_pow_le : (2 : ℚ) ^ (1024 : ℤ) ≤ 10 ^ (400 : ℤ) := by
  have naturals : 2 ^ 1024 ≤ 10 ^ 400 := by decide +kernel
  exact_mod_cast naturals

/-- Four hundred places after the point are more than the least number needs. -/
theorem ten_pow_le : (10 : ℚ) ^ (-400 : ℤ) ≤ 2 ^ (-1075 : ℤ) := by
  have naturals : 2 ^ 1075 ≤ 10 ^ 400 := by decide +kernel
  rw [zpow_neg, zpow_neg]
  refine inv_anti₀ (by positivity) ?_
  exact_mod_cast naturals

/-- What a decimal is read as depends on its sign and its magnitude alone. -/
theorem toDouble_eq (d : Decimal) : d.toDouble = Double.nearest d.negative d.magnitude := by
  by_cases zero : d.coefficient = 0
  · simp [toDouble, Double.nearest, magnitude, zero]
  have positive := magnitude_pos zero
  have log := log_magnitude zero
  have ten : 1 < 10 := by decide
  unfold toDouble
  dsimp only
  simp only [zero, decide_false, Bool.false_or, decide_eq_true_eq]
  split
  · -- Below all numbers but zero.
    rename_i low
    have tiny : d.magnitude < ((10 : ℕ) : ℚ) ^ (-400 : ℤ) :=
      (Int.lt_zpow_iff_log_lt ten positive).mpr (by omega)
    have nearestZero := Double.nearestPlace_tiny positive
      (tiny.trans_le (by exact_mod_cast ten_pow_le))
    rw [Double.nearest, if_neg positive.ne', nearestZero]
  split
  · -- Above all finite numbers.
    rename_i high
    have huge : ((10 : ℕ) : ℚ) ^ (400 : ℤ) ≤ d.magnitude :=
      (Int.zpow_le_iff_le_log ten positive).mpr (by omega)
    have beyond := Double.infinitePlace_le_nearestPlace (two_pow_le.trans (by exact_mod_cast huge))
    simp only [Double.nearest, if_neg positive.ne', Double.infinity, Double.atPlace,
      Nat.min_eq_right beyond, Nat.min_self]
  split
  · rename_i up
    rw [Double.ofRatio_eq _ _ one_pos, Nat.cast_mul, Double.cast_pow_up 10 up]
    simp [magnitude]
  · rename_i down
    have pos : 0 < Nat.pow 10 (-d.exponent).toNat := Nat.pow_pos (by decide)
    rw [Double.ofRatio_eq _ _ pos, Double.cast_pow_down 10 down, div_inv_eq_mul]
    rfl

end Decimal
end ThreatModel
