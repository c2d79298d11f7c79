import ThreatModel.Number.Shortest
import ThreatModel.Proofs.Number.Rounding

/-!
# The shortest digits read back

The digits of a number are looked for on finer and finer grids. Main statements: on the grid of eighteen
digits one of the neighbours of the number reads back as the number, so the search never comes to its end
without digits, and the digits that it finds are read as the number.
-/

namespace ThreatModel.Shortest

/-- The magnitude that digits denote. -/
def Digits.magnitude (d : Digits) : ℚ := d.digits * 10 ^ d.exponent

/-! ## The magnitude of a number -/

theorem ratio_den_pos (x : Double) : 0 < (ratio x).2 := by
  unfold ratio
  split
  · exact one_pos
  · exact Nat.pow_pos two_pos

theorem ratio_eq (x : Double) : ((ratio x).1 : ℚ) / (ratio x).2 = x.magnitude := by
  unfold ratio Double.magnitude
  split
  · rename_i up
    rw [Nat.cast_mul, Double.cast_pow_up 2 up]
    simp
  · rename_i down
    rw [Double.cast_pow_down 2 down, div_inv_eq_mul]
    rfl

theorem ratio_num_pos {x : Double} (nonzero : x.place ≠ 0) : 0 < (ratio x).1 := by
  have den : (0 : ℚ) < (ratio x).2 := by exact_mod_cast ratio_den_pos x
  have quotient : 0 < ((ratio x).1 : ℚ) / (ratio x).2 := ratio_eq x ▸ x.magnitude_pos nonzero
  exact_mod_cast (div_pos_iff_of_pos_right den).mp quotient

/-- A ratio has at most one digit less before the point than its bound says. -/
theorem pow_pointOf_le {num den : ℕ} (num_pos : 0 < num) (den_pos : 0 < den) :
    (10 : ℚ) ^ (pointOf num den - 2) ≤ num / den := by
  have num_pos' : (0 : ℚ) < num := by exact_mod_cast num_pos
  have den_pos' : (0 : ℚ) < den := by exact_mod_cast den_pos
  have ten : 1 < 10 := by decide
  unfold pointOf
  split
  · rename_i large
    have whole : 0 < num / den := Nat.div_pos large den_pos
    rw [Decimal.width_eq whole]
    have whole' : (0 : ℚ) < (num / den : ℕ) := by exact_mod_cast whole
    calc (10 : ℚ) ^ (Int.log 10 ((num / den : ℕ) : ℚ) + 1 - 2)
        ≤ ((10 : ℕ) : ℚ) ^ Int.log 10 ((num / den : ℕ) : ℚ) :=
          zpow_le_zpow_right₀ (by norm_num) (by omega)
      _ ≤ ((num / den : ℕ) : ℚ) := Int.zpow_log_le_self ten whole'
      _ ≤ num / den := Nat.cast_div_le
  · rename_i small
    have below := (Nat.div_lt_iff_lt_mul num_pos).mp (Decimal.lt_pow_width (den / num))
    have bound : (den : ℚ) ≤ num * 10 ^ Decimal.width (den / num) := by
      rw [mul_comm]
      exact_mod_cast below.le
    rw [show 2 - (Decimal.width (den / num) : ℤ) - 2 = -(Decimal.width (den / num) : ℤ) by ring, zpow_neg,
      zpow_natCast, inv_le_iff_one_le_mul₀ (by positivity), div_mul_eq_mul_div, one_le_div den_pos']
    exact bound

/-! ## Reading digits back -/

variable {x : Double}

theorem readsBack_iff (d : Digits) :
    readsBack x d = true ↔ Double.nearest x.negative d.magnitude = x := by
  have place : (Decimal.toDouble ⟨false, d.digits, d.exponent⟩).place =
      (Double.nearest x.negative d.magnitude).place := by
    rw [Decimal.toDouble_eq]
    rfl
  unfold readsBack
  rw [decide_eq_true_iff, place]
  constructor
  · intro same
    cases x
    simp only [Double.nearest, Double.atPlace, Double.mk.injEq, true_and] at same ⊢
    exact same
  · intro same
    rw [same]

theorem readsBack_near (nonzero : x.place ≠ 0) {d : Digits}
    (near : |d.magnitude - x.magnitude| * 18014398509481984 < x.magnitude) : readsBack x d = true :=
  (readsBack_iff d).mpr (Double.nearest_near near nonzero)

/-! ## Grids -/

/-- A value stands between the whole units in it and one more, where a quotient of natural numbers counts its
units. -/
theorem units_around {value unit : ℚ} (unit_pos : 0 < unit) {top bottom : ℕ} (pos : 0 < bottom)
    (counts : (top : ℚ) / bottom = value / unit) :
    ((top / bottom : ℕ) : ℚ) * unit ≤ value ∧ value ≤ ((top / bottom : ℕ) : ℚ) * unit + unit := by
  have low : ((top / bottom : ℕ) : ℚ) ≤ top / bottom := Nat.cast_div_le
  have high : (top : ℚ) / bottom ≤ ((top / bottom : ℕ) : ℚ) + 1 := by
    rw [div_le_iff₀ (by exact_mod_cast pos)]
    exact_mod_cast (Nat.lt_mul_of_div_lt (Nat.lt_succ_self _) pos).le
  rw [counts, le_div_iff₀ unit_pos] at low
  rw [counts, div_le_iff₀ unit_pos, add_mul, one_mul] at high
  exact ⟨low, high⟩

/-- A number stands between its neighbours on a grid. -/
theorem neighbours_around (num : ℕ) {den : ℕ} (den_pos : 0 < den) (exponent : ℤ) :
    (neighbours num den exponent).1.magnitude ≤ num / den ∧
      (num : ℚ) / den ≤ (neighbours num den exponent).1.magnitude + 10 ^ exponent ∧
      (neighbours num den exponent).2.magnitude =
        (neighbours num den exponent).1.magnitude + 10 ^ exponent := by
  have unit : (0 : ℚ) < 10 ^ exponent := by positivity
  have around : (neighbours num den exponent).1.magnitude ≤ num / den ∧
      (num : ℚ) / den ≤ (neighbours num den exponent).1.magnitude + 10 ^ exponent := by
    unfold neighbours Digits.magnitude
    dsimp only
    split
    · rename_i up
      have pos : 0 < den * Nat.pow 10 exponent.toNat := Nat.mul_pos den_pos (Nat.pow_pos (by decide))
      refine units_around unit pos ?_
      rw [Nat.cast_mul, Double.cast_pow_up 10 up, div_div]
      rfl
    · rename_i down
      refine units_around unit den_pos ?_
      rw [Nat.cast_mul, Double.cast_pow_down 10 down, mul_div_right_comm]
      rfl
  refine ⟨around.1, around.2, ?_⟩
  unfold neighbours Digits.magnitude
  push_cast
  ring

/-- On the grid of eighteen digits a number has a neighbour that reads back. -/
theorem onGrid?_fine (nonzero : x.place ≠ 0) :
    (onGrid? x (pointOf (ratio x).1 (ratio x).2 - 18)).isSome = true := by
  have reached := pow_pointOf_le (ratio_num_pos nonzero) (ratio_den_pos x)
  obtain ⟨low, high, next⟩ := neighbours_around (ratio x).1 (ratio_den_pos x)
    (pointOf (ratio x).1 (ratio x).2 - 18)
  unfold onGrid?
  dsimp only
  rw [ratio_eq] at reached low high
  generalize neighbours _ _ _ = pair at low high next ⊢
  obtain ⟨below, above⟩ := pair
  generalize pointOf (ratio x).1 (ratio x).2 = point at reached high next ⊢
  have spacing : (10 : ℚ) ^ (point - 18) * 10000000000000000 = 10 ^ (point - 2) := by
    rw [show point - 2 = point - 18 + 16 by ring, zpow_add₀ (by norm_num : (10 : ℚ) ≠ 0) (point - 18)]
    norm_num
  -- The nearer neighbour is no more than half the spacing away.
  have near : readsBack x below = true ∨ readsBack x above = true := by
    simp only at low high next
    by_cases half : x.magnitude - below.magnitude ≤ 10 ^ (point - 18) / 2
    · refine .inl (readsBack_near nonzero ?_)
      rw [abs_of_nonpos (by linarith)]
      linarith [x.magnitude_pos nonzero]
    · refine .inr (readsBack_near nonzero ?_)
      rw [abs_of_nonneg (by linarith)]
      linarith [x.magnitude_pos nonzero]
  rcases near with found | found
  · cases readsBack x above <;> simp [found]
  · cases readsBack x below <;> simp [found]

theorem readsBack_of_onGrid? {exponent : ℤ} {found : Digits} (onGrid : onGrid? x exponent = some found) :
    readsBack x found = true := by
  unfold onGrid? at onGrid
  dsimp only at onGrid
  split at onGrid
  · rename_i below above
    cases onGrid
    split
    · exact below
    · exact above
  · rename_i below _
    cases onGrid
    exact below
  · rename_i _ above
    cases onGrid
    exact above
  · cases onGrid

/-- A search that comes to a grid with digits finds digits that read back. -/
theorem readsBack_search {point : ℤ} {last : ℕ} (found : (onGrid? x (point - last)).isSome = true)
    (count fuel : ℕ) (before : count ≤ last) (enough : last < count + fuel) :
    readsBack x (search x point count fuel) = true := by
  induction fuel generalizing count with
  | zero => omega
  | succ fuel ih =>
    unfold search
    split
    · rename_i digits onGrid
      exact readsBack_of_onGrid? onGrid
    · rename_i missed
      have later : count ≠ last := by
        rintro rfl
        rw [missed] at found
        cases found
      exact ih (count + 1) (by omega) (by omega)

/-- Zeros at the end of digits count in the exponent. -/
theorem magnitude_strip (n : ℕ) (exponent : ℤ) (fuel : ℕ) :
    (digits.strip n exponent fuel).magnitude = n * 10 ^ exponent := by
  induction fuel generalizing n exponent with
  | zero => rfl
  | succ fuel ih =>
    unfold digits.strip
    split
    · rename_i zero
      simp only [ne_eq, Bool.and_eq_true, decide_eq_true_eq] at zero
      have tens : n = n / 10 * 10 := by omega
      have tens' : (n : ℚ) = (n / 10 : ℕ) * 10 := by exact_mod_cast tens
      rw [ih, zpow_add₀ (by norm_num), zpow_one, tens']
      ring
    · rfl

/-- The digits of a number other than zero are read as that number. -/
theorem nearest_digits (nonzero : x.place ≠ 0) : Double.nearest x.negative (digits x).magnitude = x := by
  have last : (onGrid? x (pointOf (ratio x).1 (ratio x).2 - (18 : ℕ))).isSome = true := onGrid?_fine nonzero
  have found := readsBack_search last 1 18 (by decide) (by decide)
  unfold digits
  dsimp only
  rw [magnitude_strip]
  exact (readsBack_iff _).mp found

end ThreatModel.Shortest
