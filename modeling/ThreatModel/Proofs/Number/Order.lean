import ThreatModel.Proofs.Number.Rounding

/-!
# The order of numbers and of their values

Numbers are compared by their places, and other values by the numbers nearest to them. Main statements: places with
their signs are ordered as the values are that stand at them, and rounding never turns an order around.
-/

namespace ThreatModel.Double

/-! ## Values -/

/-- The value of a finite number. Infinity, which has none, counts as the power of two after the finite numbers. -/
def value (x : Double) : ℚ := if x.negative then -x.magnitude else x.magnitude

variable {x y : Double}

theorem magnitude_nonneg (x : Double) : 0 ≤ x.magnitude := by
  unfold magnitude
  positivity

theorem magnitude_of_zero (zero : x.place = 0) : x.magnitude = 0 := by
  have none : x.significand = 0 := by
    have place := x.place_eq
    omega
  simp [magnitude, none]

/-- A greater scale makes up for a smaller significand. -/
theorem magnitude_lt (less : x.place < y.place) : x.magnitude < y.magnitude := by
  have placeX := x.place_eq
  have placeY := y.place_eq
  have leastX := x.scale_ge
  have leastY := y.scale_ge
  have casesX := x.significand_cases
  have casesY := y.significand_cases
  rcases lt_trichotomy x.scale y.scale with finer | same | coarser
  · have most : x.significand < 9007199254740992 := by omega
    have full : 4503599627370496 ≤ y.significand := by omega
    have next : x.scale + 1 ≤ y.scale := finer
    calc x.magnitude < ((9007199254740992 : ℕ) : ℚ) * 2 ^ x.scale := by
          unfold magnitude
          gcongr
      _ = ((4503599627370496 : ℕ) : ℚ) * 2 ^ (x.scale + 1) := by
          rw [zpow_add₀ two_ne_zero]
          norm_num
          ring
      _ ≤ y.significand * 2 ^ y.scale := by
          gcongr
          exact one_le_two
      _ = y.magnitude := rfl
  · have smaller : x.significand < y.significand := by omega
    unfold magnitude
    rw [same]
    gcongr
  · omega

/-- Numbers are ordered as their values, which the zeros share. -/
theorem value_lt_of_rank_lt (less : x.rank < y.rank) : x.value < y.value := by
  have nonnegX := x.magnitude_nonneg
  have nonnegY := y.magnitude_nonneg
  unfold rank at less
  unfold value
  cases signX : x.negative with
  | true =>
    cases signY : y.negative with
    | true =>
      simp only [signX, signY, if_true] at less ⊢
      have magnitudes : y.magnitude < x.magnitude := magnitude_lt (by omega)
      linarith
    | false =>
      simp only [signX, signY, if_true, Bool.false_eq_true, if_false] at less ⊢
      rcases Nat.eq_zero_or_pos x.place with zero | pos
      · have positive := magnitude_pos (x := y) (by omega)
        linarith
      · have positive := magnitude_pos pos.ne'
        linarith
  | false =>
    cases signY : y.negative with
    | true =>
      simp only [signX, signY, if_true, Bool.false_eq_true, if_false] at less
      omega
    | false =>
      simp only [signX, signY, Bool.false_eq_true, if_false] at less ⊢
      exact magnitude_lt (by omega)

theorem magnitude_eq (same : x.place = y.place) : x.magnitude = y.magnitude := by
  simp only [magnitude, significand, scale, same]

theorem value_eq_of_rank_eq (same : x.rank = y.rank) : x.value = y.value := by
  unfold rank at same
  have places : x.place = y.place := by
    split at same <;> split at same <;> omega
  have magnitudes := magnitude_eq places
  unfold value
  by_cases zero : x.place = 0
  · simp [magnitude_of_zero zero, ← magnitudes]
  · have signs : x.negative = y.negative := by
      cases signX : x.negative <;> cases signY : y.negative <;> simp [signX, signY] at same ⊢ <;> omega
    rw [signs, magnitudes]

theorem value_lt_iff : x.value < y.value ↔ x.rank < y.rank := by
  refine ⟨fun less => ?_, value_lt_of_rank_lt⟩
  rcases lt_trichotomy x.rank y.rank with lower | same | higher
  · exact lower
  · exact absurd (value_eq_of_rank_eq same) less.ne
  · exact absurd (value_lt_of_rank_lt higher) less.asymm

theorem value_eq_iff : x.value = y.value ↔ x.rank = y.rank := by
  refine ⟨fun same => ?_, value_eq_of_rank_eq⟩
  rcases lt_trichotomy x.rank y.rank with lower | same' | higher
  · exact absurd same (value_lt_of_rank_lt lower).ne
  · exact same'
  · exact absurd same (value_lt_of_rank_lt higher).ne'

/-! ## Rounding keeps the order -/

theorem nearestInt_mono {low high : ℚ} (nonneg : 0 ≤ low) (le : low ≤ high) : nearestInt low ≤ nearestInt high := by
  have floors : ⌊low⌋₊ ≤ ⌊high⌋₊ := Nat.floor_mono le
  rcases floors.lt_or_eq with apart | same
  · have reached : nearestInt low ≤ ⌊low⌋₊ + 1 := by
      unfold nearestInt
      dsimp only
      split <;> omega
    have least : ⌊high⌋₊ ≤ nearestInt high := le_nearestInt (Nat.floor_le (nonneg.trans le))
    omega
  · unfold nearestInt
    dsimp only
    rw [← same]
    by_cases up : 1 / 2 < high - ⌊low⌋₊ ∨ (high - ⌊low⌋₊ = 1 / 2 ∧ ⌊low⌋₊ % 2 = 1)
    · rw [if_pos up]
      split <;> omega
    · have down : ¬ (1 / 2 < low - ⌊low⌋₊ ∨ (low - ⌊low⌋₊ = 1 / 2 ∧ ⌊low⌋₊ % 2 = 1)) := by
        rintro (more | ⟨half, odd⟩)
        · exact up (.inl (by linarith))
        · rcases (show 1 / 2 ≤ high - ⌊low⌋₊ by linarith).lt_or_eq with more | exactly
          · exact up (.inl more)
          · exact up (.inr ⟨exactly.symm, odd⟩)
      rw [if_neg up, if_neg down]

theorem nearestInt_le {value : ℚ} {n : ℕ} (nonneg : 0 ≤ value) (less : value < n) : nearestInt value ≤ n := by
  have whole : ⌊value⌋₊ < n := (Nat.floor_lt nonneg).mpr less
  unfold nearestInt
  dsimp only
  split <;> omega

/-- On the grid of a value it has no more digits than a significand, and no fewer unless the grid is the finest. -/
theorem significand_around {value : ℚ} (positive : 0 < value) :
    value / 2 ^ gridOf value < (9007199254740992 : ℕ) ∧
      (-1074 < gridOf value → ((4503599627370496 : ℕ) : ℚ) ≤ value / 2 ^ gridOf value) := by
  have reaches := zpow_le_scaled_iff positive (gridOf value)
  constructor
  · rw [show ((9007199254740992 : ℕ) : ℚ) = 2 ^ (53 : ℤ) by norm_num, ← not_le, reaches, gridOf]
    omega
  · intro coarse
    rw [show ((4503599627370496 : ℕ) : ℚ) = 2 ^ (52 : ℤ) by norm_num, reaches]
    unfold gridOf at coarse ⊢
    omega

theorem nearestPlace_mono {low high : ℚ} (positive : 0 < low) (le : low ≤ high) :
    nearestPlace low ≤ nearestPlace high := by
  have positive' : 0 < high := positive.trans_le le
  have logs : Int.log 2 low ≤ Int.log 2 high := Int.log_mono_right positive le
  have grids : gridOf low ≤ gridOf high := by
    unfold gridOf
    omega
  unfold nearestPlace
  rcases grids.lt_or_eq with finer | same
  · -- The last number of a grid is the first of the next one.
    have most : nearestInt (low / 2 ^ gridOf low) ≤ 9007199254740992 :=
      nearestInt_le (by positivity) (significand_around positive).1
    have least : -1074 ≤ gridOf low := le_max_right ..
    have full : 4503599627370496 ≤ nearestInt (high / 2 ^ gridOf high) :=
      le_nearestInt ((significand_around positive').2 (by omega))
    omega
  · rw [← same]
    have inside : nearestInt (low / 2 ^ gridOf low) ≤ nearestInt (high / 2 ^ gridOf low) :=
      nearestInt_mono (by positivity) (by gcongr)
    omega

/-- The number nearest to a value. -/
def ofRat (value : ℚ) : Double := nearest (value < 0) |value|

theorem place_nearest_mono {low high : ℚ} (nonneg : 0 ≤ low) (le : low ≤ high) (sign sign' : Bool) :
    (nearest sign low).place ≤ (nearest sign' high).place := by
  show min _ infinitePlace ≤ min _ infinitePlace
  rcases nonneg.eq_or_lt with rfl | positive
  · simp
  · rw [if_neg positive.ne', if_neg (positive.trans_le le).ne']
    exact min_le_min_right _ (nearestPlace_mono positive le)

theorem rank_ofRat (value : ℚ) :
    (ofRat value).rank = if value < 0 then -((ofRat value).place : ℤ) else (ofRat value).place := by
  by_cases below : value < 0
  · simp [rank, ofRat, nearest, atPlace, below]
  · simp [rank, ofRat, nearest, atPlace, below]

/-- Rounding does not turn an order around. -/
theorem rank_ofRat_mono {low high : ℚ} (le : low ≤ high) : (ofRat low).rank ≤ (ofRat high).rank := by
  rw [rank_ofRat, rank_ofRat]
  rcases lt_or_ge low 0 with below | above
  · rcases lt_or_ge high 0 with below' | above'
    · have places : (ofRat high).place ≤ (ofRat low).place :=
        place_nearest_mono (abs_nonneg _) (by rw [abs_of_neg below, abs_of_neg below']; linarith) _ _
      rw [if_pos below, if_pos below']
      omega
    · rw [if_pos below, if_neg above'.not_gt]
      omega
  · have above' : 0 ≤ high := above.trans le
    have places : (ofRat low).place ≤ (ofRat high).place :=
      place_nearest_mono (abs_nonneg _) (by rwa [abs_of_nonneg above, abs_of_nonneg above']) _ _
    rw [if_neg above.not_gt, if_neg above'.not_gt]
    omega

/-! ## What is rounded to itself -/

/-- An integer is read as the number nearest to it. -/
theorem ofInt_eq (n : ℤ) : ofInt n = ofRat n := by
  have sign : ((n : ℚ) < 0) = (n < 0) := by simp
  have size : |(n : ℚ)| = (n.natAbs : ℚ) / (1 : ℕ) := by simp [Nat.cast_natAbs]
  simp only [ofInt, ofRat, ofRatio_eq _ _ one_pos, sign, size]

/-- A number is the one nearest to its value, up to the sign of zero. -/
theorem rank_ofRat_value (x : Double) : (ofRat x.value).rank = x.rank := by
  by_cases zero : x.place = 0
  · have value : x.value = 0 := by simp [Double.value, magnitude_of_zero zero]
    simp [value, rank, zero, ofRat, nearest, atPlace]
  · have positive := magnitude_pos zero
    have own : nearest x.negative x.magnitude = x := nearest_near (by simpa using positive) zero
    have back : ofRat x.value = x := by
      cases sign : x.negative with
      | true =>
        have below : -x.magnitude < 0 := by linarith
        rw [sign] at own
        simp [ofRat, Double.value, sign, below, abs_of_pos positive, own]
      | false =>
        have above : ¬ x.magnitude < 0 := positive.le.not_gt
        rw [sign] at own
        simp [ofRat, Double.value, sign, above, abs_of_pos positive, own]
    rw [back]

/-- A value that some double has. -/
def Represented (value : ℚ) : Prop := ∃ x : Double, x.value = value

/-- On values of doubles rounding loses nothing. -/
theorem rank_ofRat_lt_iff {low high : ℚ} (left : Represented low) (right : Represented high) :
    (ofRat low).rank < (ofRat high).rank ↔ low < high := by
  obtain ⟨x, rfl⟩ := left
  obtain ⟨y, rfl⟩ := right
  rw [rank_ofRat_value, rank_ofRat_value, value_lt_iff]

theorem rank_ofRat_eq_iff {low high : ℚ} (left : Represented low) (right : Represented high) :
    (ofRat low).rank = (ofRat high).rank ↔ low = high := by
  obtain ⟨x, rfl⟩ := left
  obtain ⟨y, rfl⟩ := right
  rw [rank_ofRat_value, rank_ofRat_value, value_eq_iff]

/-- A significand with all its digits stands on the grid of each scale. -/
theorem exists_magnitude (negative : Bool) (digits : ℕ) (scale : ℤ) (full : 4503599627370496 ≤ digits)
    (fits : digits < 9007199254740992) (least : -1074 ≤ scale) (most : scale ≤ 971) :
    ∃ x : Double, x.negative = negative ∧ x.magnitude = digits * 2 ^ scale := by
  refine ⟨⟨negative, (scale + 1074).toNat * 4503599627370496 + digits, ?bound⟩, rfl, ?magnitude⟩
  case bound =>
    unfold infinitePlace
    omega
  case magnitude =>
    generalize shown : Double.mk negative _ _ = x
    have placeIs : x.place = (scale + 1074).toNat * 4503599627370496 + digits := by rw [← shown]
    have place := x.place_eq
    have cases := x.significand_cases
    have finest := x.scale_ge
    have sameScale : x.scale = scale := by omega
    have sameDigits : x.significand = digits := by omega
    rw [magnitude, sameScale, sameDigits]

/-- A number of no more digits than a significand has all of them on a finer grid. -/
theorem exists_full {n : ℕ} (positive : 0 < n) (fits : n < 9007199254740992) :
    ∃ shift ≤ 52, 4503599627370496 ≤ n * 2 ^ shift ∧ n * 2 ^ shift < 9007199254740992 := by
  have low : 2 ^ n.log2 ≤ n := Nat.log2_self_le positive.ne'
  have high : n < 2 ^ (n.log2 + 1) := Nat.lt_log2_self
  have log : n.log2 < 53 := (Nat.log2_lt positive.ne').mpr fits
  refine ⟨52 - n.log2, Nat.sub_le _ _, ?_, ?_⟩
  · calc 4503599627370496 = 2 ^ n.log2 * 2 ^ (52 - n.log2) := by
          rw [← pow_add, Nat.add_sub_cancel' (by omega)]
          norm_num
      _ ≤ n * 2 ^ (52 - n.log2) := Nat.mul_le_mul_right _ low
  · calc n * 2 ^ (52 - n.log2) < 2 ^ (n.log2 + 1) * 2 ^ (52 - n.log2) :=
          Nat.mul_lt_mul_of_pos_right high (Nat.two_pow_pos _)
      _ = 9007199254740992 := by
          rw [← pow_add, show n.log2 + 1 + (52 - n.log2) = 53 by omega]
          norm_num

/-- All integers of so many digits are values of doubles. -/
theorem represented_of_natAbs_le {n : ℤ} (small : n.natAbs ≤ 9007199254740992) : Represented n := by
  have signed {x : Double} (sign : x.negative = decide (n < 0)) (size : x.magnitude = n.natAbs) :
      x.value = n := by
    rw [value, sign, size]
    by_cases below : n < 0
    · simp [below, Nat.cast_natAbs, abs_of_neg (Int.cast_lt_zero.mpr below)]
    · simp [below, Nat.cast_natAbs, abs_of_nonneg (Int.cast_nonneg (not_lt.mp below))]
  rcases Nat.eq_zero_or_pos n.natAbs with zero | positive
  · exact ⟨.zero, by simp [Int.natAbs_eq_zero.mp zero, value, Double.zero, magnitude_of_zero]⟩
  rcases small.lt_or_eq with fits | greatest
  · obtain ⟨shift, bound, full, most⟩ := exists_full positive fits
    obtain ⟨x, sign, size⟩ := exists_magnitude (decide (n < 0)) _ (-(shift : ℤ)) full most (by omega) (by omega)
    refine ⟨x, signed sign ?_⟩
    rw [size, Nat.cast_mul, zpow_neg, zpow_natCast, Nat.cast_pow, Nat.cast_ofNat,
      mul_inv_cancel_right₀ (by positivity)]
  · obtain ⟨x, sign, size⟩ := exists_magnitude (decide (n < 0)) 4503599627370496 1 (by omega) (by omega) (by omega)
      (by omega)
    refine ⟨x, signed sign ?_⟩
    rw [size, greatest]
    norm_num

end ThreatModel.Double
