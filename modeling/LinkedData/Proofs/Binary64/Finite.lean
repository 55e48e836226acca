import LinkedData.Binary64.Decimal
import Mathlib.Algebra.Group.Nat.Defs

/-!
# Results that stay finite

A fraction that is not above some finite number is rounded to a finite number
(`isFinite_ofRatio`): rounding does not lead over a whole number, and the largest significand is
one. So whole numbers of 64 bits are finite, a finite number divided by one or more is finite, and
the quick way from a decimal to a number never leads out of the finite numbers
(`isFinite_ofDecimalTwoStep`).
-/

namespace LinkedData.Binary64

/-! ## Rounding -/

theorem le_roundHalfEven (numerator denominator : Nat) :
    numerator / denominator ≤ roundHalfEven numerator denominator := by
  simp only [roundHalfEven]
  split
  · omega
  · split <;> omega

theorem roundHalfEven_le_succ (numerator denominator : Nat) :
    roundHalfEven numerator denominator ≤ numerator / denominator + 1 := by
  simp only [roundHalfEven]
  split
  · omega
  · split <;> omega

/-- Rounding does not lead over a whole number. -/
theorem roundHalfEven_le {numerator denominator bound : Nat}
    (h : numerator ≤ bound * denominator) : roundHalfEven numerator denominator ≤ bound := by
  have hle : numerator / denominator ≤ bound :=
    Nat.div_le_of_le_mul (Nat.mul_comm bound denominator ▸ h)
  rcases Nat.lt_or_eq_of_le hle with hlt | heq
  · exact Nat.le_trans (roundHalfEven_le_succ _ _) hlt
  · -- at the bound itself nothing is left to be rounded up
    have hdiv := Nat.div_add_mod numerator denominator
    rw [heq, Nat.mul_comm] at hdiv
    have hrest : numerator % denominator = 0 := by omega
    simp only [roundHalfEven, heq, hrest]
    split
    · exact Nat.le_refl _
    · rename_i hzero
      obtain rfl : denominator = 0 := by omega
      rw [Nat.div_zero] at heq
      subst heq
      exact Nat.le_refl _

/-- The rounded significand has 53 bits, or is the power of two above. -/
theorem rounded_le (scaled denominator : Nat) :
    roundHalfEven scaled (denominator <<< (Nat.log2 (scaled / denominator) - 52)) ≤
      2 * fractionSize := by
  generalize hquotient : scaled / denominator = quotient
  have hlog : quotient < 2 ^ (Nat.log2 quotient + 1) := Nat.lt_log2_self
  have hle : Nat.log2 quotient + 1 ≤ 53 + (Nat.log2 quotient - 52) := by omega
  have hshifted : scaled / (denominator <<< (Nat.log2 quotient - 52)) < 2 ^ 53 := by
    rw [Nat.shiftLeft_eq, ← Nat.div_div_eq_div_mul, hquotient]
    apply Nat.div_lt_of_lt_mul
    calc quotient < 2 ^ (Nat.log2 quotient + 1) := hlog
      _ ≤ 2 ^ (53 + (Nat.log2 quotient - 52)) := Nat.pow_le_pow_right (by decide) hle
      _ = 2 ^ (Nat.log2 quotient - 52) * 2 ^ 53 := by rw [Nat.pow_add, Nat.mul_comm]
  have hsize : 2 * fractionSize = 2 ^ 53 := by decide
  have := roundHalfEven_le_succ scaled (denominator <<< (Nat.log2 quotient - 52))
  omega

/-! ## Magnitudes -/

theorem magnitude_ofMagnitude (negative : Bool) {magnitude : Nat} (h : magnitude < 1 <<< 63) :
    (ofMagnitude negative magnitude).magnitude = magnitude := by
  have hbits : (ofMagnitude negative magnitude).bits.toNat =
      if negative then (1 <<< 63) + magnitude else magnitude := by
    rw [ofMagnitude]
    apply UInt64.toNat_ofNat_of_lt'
    have hsize : UInt64.size = 1 <<< 63 + 1 <<< 63 := rfl
    split <;> omega
  rw [Binary64.magnitude, hbits]
  split
  · rw [Nat.add_mod_left, Nat.mod_eq_of_lt h]
  · exact Nat.mod_eq_of_lt h

theorem isFinite_ofMagnitude (negative : Bool) {magnitude : Nat}
    (h : magnitude < infinityMagnitude) :
    (ofMagnitude negative magnitude).isFinite = true := by
  have hlarge : infinityMagnitude < 1 <<< 63 := by decide
  rw [isFinite, magnitude_ofMagnitude negative (Nat.lt_trans h hlarge)]
  exact decide_eq_true h

theorem isFinite_neg {x : Binary64} (h : x.isFinite = true) : x.neg.isFinite = true :=
  isFinite_ofMagnitude _ (of_decide_eq_true h)

/-- The significand of a number has 53 bits. -/
theorem significand_lt (x : Binary64) : x.significand < 2 ^ 53 := by
  have hmod : x.magnitude % fractionSize < fractionSize := Nat.mod_lt _ (by decide)
  have hsize : fractionSize = 2 ^ 52 := Nat.one_shiftLeft 52
  rw [significand]
  split <;> omega

theorem scale_le {x : Binary64} (h : x.isFinite = true) : x.scale ≤ 2045 := by
  have hlt : x.magnitude < 2047 * fractionSize := of_decide_eq_true h
  have hdiv : x.magnitude / fractionSize < 2047 :=
    Nat.div_lt_of_lt_mul (Nat.mul_comm 2047 fractionSize ▸ hlt)
  rw [scale]
  omega

/-- Numbers from one on are at least one. -/
theorem unitsPerOne_le_units {x : Binary64} (h : 1023 * fractionSize ≤ x.magnitude) :
    unitsPerOne ≤ x.units := by
  have hpos : 0 < fractionSize := by decide
  have hnormal : ¬ x.magnitude < fractionSize := by omega
  have hscale : 1022 ≤ x.scale := by
    have hdiv : 1023 ≤ x.magnitude / fractionSize := (Nat.le_div_iff_mul_le hpos).2 h
    rw [scale]
    omega
  rw [units, significand, if_neg hnormal, Nat.shiftLeft_eq]
  calc unitsPerOne = fractionSize * 2 ^ 1022 := by decide +kernel
    _ ≤ (fractionSize + x.magnitude % fractionSize) * 2 ^ x.scale :=
      Nat.mul_le_mul (Nat.le_add_right _ _) (Nat.pow_le_pow_right (by decide) hscale)

/-! ## Fractions -/

/-- A fraction that is not above a finite number is rounded to a finite number. -/
theorem isFinite_ofRatio {negative : Bool} {numerator denominator bound scale : Nat}
    (hbound : bound < 2 ^ 53) (hscale : scale ≤ 2045)
    (h : numerator * unitsPerOne ≤ bound * 2 ^ scale * denominator) :
    (ofRatio negative numerator denominator).isFinite = true := by
  rw [ofRatio]
  generalize numerator * unitsPerOne = scaled at h ⊢
  have hquotient : scaled / denominator ≤ bound * 2 ^ scale :=
    Nat.div_le_of_le_mul (Nat.mul_comm _ denominator ▸ h)
  have hexponent : Nat.log2 (scaled / denominator) - 52 ≤ scale := by
    by_cases hzero : scaled / denominator = 0
    · rw [hzero]
      exact Nat.zero_le _
    · have hlog : Nat.log2 (scaled / denominator) < 53 + scale := by
        rw [Nat.log2_lt hzero, Nat.pow_add]
        exact Nat.lt_of_le_of_lt hquotient
          (Nat.mul_lt_mul_of_pos_right hbound (Nat.two_pow_pos scale))
      omega
  have hinfinity : infinityMagnitude = 2047 * fractionSize := rfl
  have hpos : 0 < fractionSize := by decide
  apply isFinite_ofMagnitude
  refine Nat.lt_of_le_of_lt (Nat.min_le_left _ _) ?_
  rcases Nat.lt_or_eq_of_le (Nat.le_trans hexponent hscale) with hsmall | hlarge
  · have hrounded := rounded_le scaled denominator
    generalize roundHalfEven _ _ = rounded at hrounded ⊢
    have hproduct := Nat.mul_le_mul_right fractionSize (Nat.le_of_lt_succ hsmall)
    omega
  · -- at the largest exponent the bound keeps the significand from being rounded up
    have hrounded : roundHalfEven scaled
        (denominator <<< (Nat.log2 (scaled / denominator) - 52)) ≤ bound := by
      have hsame : Nat.log2 (scaled / denominator) - 52 = scale := by omega
      apply roundHalfEven_le
      rw [hsame, Nat.shiftLeft_eq, Nat.mul_comm denominator, ← Nat.mul_assoc]
      exact h
    have hsize : 2 * fractionSize = 2 ^ 53 := by decide
    rw [hlarge] at hrounded ⊢
    omega

/-- The size of a unit is kept a name, so that its power of two is not computed. -/
theorem exists_unitsPerOne_eq : ∃ size, size = 1074 ∧ unitsPerOne = 2 ^ size := by
  obtain ⟨size, hsize⟩ : ∃ size, size = 1074 := ⟨_, rfl⟩
  refine ⟨size, hsize, ?_⟩
  rw [unitsPerOne, ← hsize, Nat.one_shiftLeft]

/-- Whole numbers of 64 bits are finite. -/
theorem isFinite_ofNat {n : Nat} (h : n ≤ 2 ^ 64) : (ofNat n).isFinite = true := by
  obtain ⟨size, hsize, hunits⟩ := exists_unitsPerOne_eq
  refine isFinite_ofRatio (show 1 < 2 ^ 53 by decide) (show 64 + size ≤ 2045 by omega) ?_
  rw [hunits, Nat.one_mul, Nat.mul_one, Nat.pow_add]
  exact Nat.mul_le_mul_right _ h

/-- Positive whole numbers are at least one. -/
theorem unitsPerOne_le_ofNat {n : Nat} (h : 0 < n) : unitsPerOne ≤ (ofNat n).units := by
  apply unitsPerOne_le_units
  have hlarge : infinityMagnitude < 1 <<< 63 := by decide
  rw [ofNat, ofRatio, magnitude_ofMagnitude _ (Nat.lt_of_le_of_lt (Nat.min_le_right _ _) hlarge)]
  obtain ⟨size, hsize, hunits⟩ := exists_unitsPerOne_eq
  have hscaled : 2 ^ size ≤ n * unitsPerOne := by
    rw [hunits]
    exact Nat.le_mul_of_pos_left _ h
  rw [Nat.div_one, Nat.one_shiftLeft]
  generalize n * unitsPerOne = scaled at hscaled ⊢
  have hne : scaled ≠ 0 := Nat.ne_of_gt (Nat.lt_of_lt_of_le (Nat.two_pow_pos _) hscaled)
  have hlog : size ≤ Nat.log2 scaled := (Nat.le_log2 hne).2 hscaled
  have hrounded : fractionSize ≤ roundHalfEven scaled (2 ^ (Nat.log2 scaled - 52)) := by
    refine Nat.le_trans ?_ (le_roundHalfEven _ _)
    rw [Nat.le_div_iff_mul_le (Nat.two_pow_pos _), fractionSize, Nat.one_shiftLeft, ← Nat.pow_add]
    calc 2 ^ (52 + (Nat.log2 scaled - 52)) = 2 ^ Nat.log2 scaled := by
          rw [Nat.add_sub_cancel' (by omega)]
      _ ≤ scaled := Nat.log2_self_le hne
  have hexponent : 1022 * fractionSize ≤ (Nat.log2 scaled - 52) * fractionSize :=
    Nat.mul_le_mul_right _ (by omega)
  have hinfinity : infinityMagnitude = 2047 * fractionSize := rfl
  rw [Nat.le_min]
  omega

/-- Dividing by one or more does not lead out of the finite numbers. -/
theorem isFinite_div {x y : Binary64} (hx : x.isFinite = true) (hy : unitsPerOne ≤ y.units) :
    (x.div y).isFinite = true := by
  apply isFinite_ofRatio x.significand_lt (scale_le hx)
  rw [units, Nat.shiftLeft_eq]
  exact Nat.mul_le_mul_left _ hy

/-! ## Decimals -/

theorem isFinite_scaleDown {x : Binary64} (hx : x.isFinite = true) (exponent fuel : Nat) :
    (x.scaleDown exponent fuel).isFinite = true := by
  have hpower : ∀ k, unitsPerOne ≤ (ofNat (Nat.pow 10 k)).units := fun k =>
    unitsPerOne_le_ofNat (Nat.pow_pos (by decide))
  induction fuel generalizing x exponent with
  | zero => exact hx
  | succ fuel ih =>
    rw [scaleDown]
    split
    · exact isFinite_div hx (hpower exponent)
    · split
      · exact hx
      · exact ih (isFinite_div hx (hpower maxPower)) _

/-- The quick way from a decimal leads to finite numbers. -/
theorem isFinite_ofDecimalTwoStep {digits : Nat} {exponent : Int} {x : Binary64}
    (hdigits : digits ≤ 2 ^ 64) (h : ofDecimalTwoStep digits exponent = some x) :
    x.isFinite = true := by
  have hfinite := isFinite_ofNat hdigits
  rw [ofDecimalTwoStep] at h
  dsimp only at h
  split at h
  · exact Option.some.inj h ▸ isFinite_scaleDown hfinite _ _
  · split at h
    · exact Option.some.inj h ▸ hfinite
    · split at h
      · cases h
      · split at h
        · rename_i hscaled
          exact Option.some.inj h ▸ hscaled
        · cases h

end LinkedData.Binary64
