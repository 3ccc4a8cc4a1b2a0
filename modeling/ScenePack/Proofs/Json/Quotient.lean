import ScenePack.Proofs.Binary.Nearest
import ScenePack.Proofs.Decimal.Basin
import ScenePack.Proofs.Json.Numbers

/-!
# Fractions of few digits

A number with a fraction is read as the quotient of its digits and a power of ten. If both are so
small that they are doubles, only the quotient is rounded, and the double that is read is the nearest
to the number that is written.

Results:
* `exists_whole`: whole numbers of few digits are doubles.
* `number_quotient`: the quotient is rounded once.
* **`exists_quotient`**: a fraction of few digits lies in the basin of the double that it is read as.
-/

namespace ScenePack.Json

open BinaryFormat Decimal

variable {c k : Nat}

/-- A whole number of few digits is a double. -/
theorem exists_whole (hc : c ≤ 10 ^ 15) : ∃ w < double.infinity,
    double.ofFraction false (c * double.one) 1 = ⟨false, w⟩ ∧ double.units w = c * double.one := by
  obtain ⟨w, hw⟩ := exists_units_of_hasBits (F := double) (hasBits_of_lt (hc.trans_lt (by decide)))
  have hfinite : w < double.infinity := by
    refine double.units_strictMono.lt_iff_lt.mp ?_
    rw [hw]
    exact (Nat.mul_le_mul_right _ hc).trans_lt (by decide +kernel)
  refine ⟨w, hfinite, ?_, hw⟩
  have hround := round_units (F := double) (by decide) Nat.one_pos hfinite.le
  rw [hw, Nat.mul_one] at hround
  rw [ofFraction, hround]

/-- A whole number, before it is rounded. -/
theorem number_ofInt (c : Nat) :
    (Double.ofInt c).number = double.ofFraction false (c * double.one) 1 := by
  have hint : double.ofInt c = double.ofFraction false (c * double.one) 1 := by
    unfold BinaryFormat.ofInt
    rw [Int.natAbs_natCast, decide_eq_false (by omega)]
  rw [Double.ofInt, hint, Double.number_ofNumber_of_ordered (ordered_ofFraction _ _ _)]

/-- The double of a fraction is its quotient, rounded once. -/
theorem number_quotient (hc : c ≤ 10 ^ 15) (hk : k ≤ 15) :
    ((Double.ofInt c).div (powerOfTen k)).number =
      double.ofFraction false (c * double.one * double.one) (10 ^ k * double.one) := by
  obtain ⟨v, hv, hnum, hvunits⟩ := exists_whole hc
  obtain ⟨p, hp, hpow, hpunits⟩ := exists_whole (Nat.pow_le_pow_right (by decide : 0 < 10) hk)
  have hx : (Double.ofInt c).number = ⟨false, v⟩ := (number_ofInt c).trans hnum
  have hy : (powerOfTen k).number = ⟨false, p⟩ :=
    (number_powerOfTen (hk.trans (by decide))).trans hpow
  have hp0 : p ≠ 0 := by
    rintro rfl
    have hpos : 0 < 10 ^ k * double.one := Nat.mul_pos (Nat.pow_pos (by decide)) double.one_pos
    rw [← hpunits] at hpos
    exact absurd hpos (by decide)
  have hdiv : double.div ⟨false, v⟩ ⟨false, p⟩ =
      double.ofFraction false (c * double.one * double.one) (10 ^ k * double.one) := by
    rw [← hvunits, ← hpunits]
    simp [div, isNaN, isInfinite, hv.not_gt, hp.not_gt, hv.ne, hp.ne, hp0]
  rw [Double.div, hx, hy, hdiv, Double.number_ofNumber_of_ordered (ordered_ofFraction _ _ _)]

/-- A fraction that is zero is zero. -/
theorem number_quotient_zero (hk : k ≤ 15) :
    ((Double.ofInt (0 : Nat)).div (powerOfTen k)).number = ⟨false, 0⟩ := by
  have hden : 0 < 10 ^ k * double.one := Nat.mul_pos (Nat.pow_pos (by decide)) double.one_pos
  have hround : double.round (0 * double.one * double.one) (10 ^ k * double.one) ≤ 0 :=
    round_le_of_le_units (by decide) hden (by simp)
  rw [number_quotient (Nat.zero_le _) hk, ofFraction, Nat.le_zero.mp hround]

/-- **A fraction of few digits is the double that it lies nearest to**, which has all places. -/
theorem exists_quotient (hpos : 0 < c) (hc : c ≤ 10 ^ 15) (hk : k ≤ 15) :
    ∃ w, ((Double.ofInt c).div (powerOfTen k)).number = ⟨false, w⟩ ∧
      double.hiddenBit ≤ w ∧ w < double.infinity ∧
      (Basin.of double w).Contains (halfUnits double c (-(k : Int))) := by
  have hone := double.one_pos
  have hden : 0 < 10 ^ k * double.one := Nat.mul_pos (Nat.pow_pos (by decide)) hone
  have hmost : 10 ^ k ≤ 10 ^ 15 := Nat.pow_le_pow_right (by decide) hk
  have hlow : double.hiddenBit ≤
      double.round (c * double.one * double.one) (10 ^ k * double.one) := by
    refine le_round_of_units_le (by decide) hden (by decide) ?_
    calc double.units double.hiddenBit * (10 ^ k * double.one)
        ≤ double.units double.hiddenBit * (10 ^ 15 * double.one) :=
          Nat.mul_le_mul_left _ (Nat.mul_le_mul_right _ hmost)
      _ ≤ 1 * double.one * double.one := by decide +kernel
      _ ≤ c * double.one * double.one := Nat.mul_le_mul_right _ (Nat.mul_le_mul_right _ hpos)
  have hhigh : double.round (c * double.one * double.one) (10 ^ k * double.one) ≤
      double.infinity - 1 := by
    refine round_le_of_le_units (by decide) hden ?_
    calc c * double.one * double.one ≤ 10 ^ 15 * double.one * double.one :=
          Nat.mul_le_mul_right _ (Nat.mul_le_mul_right _ hc)
      _ ≤ double.units (double.infinity - 1) * (1 * double.one) := by decide +kernel
      _ ≤ double.units (double.infinity - 1) * (10 ^ k * double.one) :=
          Nat.mul_le_mul_left _ (Nat.mul_le_mul_right _ (Nat.one_le_pow _ _ (by decide)))
  have hfinite : double.infinity - 1 < double.infinity := by decide
  have hhidden := double.hiddenBit_pos
  refine ⟨_, number_quotient hc hk, hlow, by omega, ?_⟩
  have hcontains := (round_eq_iff (by decide) hden (by omega) (by omega)).mp
    (Eq.refl (double.round (c * double.one * double.one) (10 ^ k * double.one)))
  have hvalue : (2 * ((c * double.one * double.one : Nat) : ℚ) / (10 ^ k * double.one : Nat)) =
      halfUnits double c (-(k : Int)) := by
    have hone' : (double.one : ℚ) ≠ 0 := by exact_mod_cast hone.ne'
    rw [halfUnits, zpow_neg, zpow_natCast]
    push_cast
    field_simp
  rwa [hvalue] at hcontains

end ScenePack.Json
