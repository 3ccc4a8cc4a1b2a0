import ScenePack.Proofs.Binary.Nearest
import ScenePack.Proofs.Binary.Ordered

/-!
# Singles as doubles

Every single is a double, so that nothing is lost on the way there and back.

Results:
* `convert_of_units`: a conversion to a word of the same value.
* `exists_double_word`: every single's magnitude is one of a double.
* **`Single.toSingle_toDouble`**: a single is the single of its double; all NaNs become one.
-/

namespace ScenePack

namespace BinaryFormat

variable {F G : BinaryFormat} {w v : Nat} {negative : Bool}

/-- A number is converted to the word of the same value, where there is one. -/
theorem convert_of_units (hfraction : 0 < G.fractionBits) (hw : w < F.infinity) (hv : v ≤ G.infinity)
    (h : G.units v * F.one = F.units w * G.one) : F.convert G ⟨negative, w⟩ = ⟨negative, v⟩ := by
  have hnan : F.isNaN ⟨negative, w⟩ = false := decide_eq_false hw.not_gt
  have hinf : F.isInfinite ⟨negative, w⟩ = false := decide_eq_false hw.ne
  unfold convert
  rw [hnan, hinf, if_neg Bool.false_ne_true, if_neg Bool.false_ne_true]
  unfold ofFraction
  rw [← h, round_units hfraction F.one_pos hv]

theorem convert_infinity (negative : Bool) :
    F.convert G ⟨negative, F.infinity⟩ = ⟨negative, G.infinity⟩ := by
  have hnan : F.isNaN ⟨negative, F.infinity⟩ = false := decide_eq_false (Nat.lt_irrefl _)
  have hinf : F.isInfinite ⟨negative, F.infinity⟩ = true := decide_eq_true rfl
  unfold convert
  rw [hnan, hinf, if_neg Bool.false_ne_true, if_pos rfl]

theorem convert_of_nan {x : BinaryNumber} (h : F.isNaN x = true) : F.convert G x = G.nan := if_pos h

/-- A word is a significand at some exponent. -/
theorem exists_significand_of_word (F : BinaryFormat) (w : Nat) :
    ∃ m s, m < 2 * F.hiddenBit ∧ F.units w = m * 2 ^ s := by
  rcases Nat.lt_or_ge w F.hiddenBit with hw | hw
  · exact ⟨w, 0, by omega, by rw [units_of_lt hw, Nat.pow_zero, Nat.mul_one]⟩
  · obtain ⟨s, t, ht, rfl⟩ := exists_row hw
    exact ⟨F.hiddenBit + t, s, by omega, units_row ht⟩

/-- **Every single's magnitude is one of a double.** -/
theorem exists_double_word (hw : w < single.infinity) :
    ∃ v, v < double.infinity ∧ double.units v * single.one = single.units w * double.one := by
  obtain ⟨m, s, hm, hunits⟩ := single.exists_significand_of_word w
  -- the smallest double is `2 ^ shift` times smaller than the smallest single
  obtain ⟨shift, hone, hlarge⟩ : ∃ shift, double.one = Nat.pow 2 shift * single.one ∧
      single.units single.infinity * Nat.pow 2 shift < double.units double.infinity :=
    ⟨925, by decide +kernel, by decide +kernel⟩
  have hwide : m < 2 * double.hiddenBit := hm.trans (by decide)
  obtain ⟨v, hv⟩ := exists_units hwide (s + shift)
  have hvw : double.units v = single.units w * Nat.pow 2 shift := by
    rw [hv, hunits, Nat.pow_add, Nat.pow_eq, Nat.mul_assoc]
  refine ⟨v, ?_, by rw [hvw, hone, Nat.mul_assoc]⟩
  rw [← double.units_strictMono.lt_iff_lt, hvw]
  refine Nat.lt_trans ?_ hlarge
  exact Nat.mul_lt_mul_of_pos_right (single.units_strictMono hw) (Nat.two_pow_pos _)

end BinaryFormat

namespace Single

open BinaryFormat

variable {x : Single}

theorem ofNumber_number (x : Single) : ofNumber x.number = x := by
  rw [← bits_inj, ← UInt32.toNat_inj]
  have hx : x.bits.toNat < 4294967296 := x.bits.toNat_lt
  have hbit : signBit = 2147483648 := rfl
  simp only [ofNumber, number, UInt32.toNat_ofNat', decide_eq_true_eq]
  by_cases hsign : signBit ≤ x.bits.toNat
  · rw [if_pos hsign]
    rw [hbit] at hsign ⊢
    omega
  · rw [if_neg hsign]
    rw [hbit] at hsign ⊢
    omega

/-- The double of a single that is no NaN. -/
theorem number_toDouble (h : x.isNaN = false) : x.toDouble.Ordered ∧
    double.convert single x.toDouble.number = x.number := by
  have hordered : x.number.magnitude ≤ single.infinity := isNaN_eq_false_iff.mp h
  refine ⟨Double.ordered_ofNumber (Ordered.convert hordered), ?_⟩
  unfold toDouble
  rw [Double.number_ofNumber_of_ordered (Ordered.convert hordered)]
  generalize x.number = n at hordered
  obtain ⟨negative, w⟩ := n
  rcases Nat.lt_or_eq_of_le hordered with hw | hw
  · obtain ⟨v, hv, hvw⟩ := exists_double_word hw
    rw [convert_of_units (by decide) hw hv.le hvw]
    exact convert_of_units (by decide) hv hw.le hvw.symm
  · obtain rfl : w = single.infinity := hw
    rw [convert_infinity, convert_infinity]

/-- **A single that is no NaN is the single of its double.** -/
theorem toSingle_toDouble (h : x.isNaN = false) : x.toDouble.toSingle = x := by
  unfold Double.toSingle
  rw [(number_toDouble h).2, ofNumber_number]

/-- The double of a NaN is the one that invalid operations give. -/
theorem toDouble_of_nan (h : x.isNaN = true) : x.toDouble.number = double.nan := by
  unfold toDouble
  rw [convert_of_nan h]
  decide

end Single

theorem Double.ofNumber_number (x : Double) : ofNumber x.number = x := by
  have hx : x.bits.toNat < 18446744073709551616 := x.bits.toNat_lt
  have hbits : (ofNumber x.number).bits = x.bits := by
    rw [← UInt64.toNat_inj]
    have hbit : signBit = 9223372036854775808 := rfl
    simp only [ofNumber, number, UInt64.toNat_ofNat', decide_eq_true_eq]
    by_cases hsign : signBit ≤ x.bits.toNat
    · rw [if_pos hsign]
      rw [hbit] at hsign ⊢
      omega
    · rw [if_neg hsign]
      rw [hbit] at hsign ⊢
      omega
  cases x
  exact congrArg Double.mk hbits

end ScenePack
