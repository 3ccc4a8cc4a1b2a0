import Mathlib.Order.Monotone.Basic
import Mathlib.Tactic.Linarith
import Mathlib.Tactic.Ring
import ScenePack.Binary.Format

/-!
# Rounding to a binary format

The magnitude words of a format are a ladder: `units` climbs it from one word to the next by a gap
that doubles with every exponent. Rounding a fraction finds the rung nearest to it, and which rung
that is can be said without the algorithm, by the middle between a word and the next.

* `gap` is the step from a word to the next.

Results:
* `units_succ`, `units_strictMono`: the ladder.
* **`lt_round_iff`**: a fraction is rounded to above a word exactly if it lies above the middle
  between the word and the next, or in the middle and the word is odd.
* `le_round_of_units_le`, `round_le_of_le_units`, `round_mono`, `round_units`: what follows from it.
-/

namespace ScenePack

/-- The nearest whole number lies above `k` exactly if the fraction lies above the middle between `k`
and the next, or in the middle and `k` is odd. -/
theorem lt_roundHalfEven_iff {k num den : Nat} (hden : 0 < den) :
    k < roundHalfEven num den ↔
      (2 * k + 1) * den < 2 * num ∨ ((2 * k + 1) * den = 2 * num ∧ k % 2 = 1) := by
  have hsplit : den * (num / den) + num % den = num := Nat.div_add_mod num den
  have hrest : num % den < den := Nat.mod_lt num hden
  unfold roundHalfEven
  dsimp only
  generalize num / den = q at *
  generalize num % den = r at *
  subst hsplit
  rcases Nat.lt_trichotomy k q with hk | rfl | hk
  · -- the quotient already lies above `k`
    have hmul : (k + 1) * den ≤ q * den := Nat.mul_le_mul_right den hk
    have hlow : (2 * k + 1) * den < 2 * (den * q + r) := by nlinarith
    have hround : k < if 2 * r < den ∨ (2 * r = den ∧ q % 2 = 0) then q else q + 1 := by
      split <;> omega
    exact iff_of_true hround (.inl hlow)
  · -- the remainder decides
    have hmiddle : (2 * k + 1) * den = 2 * (den * k) + den := by ring
    rw [hmiddle]
    split <;> omega
  · -- the quotient is too low by more than a half
    have hmul : (q + 1) * den ≤ k * den := Nat.mul_le_mul_right den hk
    have hhigh : 2 * (den * q + r) < (2 * k + 1) * den := by nlinarith
    have hround : ¬ k < if 2 * r < den ∨ (2 * r = den ∧ q % 2 = 0) then q else q + 1 := by
      split <;> omega
    exact iff_of_false hround (by omega)

theorem roundHalfEven_le {k num den : Nat} (hden : 0 < den) (h : num ≤ k * den) :
    roundHalfEven num den ≤ k := by
  rw [← Nat.not_lt, lt_roundHalfEven_iff hden]
  have hmiddle : (2 * k + 1) * den = 2 * (k * den) + den := by ring
  omega

theorem le_roundHalfEven {k num den : Nat} (hden : 0 < den) (h : k * den ≤ num) :
    k ≤ roundHalfEven num den := by
  cases k with
  | zero => exact Nat.zero_le _
  | succ k =>
    refine (lt_roundHalfEven_iff hden).mpr (.inl ?_)
    have hmiddle : (2 * k + 1) * den + den = 2 * ((k + 1) * den) := by ring
    omega

namespace BinaryFormat

variable {F : BinaryFormat} {w v num den : Nat}

/-! ## The ladder of magnitudes -/

/-- The step from a word to the next, in units. -/
def gap (F : BinaryFormat) (w : Nat) : Nat := 2 ^ (w / F.hiddenBit - 1)

theorem hiddenBit_pos (F : BinaryFormat) : 0 < F.hiddenBit := Nat.two_pow_pos _

theorem one_pos (F : BinaryFormat) : 0 < F.one := Nat.two_pow_pos _

theorem gap_pos (F : BinaryFormat) (w : Nat) : 0 < F.gap w := Nat.two_pow_pos _

theorem units_of_lt (h : w < F.hiddenBit) : F.units w = w := if_pos h

/-- A word by its exponent and its fraction. -/
theorem units_row {s t : Nat} (ht : t < F.hiddenBit) :
    F.units ((s + 1) * F.hiddenBit + t) = (F.hiddenBit + t) * 2 ^ s := by
  have hle : ¬ (s + 1) * F.hiddenBit + t < F.hiddenBit := by
    rw [Nat.add_mul]
    omega
  have hmod : ((s + 1) * F.hiddenBit + t) % F.hiddenBit = t := by
    rw [Nat.add_comm, Nat.add_mul_mod_self_right, Nat.mod_eq_of_lt ht]
  have hdiv : ((s + 1) * F.hiddenBit + t) / F.hiddenBit = s + 1 := by
    rw [Nat.add_comm, Nat.add_mul_div_right _ _ F.hiddenBit_pos, Nat.div_eq_of_lt ht, Nat.zero_add]
  unfold units
  rw [if_neg hle, hmod, hdiv]
  rfl

/-- Every word above the first row has an exponent and a fraction. -/
theorem exists_row (h : F.hiddenBit ≤ w) :
    ∃ s t, t < F.hiddenBit ∧ w = (s + 1) * F.hiddenBit + t := by
  have hdiv : 1 ≤ w / F.hiddenBit := (Nat.one_le_div_iff F.hiddenBit_pos).mpr h
  refine ⟨w / F.hiddenBit - 1, w % F.hiddenBit, Nat.mod_lt _ F.hiddenBit_pos, ?_⟩
  rw [Nat.sub_add_cancel hdiv, Nat.div_add_mod']

theorem gap_of_lt (h : w < F.hiddenBit) : F.gap w = 1 := by
  unfold gap
  rw [Nat.div_eq_of_lt h]
  rfl

theorem gap_row {s t : Nat} (ht : t < F.hiddenBit) : F.gap ((s + 1) * F.hiddenBit + t) = 2 ^ s := by
  unfold gap
  rw [Nat.add_comm, Nat.add_mul_div_right _ _ F.hiddenBit_pos, Nat.div_eq_of_lt ht, Nat.zero_add]
  rfl

/-- **The next word is one gap up.** -/
theorem units_succ (F : BinaryFormat) (w : Nat) : F.units (w + 1) = F.units w + F.gap w := by
  have hpos := F.hiddenBit_pos
  rcases Nat.lt_or_ge w F.hiddenBit with h | h
  · rw [units_of_lt h, gap_of_lt h]
    rcases Nat.lt_or_ge (w + 1) F.hiddenBit with h' | h'
    · exact units_of_lt h'
    · -- the last word of the first row
      have hw : w + 1 = (0 + 1) * F.hiddenBit + 0 := by omega
      rw [hw, units_row hpos]
      omega
  · obtain ⟨s, t, ht, rfl⟩ := exists_row h
    rw [units_row ht, gap_row ht]
    rcases Nat.lt_or_ge (t + 1) F.hiddenBit with h' | h'
    · rw [Nat.add_assoc, units_row h']
      ring
    · -- the last word of a row
      have hw : (s + 1) * F.hiddenBit + t + 1 = (s + 1 + 1) * F.hiddenBit + 0 := by
        rw [Nat.add_mul (s + 1)]
        omega
      have hfull : F.hiddenBit + F.hiddenBit = F.hiddenBit + t + 1 := by omega
      calc F.units ((s + 1) * F.hiddenBit + t + 1)
          = (F.hiddenBit + F.hiddenBit) * 2 ^ s := by
            rw [hw, units_row hpos]
            ring
        _ = (F.hiddenBit + t) * 2 ^ s + 2 ^ s := by
            rw [hfull]
            ring

theorem units_strictMono (F : BinaryFormat) : StrictMono F.units :=
  strictMono_nat_of_lt_succ fun w => by
    rw [units_succ]
    exact Nat.lt_add_of_pos_right (F.gap_pos w)

theorem units_mono (h : v ≤ w) : F.units v ≤ F.units w := F.units_strictMono.monotone h

theorem gap_le_units (h : w ≠ 0) : F.gap w ≤ F.units w := by
  rcases Nat.lt_or_ge w F.hiddenBit with hw | hw
  · rw [gap_of_lt hw, units_of_lt hw]
    omega
  · obtain ⟨s, m, hm, rfl⟩ := exists_row hw
    rw [gap_row hm, units_row hm]
    exact Nat.le_mul_of_pos_left _ (Nat.add_pos_left F.hiddenBit_pos m)

/-- A significand of at most one place too many, at any exponent. -/
theorem units_significand {s m : Nat} (hs : s = 0 ∨ F.hiddenBit ≤ m) (hm : m ≤ 2 * F.hiddenBit) :
    F.units (s * F.hiddenBit + m) = m * 2 ^ s := by
  have hpos := F.hiddenBit_pos
  rcases Nat.lt_or_ge m F.hiddenBit with h | h
  · obtain rfl : s = 0 := by omega
    rw [Nat.zero_mul, Nat.zero_add, units_of_lt h, Nat.pow_zero, Nat.mul_one]
  · rcases Nat.lt_or_ge m (2 * F.hiddenBit) with h' | h'
    · have hw : s * F.hiddenBit + m = (s + 1) * F.hiddenBit + (m - F.hiddenBit) := by
        rw [Nat.add_mul]
        omega
      rw [hw, units_row (by omega), Nat.add_sub_cancel' h]
    · obtain rfl : m = 2 * F.hiddenBit := by omega
      have hw : s * F.hiddenBit + 2 * F.hiddenBit = (s + 1 + 1) * F.hiddenBit + 0 := by ring
      rw [hw, units_row hpos]
      ring

/-- The double of a number is a number, if infinity is no limit. -/
theorem exists_double (F : BinaryFormat) (w : Nat) : ∃ v, F.units v = 2 * F.units w := by
  rcases Nat.lt_or_ge w F.hiddenBit with hw | hw
  · refine ⟨0 * F.hiddenBit + 2 * w, ?_⟩
    rw [units_significand (.inl rfl) (by omega), units_of_lt hw, Nat.pow_zero, Nat.mul_one]
  · obtain ⟨s, r, hr, rfl⟩ := exists_row hw
    refine ⟨(s + 1 + 1) * F.hiddenBit + r, ?_⟩
    rw [units_row hr, units_row hr]
    ring

/-! ## Rounding -/

/-- Twice the middle between a word and the next, in units. -/
def middle (F : BinaryFormat) (w : Nat) : Nat := F.units w + F.units (w + 1)

theorem middle_eq (F : BinaryFormat) (w : Nat) : F.middle w = 2 * F.units w + F.gap w := by
  rw [middle, units_succ]
  ring

/-- What is not below the next word lies above the middle. -/
theorem middle_lt (hden : 0 < den) (h : F.units (w + 1) * den ≤ num) :
    F.middle w * den < 2 * num := by
  have hword : F.units w < F.units (w + 1) := F.units_strictMono (Nat.lt_succ_self w)
  calc F.middle w * den < 2 * F.units (w + 1) * den := by
        refine Nat.mul_lt_mul_of_pos_right ?_ hden
        unfold middle
        omega
    _ = 2 * (F.units (w + 1) * den) := by ring
    _ ≤ 2 * num := Nat.mul_le_mul_left 2 h

/-- What is not above a word lies below the middle. -/
theorem lt_middle (hden : 0 < den) (h : num ≤ F.units w * den) : 2 * num < F.middle w * den := by
  have hgap := F.gap_pos w
  calc 2 * num ≤ 2 * (F.units w * den) := Nat.mul_le_mul_left 2 h
    _ = 2 * F.units w * den := by ring
    _ < F.middle w * den := by
      refine Nat.mul_lt_mul_of_pos_right ?_ hden
      rw [middle_eq]
      omega

/-- The quotient has at most as many binary places as a significand and the shift together. -/
theorem lt_of_shift (hden : 0 < den) :
    num < 2 * F.hiddenBit * (den * 2 ^ ((num / den).log2 - F.fractionBits)) := by
  have hq : num / den < 2 ^ ((num / den).log2 + 1) := Nat.lt_log2_self
  have hplaces : 2 ^ ((num / den).log2 + 1) ≤
      2 * F.hiddenBit * 2 ^ ((num / den).log2 - F.fractionBits) := by
    have h : 2 * F.hiddenBit = 2 ^ (F.fractionBits + 1) := (Nat.pow_succ' ..).symm
    rw [h, ← Nat.pow_add]
    exact Nat.pow_le_pow_right Nat.two_pos (by omega)
  calc num < 2 * F.hiddenBit * 2 ^ ((num / den).log2 - F.fractionBits) * den :=
        (Nat.div_lt_iff_lt_mul hden).mp (Nat.lt_of_lt_of_le hq hplaces)
    _ = 2 * F.hiddenBit * (den * 2 ^ ((num / den).log2 - F.fractionBits)) := by ring

/-- A shift that takes places away leaves a full significand. -/
theorem le_of_shift_pos (hs : 0 < (num / den).log2 - F.fractionBits) :
    F.hiddenBit * (den * 2 ^ ((num / den).log2 - F.fractionBits)) ≤ num := by
  have hq : num / den ≠ 0 := by
    intro h
    rw [h, Nat.log2_zero] at hs
    omega
  have hplaces : F.hiddenBit * 2 ^ ((num / den).log2 - F.fractionBits) = 2 ^ (num / den).log2 := by
    have h : F.hiddenBit = 2 ^ F.fractionBits := rfl
    rw [h, ← Nat.pow_add]
    congr 1
    omega
  calc F.hiddenBit * (den * 2 ^ ((num / den).log2 - F.fractionBits))
      = F.hiddenBit * 2 ^ ((num / den).log2 - F.fractionBits) * den := by ring
    _ = 2 ^ (num / den).log2 * den := by rw [hplaces]
    _ ≤ num / den * den := Nat.mul_le_mul_right den (Nat.log2_self_le hq)
    _ ≤ num := Nat.div_mul_le_self num den

/-- **Rounding, said without the algorithm**: a fraction is rounded to above a word exactly if it
lies above the middle between the word and the next, or in the middle and the word is odd. -/
theorem lt_round_iff (hfraction : 0 < F.fractionBits) (hden : 0 < den) (hw : w < F.infinity) :
    w < F.round num den ↔
      F.middle w * den < 2 * num ∨ (F.middle w * den = 2 * num ∧ w % 2 = 1) := by
  have hH := F.hiddenBit_pos
  have heven : F.hiddenBit % 2 = 0 := Nat.two_pow_mod_two_eq_zero.mpr hfraction
  have hhigh : num < 2 * F.hiddenBit * (den * 2 ^ ((num / den).log2 - F.fractionBits)) :=
    lt_of_shift hden
  have hlow : 0 < (num / den).log2 - F.fractionBits →
      F.hiddenBit * (den * 2 ^ ((num / den).log2 - F.fractionBits)) ≤ num := le_of_shift_pos
  unfold round
  dsimp only
  rw [lt_min_iff, and_iff_left hw, Nat.pow_eq]
  generalize (num / den).log2 - F.fractionBits = s at *
  have hscale : 0 < den * 2 ^ s := Nat.mul_pos hden (Nat.two_pow_pos s)
  have hm : roundHalfEven num (den * 2 ^ s) ≤ 2 * F.hiddenBit := roundHalfEven_le hscale hhigh.le
  have hfull : s ≠ 0 → F.hiddenBit ≤ roundHalfEven num (den * 2 ^ s) := fun hs =>
    le_roundHalfEven hscale (hlow (Nat.pos_of_ne_zero hs))
  have hround (k : Nat) : k < roundHalfEven num (den * 2 ^ s) ↔
      (2 * k + 1) * (den * 2 ^ s) < 2 * num ∨
        ((2 * k + 1) * (den * 2 ^ s) = 2 * num ∧ k % 2 = 1) :=
    lt_roundHalfEven_iff hscale
  generalize roundHalfEven num (den * 2 ^ s) = m at *
  rcases Nat.lt_or_ge w (s * F.hiddenBit + 2 * F.hiddenBit) with habove | habove
  · by_cases hgrid : s = 0 ∨ s * F.hiddenBit + F.hiddenBit ≤ w
    · -- the word is a significand at the shift, and the rounded one decides
      obtain ⟨k, rfl⟩ : ∃ k, w = s * F.hiddenBit + k := by
        refine Nat.exists_eq_add_of_le ?_
        rcases hgrid with rfl | h
        · omega
        · omega
      have hk : s = 0 ∨ F.hiddenBit ≤ k := by omega
      have hparity : (s * F.hiddenBit + k) % 2 = k % 2 := by
        rw [Nat.add_mod, Nat.mul_mod, heven]
        simp
      have hmiddle : F.middle (s * F.hiddenBit + k) * den = (2 * k + 1) * (den * 2 ^ s) := by
        rw [middle, units_significand hk (by omega), Nat.add_assoc,
          units_significand (by omega) (by omega)]
        ring
      rw [Nat.add_lt_add_iff_left, hround, hmiddle, hparity]
    · -- the word lies below the significands at the shift, and the fraction does not
      push Not at hgrid
      obtain ⟨hs, hbelow⟩ := hgrid
      have hfull := hfull hs
      have hlow := hlow (Nat.pos_of_ne_zero hs)
      have hnext : F.units (w + 1) ≤ F.hiddenBit * 2 ^ s := by
        rw [← units_significand (.inr (Nat.le_refl _)) (by omega)]
        exact units_mono hbelow
      refine iff_of_true (by omega) (.inl (middle_lt hden ?_))
      calc F.units (w + 1) * den ≤ F.hiddenBit * 2 ^ s * den := Nat.mul_le_mul_right den hnext
        _ = F.hiddenBit * (den * 2 ^ s) := by ring
        _ ≤ num := hlow
  · -- the word lies above the significands at the shift, and the fraction does not
    have hword : 2 * F.hiddenBit * 2 ^ s ≤ F.units w := by
      rw [← units_significand (.inr (by omega)) (Nat.le_refl _)]
      exact units_mono habove
    have hmiddle : 2 * num < F.middle w * den := by
      refine lt_middle hden ?_
      calc num ≤ 2 * F.hiddenBit * (den * 2 ^ s) := hhigh.le
        _ = 2 * F.hiddenBit * 2 ^ s * den := by ring
        _ ≤ F.units w * den := Nat.mul_le_mul_right den hword
    exact iff_of_false (by omega) (by omega)

section Bounds

variable (hfraction : 0 < F.fractionBits) (hden : 0 < den)

include hfraction hden

/-- A fraction that is not below a word's value is not rounded to below the word. -/
theorem le_round_of_units_le (hw : w ≤ F.infinity) (h : F.units w * den ≤ num) :
    w ≤ F.round num den := by
  cases w with
  | zero => exact Nat.zero_le _
  | succ w => exact (lt_round_iff hfraction hden hw).mpr (.inl (middle_lt hden h))

omit hfraction hden in
theorem round_le_infinity (num den : Nat) : F.round num den ≤ F.infinity := Nat.min_le_right ..

/-- A fraction that is not above a word's value is not rounded to above the word. -/
theorem round_le_of_le_units (h : num ≤ F.units w * den) : F.round num den ≤ w := by
  rcases Nat.lt_or_ge w F.infinity with hw | hw
  · rw [← Nat.not_lt, lt_round_iff hfraction hden hw]
    have hmiddle := lt_middle hden h
    omega
  · exact (round_le_infinity num den).trans hw

/-- **Words round to themselves.** -/
theorem round_units (hw : w ≤ F.infinity) : F.round (F.units w * den) den = w :=
  Nat.le_antisymm (round_le_of_le_units hfraction hden (Nat.le_refl _))
    (le_round_of_units_le hfraction hden hw (Nat.le_refl _))

/-- **Rounding keeps the order of fractions.** -/
theorem round_mono {num' : Nat} (h : num ≤ num') : F.round num den ≤ F.round num' den := by
  by_contra hlt
  have hw : F.round num' den < F.infinity :=
    Nat.lt_of_lt_of_le (Nat.lt_of_not_le hlt) (round_le_infinity num den)
  have habove := (lt_round_iff hfraction hden hw).mp (Nat.lt_of_not_le hlt)
  have hbelow := mt (lt_round_iff hfraction hden hw).mpr (Nat.lt_irrefl (F.round num' den))
  omega

end Bounds

end BinaryFormat

end ScenePack
