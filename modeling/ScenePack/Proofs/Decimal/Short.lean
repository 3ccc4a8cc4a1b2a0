import Mathlib.Algebra.Order.Field.Power
import Mathlib.Tactic.IntervalCases
import Mathlib.Tactic.NormNum.OfScientific
import ScenePack.Proofs.Decimal.Basin

/-!
# Short decimals are their own shortest

A decimal whose digits without the point are fewer than the significand has places lies in a basin
that is narrower than a step of the decimal's grid. So no other decimal of that grid lies in it, and
none of a coarser grid. The shortest decimal of the number that it is read as is therefore the one
that was read.

Results:
* `eq_of_contains`: a narrow basin holds one point of a grid.
* `width_lt`: the basins of short decimals are narrow.
* `le_startExponent`: their grids are searched.
* **`shortest_eq`**: a short decimal is the shortest of its number.
-/

namespace ScenePack.Decimal

variable {F : BinaryFormat} {b : Basin} {tie : Tie} {w c m n : Nat} {e : Int}

theorem halfUnits_eq_mul (F : BinaryFormat) (n : Nat) (e : Int) :
    halfUnits F n e = n * halfUnits F 1 e := by
  rw [halfUnits, halfUnits, Nat.cast_one, one_mul, mul_assoc]

theorem halfUnits_one_pos (F : BinaryFormat) (e : Int) : 0 < halfUnits F 1 e := by
  have hone : (0 : ℚ) < F.one := by exact_mod_cast F.one_pos
  rw [halfUnits, Nat.cast_one, one_mul]
  positivity

/-- The next point of a grid is a step away. -/
theorem halfUnits_add_le (h : m < n) : halfUnits F m e + halfUnits F 1 e ≤ halfUnits F n e := by
  have hle : ((m + 1 : Nat) : ℚ) ≤ n := by exact_mod_cast h
  rw [halfUnits_eq_mul F m, halfUnits_eq_mul F n, ← add_one_mul, ← Nat.cast_succ]
  exact mul_le_mul_of_nonneg_right hle (halfUnits_one_pos F e).le

/-- **A basin that is narrower than a step of a grid holds one point of it.** -/
theorem eq_of_contains (hnarrow : (b.high - b.low : ℚ) < halfUnits F 1 e)
    (hm : b.Contains (halfUnits F m e)) (hn : b.Contains (halfUnits F n e)) : m = n := by
  rcases Nat.lt_trichotomy m n with hlt | heq | hlt
  · have hstep := halfUnits_add_le (F := F) (e := e) hlt
    linarith [hm.low_le, hn.le_high]
  · exact heq
  · have hstep := halfUnits_add_le (F := F) (e := e) hlt
    linarith [hn.low_le, hm.le_high]

/-! ## How wide a basin is -/

/-- The gap behind a number that has all places is one of so many parts of it. -/
theorem hiddenBit_mul_gap_le (hw : F.hiddenBit ≤ w) : F.hiddenBit * F.gap w ≤ F.units w := by
  obtain ⟨s, t, ht, rfl⟩ := BinaryFormat.exists_row hw
  rw [BinaryFormat.gap_row ht, BinaryFormat.units_row ht]
  exact Nat.mul_le_mul_right _ (Nat.le_add_right _ _)

theorem gap_mono {v : Nat} (h : v ≤ w) : F.gap v ≤ F.gap w :=
  Nat.pow_le_pow_right Nat.two_pos (Nat.sub_le_sub_right (Nat.div_le_div_right h) 1)

/-- The bounds of a basin, seen from its middle. -/
theorem bounds_of_pos (F : BinaryFormat) (hw : 0 < w) :
    (Basin.of F w).high = 2 * F.units w + F.gap w ∧
      2 * F.units w ≤ (Basin.of F w).low + F.gap w := by
  obtain ⟨v, rfl⟩ : ∃ v, w = v + 1 := ⟨w - 1, by omega⟩
  have hgap : F.gap v ≤ F.gap (v + 1) := gap_mono (Nat.le_succ v)
  have hbelow := F.units_succ v
  have habove := F.units_succ (v + 1)
  have hlow : (Basin.of F (v + 1)).low = F.units v + F.units (v + 1) := rfl
  have hhigh : (Basin.of F (v + 1)).high = F.units (v + 1) + F.units (v + 1 + 1) := rfl
  omega

/-- **A basin that holds a decimal of few digits is narrower than a step of its grid.** -/
theorem width_lt (hw : F.hiddenBit ≤ w) (hc : c < F.hiddenBit)
    (h : (Basin.of F w).Contains (halfUnits F c e)) :
    ((Basin.of F w).high - (Basin.of F w).low : ℚ) < halfUnits F 1 e := by
  obtain ⟨hhigh, hlow⟩ := bounds_of_pos F (F.hiddenBit_pos.trans_le hw)
  have hgap : (0 : ℚ) < F.gap w := by exact_mod_cast F.gap_pos w
  have hrow : (F.hiddenBit * F.gap w : ℚ) ≤ F.units w := by exact_mod_cast hiddenBit_mul_gap_le hw
  have hhigh : ((Basin.of F w).high : ℚ) = 2 * F.units w + F.gap w := by exact_mod_cast hhigh
  have hlow : (2 * F.units w : ℚ) ≤ (Basin.of F w).low + F.gap w := by exact_mod_cast hlow
  have hc0 : (0 : ℚ) ≤ c := Nat.cast_nonneg c
  have hc : (c : ℚ) + 1 ≤ F.hiddenBit := by exact_mod_cast hc
  have hpoint := h.low_le
  rw [halfUnits_eq_mul] at hpoint
  -- were a step at most two gaps, `c` steps would end below the basin
  by_contra hwide
  have hstep : halfUnits F 1 e ≤ 2 * F.gap w := by linarith
  have hsmall : (c : ℚ) * halfUnits F 1 e ≤ (F.hiddenBit - 1) * (2 * F.gap w) :=
    mul_le_mul (by linarith) hstep (halfUnits_one_pos F e).le (by linarith)
  linarith

/-! ## Where the search starts -/

/-- The greatest power of two that is too small for the grid of `10 ^ e` to be searched. -/
theorem two_zpow_le (hlow : -15 ≤ e) (hhigh : e ≤ 15) :
    (2 : ℚ) ^ ((100000 * (e - 1) - 1) / 30103 + 1) ≤ 10 ^ e := by
  interval_cases e <;> norm_num

/-- **A grid of moderate steps is searched**, if a point of it other than zero lies in the basin. -/
theorem le_startExponent (hw : 0 < w) (hc : 0 < c) (hlow : -15 ≤ e) (hhigh : e ≤ 15)
    (h : (Basin.of F w).Contains (halfUnits F c e)) : e ≤ startExponent F w := by
  have hlog : F.units w < 2 ^ ((F.units w).log2 + 1) := Nat.lt_log2_self
  unfold startExponent ceilingExponent
  generalize (F.units w).log2 = k at hlog ⊢
  have hone : (F.one : ℚ) = 2 ^ F.unitExponent := by
    rw [BinaryFormat.one, Nat.pow_eq]
    push_cast
    rfl
  have hbasin : ((Basin.of F w).high : ℚ) < 2 * 2 ^ (k + 2) := by
    have hgap : F.gap w ≤ F.units w := BinaryFormat.gap_le_units (by omega)
    have hbound : (Basin.of F w).high < 2 * 2 ^ (k + 2) := by
      rw [(bounds_of_pos F hw).1, Nat.pow_succ]
      omega
    exact_mod_cast hbound
  have hpoint : (10 : ℚ) ^ e * F.one < 2 ^ (k + 2) := by
    have hstep : halfUnits F 1 e ≤ c * halfUnits F 1 e :=
      le_mul_of_one_le_left (halfUnits_one_pos F e).le (by exact_mod_cast hc)
    rw [← halfUnits_eq_mul, halfUnits, Nat.cast_one, one_mul] at hstep
    linarith [h.le_high]
  have hpower : (10 : ℚ) ^ e < 2 ^ ((k : Int) + 1 - F.unitExponent + 1) := by
    have hexp : (k : Int) + 1 - F.unitExponent + 1 = ((k + 2 : Nat) : Int) - F.unitExponent := by
      push_cast
      ring
    rw [hexp, zpow_sub₀ (by norm_num), zpow_natCast, zpow_natCast, lt_div_iff₀ (by positivity), ← hone]
    exact hpoint
  by_contra hstart
  have hsmall : (k : Int) + 1 - F.unitExponent ≤ (100000 * (e - 1) - 1) / 30103 := by omega
  refine absurd hpower (not_lt.mpr ((zpow_le_zpow_right₀ (by norm_num) ?_).trans
    (two_zpow_le hlow hhigh)))
  omega

/-- **A short decimal is the shortest of the number that it is read as.** -/
theorem shortest_eq (hfraction : 0 < F.fractionBits) (hw : F.hiddenBit ≤ w) (hc : c < F.hiddenBit)
    (hlast : c % 10 ≠ 0) (hlow : -15 ≤ e) (hhigh : e ≤ 15)
    (h : (Basin.of F w).Contains (halfUnits F c e)) : shortest F tie w = ⟨c, e⟩ := by
  have hw' : 0 < w := F.hiddenBit_pos.trans_le hw
  obtain ⟨hshortest, hcoarsest⟩ := shortest_spec (F := F) tie hfraction hw'
  generalize shortest F tie w = d at hshortest hcoarsest ⊢
  obtain ⟨m, j⟩ := d
  have hle : e ≤ j := by
    by_contra hlt
    exact hcoarsest e c (not_le.mp hlt) (le_startExponent hw' (by omega) hlow hhigh h) h
  -- the shortest decimal is on the grid of the short one
  obtain ⟨k, rfl⟩ := Int.exists_add_of_le hle
  have hgrid : halfUnits F m (e + k) = halfUnits F (m * 10 ^ k) e := by
    rw [halfUnits, halfUnits, zpow_add₀ (by norm_num), zpow_natCast]
    push_cast
    ring
  rw [hgrid] at hshortest
  have heq : c = m * 10 ^ k := eq_of_contains (width_lt hw hc h) h hshortest
  rcases k with - | k
  · simp [heq]
  · rw [heq, Nat.pow_succ, ← Nat.mul_assoc, Nat.mul_mod_left] at hlast
    exact absurd rfl hlast

end ScenePack.Decimal
