import Mathlib.Algebra.Order.Field.Basic
import Mathlib.Algebra.Order.Field.Rat
import Mathlib.Tactic.FieldSimp
import Mathlib.Tactic.Linarith
import Mathlib.Tactic.Positivity
import Mathlib.Tactic.Ring
import ScenePack.Decimal.Shortest
import ScenePack.Proofs.Binary.Rounding

/-!
# Shortest decimals are read back

The reals that round to a word are an interval, its basin. A decimal is read as the word whose basin
it lies in, and the shortest decimal of a word is searched for in the word's basin, on finer and
finer grids. So the shortest decimal of a word is read as that word, and no decimal on a coarser grid
that was searched is.

* `Basin.Contains`: the reals of a basin, in half units.
* `halfUnits`: a decimal in half units.

Results:
* `Basin.onGrid?_eq_some`, `Basin.onGrid?_eq_none`: what is found on a grid lies in the basin, and
  if nothing is found, no point of the grid does.
* **`round_eq_iff`**: the fractions that are rounded to a word are those of its basin.
* **`BinaryFormat.ofDecimal_of_contains`**: a decimal is read as the word whose basin it lies in.
* **`shortest_spec`**: the shortest decimal lies in the basin, and nothing on a coarser grid does.
-/

namespace ScenePack

namespace Decimal

variable {F : BinaryFormat} {b : Basin} {tie : Tie} {w c n scale step : Nat} {e : Int} {x y z : ℚ}

/-! ## Basins as intervals -/

/-- The reals of a basin, in half units. -/
def Basin.Contains (b : Basin) (x : ℚ) : Prop :=
  if b.closed = true then b.low ≤ x ∧ x ≤ b.high else b.low < x ∧ x < b.high

/-- The number `coefficient * 10 ^ exponent` in half units. -/
def halfUnits (F : BinaryFormat) (coefficient : Nat) (exponent : Int) : ℚ :=
  coefficient * 10 ^ exponent * (2 * F.one)

namespace Basin

theorem Contains.low_le (h : b.Contains x) : b.low ≤ x := by
  unfold Contains at h
  split at h
  · exact h.1
  · exact h.1.le

theorem Contains.le_high (h : b.Contains x) : x ≤ b.high := by
  unfold Contains at h
  split at h
  · exact h.2
  · exact h.2.le

theorem contains_of_lt (hlow : b.low < x) (hhigh : x < b.high) : b.Contains x := by
  unfold Contains
  split
  · exact ⟨hlow.le, hhigh.le⟩
  · exact ⟨hlow, hhigh⟩

/-- What lies between two numbers of a basin lies in it. -/
theorem Contains.between (hx : b.Contains x) (hz : b.Contains z) (hxy : x ≤ y) (hyz : y ≤ z) :
    b.Contains y := by
  unfold Contains at *
  split at hx
  · rename_i hclosed
    rw [if_pos hclosed] at hz ⊢
    exact ⟨hx.1.trans hxy, hyz.trans hz.2⟩
  · rename_i hopen
    rw [if_neg hopen] at hz ⊢
    exact ⟨hx.1.trans_le hxy, hyz.trans_lt hz.2⟩

theorem holds_iff (hscale : 0 < scale) :
    b.holds scale step n = true ↔ b.Contains (n * step / scale) := by
  have hscale : (0 : ℚ) < scale := by exact_mod_cast hscale
  unfold holds Contains
  split
  · rw [Bool.and_eq_true, decide_eq_true_eq, decide_eq_true_eq, le_div_iff₀ hscale,
      div_le_iff₀ hscale]
    norm_cast
  · rw [Bool.and_eq_true, decide_eq_true_eq, decide_eq_true_eq, lt_div_iff₀ hscale,
      div_lt_iff₀ hscale]
    norm_cast

/-! ## Grids -/

/-- What is found on a grid is one of the two points next to the middle, and lies in the basin. -/
theorem nearest?_eq_some (h : b.nearest? tie scale step = some n) :
    b.holds scale step n = true := by
  unfold nearest? at h
  dsimp only at h
  split at h
  · cases h
  · rename_i hbelow _
    rwa [← Option.some.inj h]
  · rename_i _ habove
    rwa [← Option.some.inj h]
  · rename_i hbelow habove
    have hcases : n = b.middle * scale / step ∨ n = b.middle * scale / step + 1 := by
      split at h
      · exact .inl (Option.some.inj h).symm
      · split at h
        · exact .inr (Option.some.inj h).symm
        · cases tie
          · have h := Option.some.inj h
            split at h
            · exact .inl h.symm
            · exact .inr h.symm
          · exact .inr (Option.some.inj h).symm
    rcases hcases with rfl | rfl
    · exact hbelow
    · exact habove

/-- If neither point next to the middle lies in the basin, no point does. -/
theorem nearest?_eq_none (hscale : 0 < scale) (hstep : 0 < step) (hmiddle : b.Contains b.middle)
    (h : b.nearest? tie scale step = none) (n : Nat) : ¬ b.Contains (n * step / scale) := by
  have hnone : b.holds scale step (b.middle * scale / step) = false ∧
      b.holds scale step (b.middle * scale / step + 1) = false := by
    unfold nearest? at h
    dsimp only at h
    split at h
    · exact ⟨‹_›, ‹_›⟩
    · cases h
    · cases h
    · split at h
      · cases h
      · split at h
        · cases h
        · cases tie <;> cases h
  rw [← Bool.not_eq_true, ← Bool.not_eq_true, holds_iff hscale, holds_iff hscale] at hnone
  obtain ⟨hbelow, habove⟩ := hnone
  have hscale' : (0 : ℚ) < scale := by exact_mod_cast hscale
  have hle : b.middle * scale / step * step ≤ b.middle * scale := Nat.div_mul_le_self _ _
  have hlt : b.middle * scale < (b.middle * scale / step + 1) * step :=
    (Nat.div_lt_iff_lt_mul hstep).mp (Nat.lt_succ_self _)
  intro hn
  rcases Nat.lt_or_ge (b.middle * scale / step) n with hside | hside
  · refine habove (hmiddle.between hn ?_ ?_)
    · rw [le_div_iff₀ hscale']
      exact_mod_cast hlt.le
    · exact div_le_div_of_nonneg_right (by exact_mod_cast Nat.mul_le_mul_right step hside) hscale'.le
  · refine hbelow (hn.between hmiddle ?_ ?_)
    · exact div_le_div_of_nonneg_right (by exact_mod_cast Nat.mul_le_mul_right step hside) hscale'.le
    · rw [div_le_iff₀ hscale']
      exact_mod_cast hle

/-- The points of a grid, in half units. -/
theorem onGrid?_eq (F : BinaryFormat) (b : Basin) (tie : Tie) (e : Int) :
    ∃ scale step, 0 < scale ∧ 0 < step ∧ b.onGrid? F tie e = b.nearest? tie scale step ∧
      ∀ n : Nat, (n * step / scale : ℚ) = halfUnits F n e := by
  have hone := F.one_pos
  unfold onGrid?
  split
  · rename_i he
    obtain ⟨k, rfl⟩ := Int.eq_ofNat_of_zero_le he
    refine ⟨1, _, Nat.one_pos, ?_, rfl, fun n => ?_⟩
    · rw [Int.toNat_natCast, Nat.pow_eq]
      positivity
    · rw [halfUnits, Int.toNat_natCast, Nat.pow_eq, zpow_natCast]
      push_cast
      ring
  · rename_i he
    obtain ⟨k, hk⟩ : ∃ k : Nat, e = -(k : Int) := ⟨(-e).toNat, by omega⟩
    subst hk
    refine ⟨_, 2 * F.one, ?_, by omega, rfl, fun n => ?_⟩
    · rw [Nat.pow_eq]
      positivity
    · rw [halfUnits, neg_neg, Int.toNat_natCast, Nat.pow_eq, zpow_neg, zpow_natCast]
      push_cast
      ring

theorem onGrid?_eq_some (h : b.onGrid? F tie e = some n) : b.Contains (halfUnits F n e) := by
  obtain ⟨scale, step, hscale, -, heq, hpoint⟩ := onGrid?_eq F b tie e
  rw [heq] at h
  rw [← hpoint, ← holds_iff hscale]
  exact nearest?_eq_some h

theorem onGrid?_eq_none (hmiddle : b.Contains b.middle) (h : b.onGrid? F tie e = none) (n : Nat) :
    ¬ b.Contains (halfUnits F n e) := by
  obtain ⟨scale, step, hscale, hstep, heq, hpoint⟩ := onGrid?_eq F b tie e
  rw [heq] at h
  rw [← hpoint]
  exact nearest?_eq_none hscale hstep hmiddle h n

end Basin

/-! ## Rounding -/

/-- **The fractions that are rounded to a word are those of its basin.** -/
theorem round_eq_iff {num den : Nat} (hfraction : 0 < F.fractionBits) (hden : 0 < den) (hw : 0 < w)
    (hfinite : w < F.infinity) :
    F.round num den = w ↔ (Basin.of F w).Contains (2 * num / den) := by
  obtain ⟨v, rfl⟩ : ∃ v, w = v + 1 := ⟨w - 1, by omega⟩
  have hsplit : F.round num den = v + 1 ↔ v < F.round num den ∧ ¬ v + 1 < F.round num den := by omega
  have hden' : (0 : ℚ) < den := by exact_mod_cast hden
  have hlow : (Basin.of F (v + 1)).low = F.middle v := rfl
  have hhigh : (Basin.of F (v + 1)).high = F.middle (v + 1) := rfl
  have hclosed : (Basin.of F (v + 1)).closed = decide ((v + 1) % 2 = 0) := rfl
  rw [hsplit, BinaryFormat.lt_round_iff hfraction hden (by omega),
    BinaryFormat.lt_round_iff hfraction hden hfinite]
  unfold Basin.Contains
  rw [hlow, hhigh, hclosed, le_div_iff₀ hden', div_le_iff₀ hden', lt_div_iff₀ hden', div_lt_iff₀ hden']
  norm_cast
  rcases Nat.mod_two_eq_zero_or_one (v + 1) with heven | hodd
  · rw [if_pos (decide_eq_true heven)]
    omega
  · rw [if_neg (by simpa using hodd)]
    omega

theorem contains_middle (F : BinaryFormat) (hw : 0 < w) :
    (Basin.of F w).Contains (Basin.of F w).middle := by
  have hbelow : F.units (w - 1) < F.units w := F.units_strictMono (by omega)
  have habove : F.units w < F.units (w + 1) := F.units_strictMono (Nat.lt_succ_self w)
  refine Basin.contains_of_lt ?_ ?_
  · show ((F.units (w - 1) + F.units w : Nat) : ℚ) < (2 * F.units w : Nat)
    exact_mod_cast (by omega : F.units (w - 1) + F.units w < 2 * F.units w)
  · show ((2 * F.units w : Nat) : ℚ) < (F.units w + F.units (w + 1) : Nat)
    exact_mod_cast (by omega : 2 * F.units w < F.units w + F.units (w + 1))

theorem low_pos (F : BinaryFormat) (hw : 0 < w) : 0 < (Basin.of F w).low := by
  have hunits : F.units (w - 1) < F.units w := F.units_strictMono (by omega)
  show 0 < F.units (w - 1) + F.units w
  omega

end Decimal

/-! ## Reading decimals -/

namespace BinaryFormat

open Decimal

variable {F : BinaryFormat} {w c : Nat} {e : Int}

/-- Infinity, if it were a number, in units. -/
theorem units_infinity (hexponent : 2 ≤ F.exponentBits) :
    F.units F.infinity = 2 ^ (F.fractionBits + (2 ^ F.exponentBits - 2)) := by
  have hpow : 2 ^ 2 ≤ 2 ^ F.exponentBits := Nat.pow_le_pow_right Nat.two_pos hexponent
  have hrow : F.infinity = (2 ^ F.exponentBits - 2 + 1) * F.hiddenBit + 0 := by
    rw [infinity, Nat.pow_eq, Nat.add_zero]
    congr 1
    omega
  rw [hrow, units_row F.hiddenBit_pos, Nat.add_zero, hiddenBit, Nat.pow_eq, ← Nat.pow_add]

/-- No finite number has more places before the point than the unit has behind it. -/
theorem units_infinity_le (hfraction : 0 < F.fractionBits) (hexponent : 2 ≤ F.exponentBits) :
    F.units F.infinity ≤ 10 ^ F.unitExponent * F.one := by
  obtain ⟨k, hk⟩ : ∃ k, F.exponentBits = k + 1 := ⟨F.exponentBits - 1, by omega⟩
  have hpow : 2 ^ 1 ≤ 2 ^ k := Nat.pow_le_pow_right Nat.two_pos (by omega)
  have hunit : F.unitExponent = 2 ^ k - 2 + F.fractionBits := by
    rw [unitExponent, hk, Nat.add_sub_cancel, Nat.pow_eq]
  calc F.units F.infinity = 2 ^ (F.fractionBits + (2 ^ F.exponentBits - 2)) :=
        units_infinity hexponent
    _ ≤ 2 ^ (4 * F.unitExponent) := by
        refine Nat.pow_le_pow_right Nat.two_pos ?_
        rw [hunit, hk, Nat.pow_succ]
        omega
    _ = 8 ^ F.unitExponent * F.one := by
        rw [one, Nat.pow_eq, show (8 : Nat) = 2 ^ 3 from rfl, ← Nat.pow_mul, ← Nat.pow_add]
        congr 1
        omega
    _ ≤ 10 ^ F.unitExponent * F.one :=
        Nat.mul_le_mul_right _ (Nat.pow_le_pow_left (by decide) _)

/-- A decimal of a basin is not so large that it is read as infinity without rounding. -/
theorem le_unitExponent_of_contains (hfraction : 0 < F.fractionBits) (hexponent : 2 ≤ F.exponentBits)
    (hfinite : w < F.infinity) (hc : c ≠ 0) (h : (Basin.of F w).Contains (halfUnits F c e)) :
    e ≤ F.unitExponent := by
  by_contra hlt
  have hone : (0 : ℚ) < F.one := by exact_mod_cast F.one_pos
  have hhigh : (Basin.of F w).high ≤ 2 * (10 ^ F.unitExponent * F.one) := by
    have hw : F.units w ≤ F.units F.infinity := units_mono hfinite.le
    have hnext : F.units (w + 1) ≤ F.units F.infinity := units_mono hfinite
    have hbound := units_infinity_le hfraction hexponent
    show F.units w + F.units (w + 1) ≤ _
    omega
  have hpow : (10 : ℚ) ^ (F.unitExponent : Int) < 10 ^ e :=
    zpow_lt_zpow_right₀ (by norm_num) (by omega)
  have hc1 : (1 : ℚ) ≤ c := by exact_mod_cast Nat.one_le_iff_ne_zero.mpr hc
  have hle := h.le_high
  have hle' : halfUnits F c e ≤ 2 * (10 ^ F.unitExponent * F.one) :=
    hle.trans (by exact_mod_cast hhigh)
  have hlt' : 2 * (10 ^ F.unitExponent * F.one) < halfUnits F c e := by
    calc (2 * (10 ^ F.unitExponent * F.one) : ℚ)
        = 10 ^ (F.unitExponent : Int) * (2 * F.one) := by rw [zpow_natCast]; ring
      _ < 10 ^ e * (2 * F.one) := mul_lt_mul_of_pos_right hpow (by positivity)
      _ ≤ c * 10 ^ e * (2 * F.one) := by
        refine mul_le_mul_of_nonneg_right ?_ (by positivity)
        exact le_mul_of_one_le_left (zpow_pos (by norm_num) e).le hc1
  exact absurd hle' (not_le.mpr hlt')

/-- A decimal of a basin is not so small that it is read as zero without rounding. -/
theorem le_exponent_of_contains (hw : 0 < w) (h : (Basin.of F w).Contains (halfUnits F c e)) :
    -(F.unitExponent + c.log2 + 2 : Int) ≤ e := by
  by_contra hlt
  obtain ⟨k, hk⟩ : ∃ k : Nat, e = -(k : Int) := ⟨(-e).toNat, by omega⟩
  subst hk
  have hlow : (1 : ℚ) ≤ (Basin.of F w).low := by exact_mod_cast low_pos F hw
  have hc : c < 2 ^ (c.log2 + 1) := Nat.lt_log2_self
  have hsmall : c * (2 * F.one) < 10 ^ k := by
    calc c * (2 * F.one) < 2 ^ (c.log2 + 1) * (2 * F.one) :=
          Nat.mul_lt_mul_of_pos_right hc (by have := F.one_pos; omega)
      _ = 2 ^ (F.unitExponent + c.log2 + 2) := by
          rw [one, Nat.pow_eq]
          ring
      _ ≤ 2 ^ k := Nat.pow_le_pow_right Nat.two_pos (by omega)
      _ ≤ 10 ^ k := Nat.pow_le_pow_left (by decide) k
  have hlt1 : halfUnits F c (-(k : Int)) < 1 := by
    have hpow : (0 : ℚ) < 10 ^ k := by positivity
    rw [halfUnits, zpow_neg, zpow_natCast, mul_right_comm, ← div_eq_mul_inv, div_lt_one hpow]
    exact_mod_cast hsmall
  exact absurd (hlow.trans h.low_le) (not_le.mpr hlt1)

/-- **A decimal is read as the word whose basin it lies in**, in whatever way it is written. -/
theorem ofDecimal_of_contains (hfraction : 0 < F.fractionBits) (hexponent : 2 ≤ F.exponentBits)
    (hw : 0 < w) (hfinite : w < F.infinity) (h : (Basin.of F w).Contains (halfUnits F c e))
    (negative : Bool) : F.ofDecimal negative c e = ⟨negative, w⟩ := by
  have hc : c ≠ 0 := by
    rintro rfl
    have hlow : (0 : ℚ) < (Basin.of F w).low := by exact_mod_cast low_pos F hw
    refine absurd (hlow.trans_le h.low_le) ?_
    simp [halfUnits]
  have hmost := le_unitExponent_of_contains hfraction hexponent hfinite hc h
  have hleast := le_exponent_of_contains hw h
  unfold ofDecimal
  rw [if_neg hc, if_neg (by omega), if_neg (by omega)]
  unfold ofFraction
  split
  · rename_i he
    obtain ⟨k, rfl⟩ := Int.eq_ofNat_of_zero_le he
    have hround : F.round (c * 10 ^ k * F.one) 1 = w := by
      rw [round_eq_iff hfraction Nat.one_pos hw hfinite]
      convert h using 1
      rw [halfUnits, zpow_natCast]
      push_cast
      ring
    rw [Int.toNat_natCast, Nat.pow_eq, hround]
  · rename_i he
    obtain ⟨k, hk⟩ : ∃ k : Nat, e = -(k : Int) := ⟨(-e).toNat, by omega⟩
    subst hk
    have hround : F.round (c * F.one) (10 ^ k) = w := by
      rw [round_eq_iff hfraction (Nat.pow_pos (by decide)) hw hfinite]
      convert h using 1
      rw [halfUnits, zpow_neg, zpow_natCast]
      push_cast
      field_simp
    rw [neg_neg, Int.toNat_natCast, Nat.pow_eq, hround]

end BinaryFormat

/-! ## The search -/

namespace Decimal

variable {F : BinaryFormat} {b : Basin} {tie : Tie} {w count n : Nat} {e j : Int}

/-- The search finds a point of the basin, if the last grid has one, and nothing of the basin lies on
a coarser grid that it tried. -/
theorem search_spec (hmiddle : b.Contains b.middle)
    (hlast : ∃ n, b.Contains (halfUnits F n (e - count))) :
    b.Contains (halfUnits F (search F b tie count e).coefficient (search F b tie count e).exponent) ∧
      ∀ j n, (search F b tie count e).exponent < j → j ≤ e → ¬ b.Contains (halfUnits F n j) := by
  induction count generalizing e with
  | zero =>
    obtain ⟨n, hn⟩ := hlast
    rw [Int.natCast_zero, Int.sub_zero] at hn
    unfold search
    cases hgrid : b.onGrid? F tie e with
    | none => exact absurd hn (Basin.onGrid?_eq_none hmiddle hgrid n)
    | some m => exact ⟨Basin.onGrid?_eq_some hgrid, fun j _ hlt hle => absurd hle (not_le.mpr hlt)⟩
  | succ count ih =>
    unfold search
    cases hgrid : b.onGrid? F tie e with
    | some m => exact ⟨Basin.onGrid?_eq_some hgrid, fun j _ hlt hle => absurd hle (not_le.mpr hlt)⟩
    | none =>
      have hexp : e - (count + 1 : Nat) = e - 1 - count := by omega
      rw [hexp] at hlast
      obtain ⟨hcontains, hminimal⟩ := ih hlast
      refine ⟨hcontains, fun j n hlt hle => ?_⟩
      rcases hle.lt_or_eq with hlt' | rfl
      · exact hminimal j n hlt (by omega)
      · exact Basin.onGrid?_eq_none hmiddle hgrid n

/-- The exponent of the first grid on which the shortest decimal of a word is looked for. -/
def startExponent (F : BinaryFormat) (w : Nat) : Int :=
  ceilingExponent ((F.units w).log2 + 1 - F.unitExponent)

/-- A step of the last grid is less than half a unit. -/
theorem exists_last (hfraction : 0 < F.fractionBits) (hw : 0 < w) :
    ∃ n, (Basin.of F w).Contains (halfUnits F n (-(F.unitExponent : Int))) := by
  have hone := F.one_pos
  obtain ⟨k, hk⟩ : ∃ k, F.unitExponent = k + 1 :=
    ⟨F.unitExponent - 1, by unfold BinaryFormat.unitExponent; omega⟩
  have hstep : 2 * F.one ≤ 10 ^ F.unitExponent := by
    calc 2 * F.one = 4 * 2 ^ k := by rw [BinaryFormat.one, Nat.pow_eq, hk]; ring
      _ ≤ 10 * 10 ^ k := Nat.mul_le_mul (by decide) (Nat.pow_le_pow_left (by decide) k)
      _ = 10 ^ F.unitExponent := by rw [hk]; ring
  have hbelow : F.units (w - 1) < F.units w := F.units_strictMono (by omega)
  have habove : F.units w < F.units (w + 1) := F.units_strictMono (Nat.lt_succ_self w)
  have hle : 2 * F.units w * 10 ^ F.unitExponent / (2 * F.one) * (2 * F.one) ≤
      2 * F.units w * 10 ^ F.unitExponent := Nat.div_mul_le_self _ _
  have hlt : 2 * F.units w * 10 ^ F.unitExponent <
      (2 * F.units w * 10 ^ F.unitExponent / (2 * F.one) + 1) * (2 * F.one) :=
    (Nat.div_lt_iff_lt_mul (by omega)).mp (Nat.lt_succ_self _)
  generalize 2 * F.units w * 10 ^ F.unitExponent / (2 * F.one) = m at hle hlt
  have hpow : (0 : ℚ) < 10 ^ F.unitExponent := by positivity
  have hpoint : halfUnits F m (-(F.unitExponent : Int)) =
      (m * (2 * F.one) : Nat) / (10 ^ F.unitExponent : Nat) := by
    rw [halfUnits, zpow_neg, zpow_natCast]
    push_cast
    ring
  refine ⟨m, ?_⟩
  rw [hpoint]
  refine Basin.contains_of_lt ?_ ?_
  · rw [lt_div_iff₀ (by exact_mod_cast hpow)]
    show ((F.units (w - 1) + F.units w : Nat) : ℚ) * (10 ^ F.unitExponent : Nat) < _
    have hlow : (F.units (w - 1) + F.units w) * 10 ^ F.unitExponent + 10 ^ F.unitExponent ≤
        2 * F.units w * 10 ^ F.unitExponent := by
      rw [← Nat.succ_mul]
      exact Nat.mul_le_mul_right _ (by omega)
    rw [Nat.add_mul, Nat.one_mul] at hlt
    exact_mod_cast (by omega : (F.units (w - 1) + F.units w) * 10 ^ F.unitExponent < m * (2 * F.one))
  · rw [div_lt_iff₀ (by exact_mod_cast hpow)]
    show _ < ((F.units w + F.units (w + 1) : Nat) : ℚ) * (10 ^ F.unitExponent : Nat)
    have hhigh : 2 * F.units w * 10 ^ F.unitExponent <
        (F.units w + F.units (w + 1)) * 10 ^ F.unitExponent :=
      Nat.mul_lt_mul_of_pos_right (by omega) (by positivity)
    exact_mod_cast hle.trans_lt hhigh

theorem last_le_start (hfraction : 0 < F.fractionBits) (w : Nat) :
    -(F.unitExponent : Int) ≤ startExponent F w := by
  have hunit : 0 < F.unitExponent := by unfold BinaryFormat.unitExponent; omega
  unfold startExponent ceilingExponent
  omega

/-- **The shortest decimal of a word lies in its basin**, and nothing on a coarser grid does. -/
theorem shortest_spec (tie : Tie) (hfraction : 0 < F.fractionBits) (hw : 0 < w) :
    (Basin.of F w).Contains
        (halfUnits F (shortest F tie w).coefficient (shortest F tie w).exponent) ∧
      ∀ j n, (shortest F tie w).exponent < j → j ≤ startExponent F w →
        ¬ (Basin.of F w).Contains (halfUnits F n j) := by
  have hle := last_le_start hfraction w
  have hexp : startExponent F w - ((startExponent F w - -(F.unitExponent : Int)).toNat : Int) =
      -(F.unitExponent : Int) := by omega
  refine search_spec (contains_middle F hw) ?_
  show ∃ n, (Basin.of F w).Contains (halfUnits F n
    (startExponent F w - ((startExponent F w - -(F.unitExponent : Int)).toNat : Int)))
  rw [hexp]
  exact exists_last hfraction hw

end Decimal

end ScenePack
