import Mathlib.Data.Nat.Sqrt
import ScenePack.Proofs.Binary.Class
import ScenePack.Proofs.Binary.Rounding

/-!
# Lengths, rounded step by step

The length of a vector is the root of the sum of its squares, and each step is rounded. Of numbers
without a sign the steps are functions of their magnitude words alone: `times`, `plus` and `root`,
which keep the order of words. So a length is at least as large as what one component comes to when
it is squared and the root is taken again. That is the component itself, unless its square is so
small that places are lost.

* `squares`, `length`: the sum of squares and its root, on words.
* `Vec3.Unsigned`: all components are finite and have no sign.

Results:
* `mul_unsigned`, `add_unsigned`, `sqrt_unsigned`: the steps on words.
* `floorSqrt_eq_sqrt`: the root of the units is the whole root.
* **`le_root_of_square_le`**: the rounded root of a rounded square gives the number back, whatever is
  added in between.
* **`le_length`**, `le_length_replicate`: no component is above the length.
* **`Vec3.bits_norm`**: the length of a vector is the length of its words.
-/

namespace ScenePack

/-! ## Whole roots -/

theorem floorSqrtDigits_spec : ∀ {digits n : Nat}, n < 4 ^ digits →
    floorSqrtDigits digits n * floorSqrtDigits digits n ≤ n ∧
      n < (floorSqrtDigits digits n + 1) * (floorSqrtDigits digits n + 1)
  | 0, n, h => by
    rw [Nat.pow_zero, Nat.lt_one_iff] at h
    subst h
    exact ⟨Nat.le_refl 0, Nat.one_pos⟩
  | digits + 1, n, h => by
    have hn : n / 4 < 4 ^ digits := by
      rw [Nat.pow_succ] at h
      omega
    obtain ⟨hle, hlt⟩ := floorSqrtDigits_spec hn
    unfold floorSqrtDigits
    dsimp only
    generalize floorSqrtDigits digits (n / 4) = r at *
    have hlow : 2 * r * (2 * r) = 4 * (r * r) := by ring
    have hhigh : (2 * r + 1 + 1) * (2 * r + 1 + 1) = 4 * ((r + 1) * (r + 1)) := by ring
    split
    · omega
    · omega

/-- **The root of the units is the whole root.** -/
theorem floorSqrt_eq_sqrt (n : Nat) : floorSqrt n = Nat.sqrt n := by
  have hn : n < 4 ^ (n.log2 / 2 + 1) := by
    have h4 : 4 ^ (n.log2 / 2 + 1) = 2 ^ (2 * (n.log2 / 2 + 1)) := by
      rw [Nat.pow_mul]
    rw [h4]
    exact Nat.lt_of_lt_of_le Nat.lt_log2_self (Nat.pow_le_pow_right Nat.two_pos (by omega))
  obtain ⟨hle, hlt⟩ := floorSqrtDigits_spec hn
  exact Nat.eq_sqrt.mpr ⟨hle, hlt⟩

namespace BinaryFormat

variable {F : BinaryFormat} {v w t : Nat}

/-! ## Steps on words -/

/-- The product of two finite magnitudes. -/
def times (F : BinaryFormat) (v w : Nat) : Nat := F.round (F.units v * F.units w) F.one

/-- The sum of two magnitudes. -/
def plus (F : BinaryFormat) (v w : Nat) : Nat :=
  if v = F.infinity ∨ w = F.infinity then F.infinity else F.round (F.units v + F.units w) 1

/-- The root of a magnitude. -/
def root (F : BinaryFormat) (t : Nat) : Nat :=
  if t = 0 ∨ t = F.infinity then t
  else
    let square := F.units t * F.one
    F.round (2 * Nat.sqrt square + if Nat.sqrt square * Nat.sqrt square = square then 0 else 1) 2

theorem times_le_infinity (F : BinaryFormat) (v w : Nat) : F.times v w ≤ F.infinity :=
  round_le_infinity _ _

theorem plus_le_infinity (F : BinaryFormat) (v w : Nat) : F.plus v w ≤ F.infinity := by
  unfold plus
  split
  · exact Nat.le_refl _
  · exact round_le_infinity _ _

theorem mul_unsigned (hv : v < F.infinity) (hw : w < F.infinity) :
    F.mul ⟨false, v⟩ ⟨false, w⟩ = ⟨false, F.times v w⟩ := by
  unfold mul isNaN isInfinite ofFraction times
  simp [Nat.not_lt.mpr hv.le, Nat.not_lt.mpr hw.le, hv.ne, hw.ne]

theorem add_unsigned (hfraction : 0 < F.fractionBits) (hv : v ≤ F.infinity)
    (hw : w ≤ F.infinity) : F.add ⟨false, v⟩ ⟨false, w⟩ = ⟨false, F.plus v w⟩ := by
  have hzero : F.round 0 1 = 0 := by
    have hunits : F.units 0 = 0 := units_of_lt F.hiddenBit_pos
    exact Nat.le_zero.mp (round_le_of_le_units hfraction Nat.one_pos (by simp [hunits]))
  unfold add isNaN isInfinite plus
  dsimp only
  rw [decide_eq_false (Nat.not_lt.mpr hv), decide_eq_false (Nat.not_lt.mpr hw)]
  by_cases hvi : v = F.infinity
  · simp [hvi]
  by_cases hwi : w = F.infinity
  · simp [hvi, hwi]
  have hsum : F.signedUnits ⟨false, v⟩ + F.signedUnits ⟨false, w⟩ =
      ((F.units v + F.units w : Nat) : Int) := rfl
  simp only [hvi, hwi, decide_false, Bool.or_false, Bool.false_eq_true, if_false, hsum]
  split
  · rename_i hnone
    have hnone : F.units v + F.units w = 0 := Int.natCast_eq_zero.mp hnone
    simp [hnone, hzero]
  · unfold ofFraction
    rw [decide_eq_false (Int.not_lt.mpr (Int.natCast_nonneg _)), Int.natAbs_natCast,
      if_neg (not_or_intro not_false not_false)]

theorem sqrt_unsigned (ht : t ≤ F.infinity) : F.sqrt ⟨false, t⟩ = ⟨false, F.root t⟩ := by
  unfold sqrt isNaN isInfinite root ofFraction
  dsimp only
  rw [decide_eq_false (Nat.not_lt.mpr ht), floorSqrt_eq_sqrt]
  by_cases h0 : t = 0
  · simp [h0]
  by_cases hi : t = F.infinity
  · simp [hi]
  simp only [h0, hi, decide_false, Bool.false_eq_true, if_false, or_self]

/-! ## The steps keep the order of words -/

section Order

variable (hfraction : 0 < F.fractionBits)

include hfraction

theorem times_mono {v' w' : Nat} (hv : v ≤ v') (hw : w ≤ w') : F.times v w ≤ F.times v' w' :=
  round_mono hfraction F.one_pos (Nat.mul_le_mul (units_mono hv) (units_mono hw))

theorem plus_mono {v' w' : Nat} (hv : v ≤ v') (hw : w ≤ w') (hv' : v' ≤ F.infinity)
    (hw' : w' ≤ F.infinity) : F.plus v w ≤ F.plus v' w' := by
  by_cases h : v' = F.infinity ∨ w' = F.infinity
  · have hinf : F.plus v' w' = F.infinity := if_pos h
    rw [hinf]
    exact plus_le_infinity F v w
  · have hno : ¬ (v = F.infinity ∨ w = F.infinity) := by omega
    unfold plus
    rw [if_neg hno, if_neg h]
    exact round_mono hfraction Nat.one_pos (Nat.add_le_add (units_mono hv) (units_mono hw))

/-- A sum is at least as large as what is added. -/
theorem le_plus_left (hv : v ≤ F.infinity) (w : Nat) : v ≤ F.plus v w := by
  unfold plus
  split
  · exact hv
  · exact le_round_of_units_le hfraction Nat.one_pos hv (by omega)

theorem le_plus_right (v : Nat) (hw : w ≤ F.infinity) : w ≤ F.plus v w := by
  unfold plus
  split
  · exact hw
  · exact le_round_of_units_le hfraction Nat.one_pos hw (by omega)

/-! ## Roots of squares -/

/-- A word whose exact square is not above a number is not above the number's root. -/
theorem le_root_of_sq_le (hw : w ≤ F.infinity) (ht0 : t ≠ 0)
    (h : F.units w * F.units w ≤ F.units t * F.one) : w ≤ F.root t := by
  unfold root
  split
  · omega
  · have hroot : F.units w ≤ Nat.sqrt (F.units t * F.one) := Nat.le_sqrt.mpr h
    exact le_round_of_units_le hfraction Nat.two_pos hw (by omega)

/-- A word is not above the root of a number if the middle below the word is a whole number and its
exact square is below the number. -/
theorem lt_root_of_middle {k : Nat} (hw : w < F.infinity) (hk : F.middle w = 2 * k) (ht0 : t ≠ 0)
    (h : k * k < F.units t * F.one) : w < F.root t := by
  unfold root
  split
  · omega
  · dsimp only
    refine (lt_round_iff hfraction Nat.two_pos hw).mpr (.inl ?_)
    have hroot : k ≤ Nat.sqrt (F.units t * F.one) := Nat.le_sqrt.mpr h.le
    rw [hk]
    split
    · rename_i hexact
      have hne : k ≠ Nat.sqrt (F.units t * F.one) := by
        rintro rfl
        omega
      omega
    · omega

/-- What rounding a square takes from it, when the square has all its places. -/
theorem sq_le_units_times (hfull : F.hiddenBit ≤ F.times w w) (hfinite : F.times w w < F.infinity) :
    2 * F.hiddenBit * (F.units w * F.units w) ≤
      (2 * F.hiddenBit + 1) * (F.units (F.times w w) * F.one) := by
  have hround : ¬ F.times w w < F.round (F.units w * F.units w) F.one := Nat.lt_irrefl _
  rw [lt_round_iff hfraction F.one_pos hfinite] at hround
  have hmiddle : 2 * (F.units w * F.units w) ≤ F.middle (F.times w w) * F.one := by omega
  have hgap : F.hiddenBit * F.gap (F.times w w) ≤ F.units (F.times w w) := by
    obtain ⟨s, m, hm, hrow⟩ := exists_row hfull
    rw [hrow, gap_row hm, units_row hm]
    exact Nat.mul_le_mul_right _ (Nat.le_add_right _ _)
  rw [middle_eq] at hmiddle
  generalize F.units (F.times w w) = u at *
  generalize F.gap (F.times w w) = g at *
  generalize F.units w * F.units w = e at *
  calc 2 * F.hiddenBit * e = F.hiddenBit * (2 * e) := by ring
    _ ≤ F.hiddenBit * ((2 * u + g) * F.one) := Nat.mul_le_mul_left _ hmiddle
    _ = (2 * F.hiddenBit * u + F.hiddenBit * g) * F.one := by ring
    _ ≤ (2 * F.hiddenBit * u + u) * F.one :=
      Nat.mul_le_mul_right _ (Nat.add_le_add_left hgap _)
    _ = (2 * F.hiddenBit + 1) * (u * F.one) := by ring

omit hfraction in
/-- From the third row on the gaps are even: the middle is a whole number of halves of the gap, and
the next word is one half more. -/
theorem exists_half_gaps (h : 2 * F.hiddenBit ≤ v) : ∃ m s, m ≤ 4 * F.hiddenBit ∧
    F.middle v = 2 * (m * 2 ^ s) ∧ F.units (v + 1) = (m + 1) * 2 ^ s := by
  have hH := F.hiddenBit_pos
  obtain ⟨s, r, hr, rfl⟩ := exists_row (F := F) (w := v) (by omega)
  obtain ⟨s, rfl⟩ : ∃ s', s = s' + 1 := by
    refine Nat.exists_eq_succ_of_ne_zero ?_
    rintro rfl
    omega
  refine ⟨2 * (F.hiddenBit + r) + 1, s, by omega, ?_, ?_⟩
  · rw [middle_eq, units_row hr, gap_row hr]
    ring
  · rw [units_succ, units_row hr, gap_row hr]
    ring

/-- **The root of a square gives the number back.** A number is not above the rounded root of what
is not below its rounded square, if that square is finite and has all its places. -/
theorem le_root_of_square_le (hlow : 2 * F.hiddenBit < w) (hw : w ≤ F.infinity)
    (hfull : F.hiddenBit ≤ F.times w w) (hle : F.times w w ≤ t) (ht : t < F.infinity) :
    w ≤ F.root t := by
  obtain ⟨v, rfl⟩ : ∃ v, w = v + 1 := ⟨w - 1, by omega⟩
  obtain ⟨m, s, hm, hmiddle, hunits⟩ := exists_half_gaps (F := F) (v := v) (by omega)
  -- half a gap is more than rounding takes from a square that has all its places
  have hplaces : m * m ≤ 4 * F.hiddenBit * m := Nat.mul_le_mul_right m hm
  have hlost : (2 * F.hiddenBit + 1) * (m * m) < 2 * F.hiddenBit * ((m + 1) * (m + 1)) := by
    have hexpand : 2 * F.hiddenBit * ((m + 1) * (m + 1)) =
        2 * F.hiddenBit * (m * m) + 4 * F.hiddenBit * m + 2 * F.hiddenBit := by ring
    have hH := F.hiddenBit_pos
    rw [hexpand, Nat.add_mul, Nat.one_mul]
    omega
  have hsquare := sq_le_units_times hfraction hfull (Nat.lt_of_le_of_lt hle ht)
  rw [hunits] at hsquare
  have hpos : 0 < F.times (v + 1) (v + 1) := F.hiddenBit_pos.trans_le hfull
  refine lt_root_of_middle hfraction hw hmiddle (by omega) ?_
  refine Nat.lt_of_mul_lt_mul_left (a := 2 * F.hiddenBit + 1) ?_
  calc (2 * F.hiddenBit + 1) * (m * 2 ^ s * (m * 2 ^ s))
      = (2 * F.hiddenBit + 1) * (m * m) * (2 ^ s * 2 ^ s) := by ring
    _ < 2 * F.hiddenBit * ((m + 1) * (m + 1)) * (2 ^ s * 2 ^ s) :=
      Nat.mul_lt_mul_of_pos_right hlost (Nat.mul_pos (Nat.two_pow_pos s) (Nat.two_pow_pos s))
    _ = 2 * F.hiddenBit * ((m + 1) * 2 ^ s * ((m + 1) * 2 ^ s)) := by ring
    _ ≤ (2 * F.hiddenBit + 1) * (F.units (F.times _ _) * F.one) := hsquare
    _ ≤ (2 * F.hiddenBit + 1) * (F.units t * F.one) :=
      Nat.mul_le_mul_left _ (Nat.mul_le_mul_right _ (units_mono hle))

/-- The same for a number whose square has lost places, if twice the rounded square is there:
rounding takes from a square no more than the rounded square itself. -/
theorem le_root_of_two_squares_le (hw : w ≤ F.infinity) (hpos : F.times w w ≠ 0)
    (hfinite : F.times w w < F.infinity) (ht0 : t ≠ 0)
    (hle : 2 * F.units (F.times w w) ≤ F.units t) : w ≤ F.root t := by
  have hround : ¬ F.times w w < F.round (F.units w * F.units w) F.one := Nat.lt_irrefl _
  rw [lt_round_iff hfraction F.one_pos hfinite] at hround
  have hmiddle : 2 * (F.units w * F.units w) ≤ F.middle (F.times w w) * F.one := by omega
  rw [middle_eq] at hmiddle
  have hgap := gap_le_units (F := F) hpos
  refine le_root_of_sq_le hfraction hw ht0 ?_
  generalize F.units (F.times w w) = u at *
  generalize F.gap (F.times w w) = g at *
  have hlost : (2 * u + g) * F.one ≤ 2 * (2 * u) * F.one :=
    Nat.mul_le_mul_right _ (by omega)
  calc F.units w * F.units w ≤ 2 * u * F.one := by
        rw [Nat.mul_assoc 2 (2 * u)] at hlost
        omega
    _ ≤ F.units t * F.one := Nat.mul_le_mul_right _ hle

/-- The root of a positive number is positive. -/
theorem root_pos (ht0 : t ≠ 0) (ht : t ≤ F.infinity) : 0 < F.root t := by
  have hone : F.units 1 = 1 := units_of_lt (Nat.one_lt_two_pow hfraction.ne')
  have hunits : F.units 1 ≤ F.units t := units_mono (Nat.pos_of_ne_zero ht0)
  have hpos := F.one_pos
  refine le_root_of_sq_le hfraction (by omega) ht0 ?_
  rw [hone] at hunits ⊢
  exact Nat.mul_le_mul hunits hpos

/-- A word whose exact square is not below a number is not below the number's root. -/
theorem root_le_of_le_sq (ht : t < F.infinity) (h : F.units t * F.one ≤ F.units w * F.units w) :
    F.root t ≤ w := by
  unfold root
  split
  · omega
  · refine round_le_of_le_units hfraction Nat.two_pos ?_
    have hroot : Nat.sqrt (F.units t * F.one) ≤ F.units w := by
      rw [← Nat.sqrt_eq (F.units w)]
      exact Nat.sqrt_le_sqrt h
    split
    · omega
    · rename_i hinexact
      have hne : Nat.sqrt (F.units t * F.one) ≠ F.units w := by
        intro heq
        rw [heq] at hinexact
        have hle := Nat.sqrt_le (F.units t * F.one)
        rw [heq] at hle
        omega
      omega

end Order

theorem root_infinity (F : BinaryFormat) : F.root F.infinity = F.infinity := if_pos (.inr rfl)

/-! ## Lengths -/

/-- The sum of the squares of three magnitudes, each step rounded. -/
def squares (F : BinaryFormat) (x y z : Nat) : Nat :=
  F.plus (F.plus (F.times x x) (F.times y y)) (F.times z z)

/-- The length of a vector of three magnitudes. -/
def length (F : BinaryFormat) (x y z : Nat) : Nat := F.root (F.squares x y z)

section Length

variable (hfraction : 0 < F.fractionBits) {x y z : Nat}

theorem squares_le_infinity (F : BinaryFormat) (x y z : Nat) : F.squares x y z ≤ F.infinity :=
  plus_le_infinity _ _ _

include hfraction

theorem squares_mono {x' y' z' : Nat} (hx : x ≤ x') (hy : y ≤ y') (hz : z ≤ z') :
    F.squares x y z ≤ F.squares x' y' z' :=
  plus_mono hfraction
    (plus_mono hfraction (times_mono hfraction hx hx) (times_mono hfraction hy hy)
      (times_le_infinity _ _ _) (times_le_infinity _ _ _))
    (times_mono hfraction hz hz) (plus_le_infinity _ _ _) (times_le_infinity _ _ _)

/-- The square of a component is not above the sum of squares. -/
theorem times_le_squares (hw : w = x ∨ w = y ∨ w = z) : F.times w w ≤ F.squares x y z := by
  have hplus : F.plus (F.times x x) (F.times y y) ≤ F.squares x y z :=
    le_plus_left hfraction (plus_le_infinity _ _ _) _
  rcases hw with rfl | rfl | rfl
  · exact (le_plus_left hfraction (times_le_infinity _ _ _) _).trans hplus
  · exact (le_plus_right hfraction _ (times_le_infinity _ _ _)).trans hplus
  · exact le_plus_right hfraction _ (times_le_infinity _ _ _)

/-- **A component is not above the length**, if its square has all its places. -/
theorem le_length (hw : w = x ∨ w = y ∨ w = z) (hlow : 2 * F.hiddenBit < w) (hinf : w ≤ F.infinity)
    (hfull : F.hiddenBit ≤ F.times w w) : w ≤ F.length x y z := by
  unfold length
  rcases (squares_le_infinity F x y z).lt_or_eq with hfinite | hinfinite
  · exact le_root_of_square_le hfraction hlow hinf hfull (times_le_squares hfraction hw) hfinite
  · rw [hinfinite, root_infinity]
    exact hinf

theorem length_pos (h : F.squares x y z ≠ 0) : 0 < F.length x y z :=
  root_pos hfraction h (squares_le_infinity F x y z)

/-- Doubling loses nothing below infinity. -/
theorem units_le_plus_self (h : F.plus w w < F.infinity) : 2 * F.units w ≤ F.units (F.plus w w) := by
  obtain ⟨v, hv⟩ := F.exists_double w
  have hplus : F.plus w w = F.round (F.units v * 1) 1 := by
    have hfinite : ¬ (w = F.infinity ∨ w = F.infinity) := by
      intro hw
      rw [plus, if_pos hw] at h
      exact Nat.lt_irrefl _ h
    rw [plus, if_neg hfinite, ← Nat.two_mul, ← hv, Nat.mul_one]
  have hle : v ≤ F.infinity := by
    by_contra hlt
    have hunits := units_mono (F := F) (Nat.le_of_not_le hlt)
    have hround := le_round_of_units_le hfraction Nat.one_pos (Nat.le_refl F.infinity)
      (Nat.mul_le_mul_right 1 hunits)
    omega
  rw [hplus, round_units hfraction Nat.one_pos hle, hv]

/-- **Of three equal components none is above the length**, if the length is neither zero nor
infinite: the square is there three times, which makes good what rounding took from it. -/
theorem le_length_replicate (hinf : w ≤ F.infinity) (hpos : F.times w w ≠ 0)
    (hfinite : F.squares w w w < F.infinity) : w ≤ F.length w w w := by
  have htwo : F.plus (F.times w w) (F.times w w) ≤ F.squares w w w :=
    le_plus_left hfraction (plus_le_infinity _ _ _) _
  have hone : F.times w w ≤ F.squares w w w := times_le_squares hfraction (.inl rfl)
  refine le_root_of_two_squares_le hfraction hinf hpos (by omega) (by omega) ?_
  exact (units_le_plus_self hfraction (by omega)).trans (units_mono htwo)

end Length

end BinaryFormat

/-! ## Singles -/

namespace Single

open BinaryFormat

variable {x y : Single}

theorem number_unsigned (h : x.bits.toNat < signBit) : x.number = ⟨false, x.bits.toNat⟩ := by
  rw [number, decide_eq_false (Nat.not_le.mpr h), Nat.mod_eq_of_lt h]

theorem bits_ofNumber {w : Nat} (h : w < signBit) : (ofNumber ⟨false, w⟩).bits.toNat = w := by
  have hw : w < 4294967296 := by
    unfold signBit at h
    omega
  simp [ofNumber, Nat.mod_eq_of_lt hw]

theorem lt_signBit {w : Nat} (h : w ≤ single.infinity) : w < signBit :=
  Nat.lt_of_le_of_lt h (by decide)

theorem bits_mul (hx : x.bits.toNat < single.infinity) (hy : y.bits.toNat < single.infinity) :
    (x * y).bits.toNat = single.times x.bits.toNat y.bits.toNat := by
  show (ofNumber (single.mul x.number y.number)).bits.toNat = _
  rw [number_unsigned (lt_signBit hx.le), number_unsigned (lt_signBit hy.le), mul_unsigned hx hy,
    bits_ofNumber (lt_signBit (times_le_infinity _ _ _))]

theorem bits_add (hx : x.bits.toNat ≤ single.infinity) (hy : y.bits.toNat ≤ single.infinity) :
    (x + y).bits.toNat = single.plus x.bits.toNat y.bits.toNat := by
  show (ofNumber (single.add x.number y.number)).bits.toNat = _
  rw [number_unsigned (lt_signBit hx), number_unsigned (lt_signBit hy),
    add_unsigned (by decide) hx hy, bits_ofNumber (lt_signBit (plus_le_infinity _ _ _))]

/-- Roots of finite numbers lie below `2 ^ 64`. -/
theorem root_lt_infinity {t : Nat} (ht : t < single.infinity) : single.root t < single.infinity := by
  have hroot : single.root t ≤ 0x5f800000 := by
    refine root_le_of_le_sq (by decide) ht ?_
    calc single.units t * single.one ≤ single.units single.infinity * single.one :=
          Nat.mul_le_mul_right _ (units_mono ht.le)
      _ ≤ single.units 0x5f800000 * single.units 0x5f800000 := by decide
  exact Nat.lt_of_le_of_lt hroot (by decide)

theorem root_le_infinity {t : Nat} (ht : t ≤ single.infinity) : single.root t ≤ single.infinity := by
  rcases ht.lt_or_eq with ht | rfl
  · exact (root_lt_infinity ht).le
  · exact (root_infinity single).le

theorem bits_sqrt (hx : x.bits.toNat ≤ single.infinity) :
    x.sqrt.bits.toNat = single.root x.bits.toNat := by
  show (ofNumber (single.sqrt x.number)).bits.toNat = _
  rw [number_unsigned (lt_signBit hx), sqrt_unsigned hx,
    bits_ofNumber (lt_signBit (root_le_infinity hx))]

end Single

namespace Vec3

variable {v : Vec3}

/-- Every component is finite and has no sign. -/
def Unsigned (v : Vec3) : Prop := ∀ w ∈ v.words, w.toNat < Single.infinityWord

theorem forall_mem_words {p : UInt32 → Prop} :
    (∀ w ∈ v.words, p w) ↔ p v.x.bits ∧ p v.y.bits ∧ p v.z.bits := by
  simp [words]

/-- **The length of a vector of finite numbers without a sign.** -/
theorem bits_norm (hv : v.Unsigned) :
    v.norm.bits.toNat =
      BinaryFormat.single.length v.x.bits.toNat v.y.bits.toNat v.z.bits.toNat := by
  obtain ⟨hx, hy, hz⟩ := forall_mem_words.mp hv
  have hxx := Single.bits_mul hx hx
  have hyy := Single.bits_mul hy hy
  have hzz := Single.bits_mul hz hz
  have hxy := Single.bits_add (hxx.trans_le (BinaryFormat.times_le_infinity _ _ _))
    (hyy.trans_le (BinaryFormat.times_le_infinity _ _ _))
  have hsum := Single.bits_add (hxy.trans_le (BinaryFormat.plus_le_infinity _ _ _))
    (hzz.trans_le (BinaryFormat.times_le_infinity _ _ _))
  unfold norm
  rw [Single.bits_sqrt (hsum.trans_le (BinaryFormat.plus_le_infinity _ _ _)), hsum, hxy, hxx, hyy,
    hzz]
  rfl

end Vec3

end ScenePack
