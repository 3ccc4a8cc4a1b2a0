import ScenePack.Proofs.Binary.Ordered
import ScenePack.Proofs.Binary.Twice

/-!
# Conversions of whole numbers

What an integer is as a single and as a double, what a whole double is as a single and as a count.
Each is the integer rounded to the digits of the format, as long as infinity is far away, which it
is for numbers of 64 bits.

* `Represents`: a number of a format is a whole number with a sign; `HasValue`: it is an integer,
  whatever the sign of zero.

Results:
* `represents_ofInt`, `Represents.convert`: integers and whole numbers rounded to a format.
* `Single.represents_ofInt`, `Double.represents_ofInt`, `Double.represents_toSingle`: the same on
  words, for numbers of 64 bits.
* **`Double.toCount?_eq_some_iff`**: a double is read as a count iff it is the count.
* **`Double.toCount?_ofInt`**: and an integer, rounded to a double before, iff it is the count.
-/

namespace ScenePack

namespace BinaryFormat

variable {F G : BinaryFormat} {x y : BinaryNumber} {negative : Bool} {w n r num den : Nat} {k c : Int}

/-- `x` is the whole number `r`, with a sign. -/
structure Represents (F : BinaryFormat) (x : BinaryNumber) (negative : Bool) (r : Nat) : Prop where
  sign : x.negative = negative
  finite : x.magnitude < F.infinity
  units : F.units x.magnitude = r * F.one

/-- `x` is the integer `k`. -/
def HasValue (F : BinaryFormat) (x : BinaryNumber) (k : Int) : Prop :=
  F.isFinite x = true ∧ F.signedUnits x = k * F.one

/-- There is one number of a sign and a magnitude. -/
theorem Represents.eq_iff (hx : F.Represents x negative n) (hy : F.Represents y negative r) :
    x = y ↔ n = r := by
  constructor
  · rintro rfl
    exact Nat.eq_of_mul_eq_mul_right F.one_pos (hx.units.symm.trans hy.units)
  · rintro rfl
    have hword := F.units_strictMono.injective (hx.units.trans hy.units.symm)
    cases x
    cases y
    exact congrArg₂ BinaryNumber.mk (hx.sign.trans hy.sign.symm) hword

theorem Represents.hasValue (h : F.Represents x negative r) :
    F.HasValue x (if negative then -(r : Int) else r) := by
  refine ⟨decide_eq_true h.finite, ?_⟩
  unfold signedUnits
  rw [h.sign, h.units]
  cases negative
  · simp
  · simp

/-- A number is one integer at most. -/
theorem HasValue.unique (h : F.HasValue x k) (h' : F.HasValue x c) : k = c := by
  have hone : (F.one : Int) ≠ 0 := Int.natCast_ne_zero.mpr F.one_pos.ne'
  exact mul_right_cancel₀ hone (h.2.symm.trans h'.2)

/-! ## Rounding whole numbers -/

section Rounding

variable (hfraction : 0 < F.fractionBits)

include hfraction

/-- A fraction in other terms is rounded the same. -/
theorem round_mul_right (hden : 0 < den) (hn : 0 < n) :
    F.round (num * n) (den * n) = F.round num den := by
  refine eq_of_forall_lt_iff fun w => ?_
  rcases Nat.lt_or_ge w F.infinity with hw | hw
  · have hdouble : 2 * (num * n) = 2 * num * n := (Nat.mul_assoc ..).symm
    rw [lt_round_iff hfraction hden hw, lt_round_iff hfraction (Nat.mul_pos hden hn) hw, hdouble,
      ← Nat.mul_assoc, Nat.mul_lt_mul_right hn, Nat.mul_left_inj hn.ne']
  · have hbound (num den : Nat) : ¬ w < F.round num den :=
      Nat.not_lt.mpr ((round_le_infinity num den).trans hw)
    exact iff_of_false (hbound _ _) (hbound _ _)

/-- What is not above a finite word is finite. -/
theorem round_lt_infinity (hw : w < F.infinity) (h : num ≤ F.units w) :
    F.round num 1 < F.infinity := by
  refine Nat.lt_of_le_of_lt (round_le_of_le_units hfraction Nat.one_pos ?_) hw
  rwa [Nat.mul_one]

/-- A whole number, rounded, with a sign. -/
theorem represents_ofFraction (negative : Bool) (hfinite : F.round (n * F.one) 1 < F.infinity) :
    ∃ r, RoundsTo (F.fractionBits + 1) n r ∧
      F.Represents (F.ofFraction negative (n * F.one) 1) negative r := by
  obtain ⟨r, hr, hunits⟩ := roundsTo_round hfraction hfinite
  exact ⟨r, hr, rfl, hfinite, hunits⟩

/-- **A whole number of one format in another** is rounded to the digits of the other. -/
theorem Represents.convert (hx : G.Represents x negative n)
    (hfinite : F.round (n * F.one) 1 < F.infinity) :
    ∃ r, RoundsTo (F.fractionBits + 1) n r ∧ F.Represents (G.convert F x) negative r := by
  have hnan : G.isNaN x = false := decide_eq_false hx.finite.not_gt
  have hinf : G.isInfinite x = false := decide_eq_false hx.finite.ne
  have hround : F.round (n * G.one * F.one) G.one = F.round (n * F.one) 1 := by
    rw [Nat.mul_right_comm, ← F.round_mul_right hfraction Nat.one_pos G.one_pos, Nat.one_mul]
  have hconvert : G.convert F x = F.ofFraction negative (n * F.one) 1 := by
    unfold BinaryFormat.convert ofFraction
    rw [hnan, hinf, if_neg Bool.false_ne_true, if_neg Bool.false_ne_true, hx.units, hround, hx.sign]
  rw [hconvert]
  exact represents_ofFraction hfraction negative hfinite

end Rounding

end BinaryFormat

open BinaryFormat

variable {x : Double} {negative : Bool} {n : Nat} {k : Int} {c : UInt32}

/-! ## Numbers of 64 bits -/

theorem Single.round_lt_infinity_of_le (hn : n ≤ 2 ^ 64) :
    single.round (n * single.one) 1 < single.infinity := by
  refine BinaryFormat.round_lt_infinity (w := 0x5f800000) (by decide) (by decide) ?_
  exact (Nat.mul_le_mul_right _ hn).trans (by decide +kernel)

theorem Double.round_lt_infinity_of_le (hn : n ≤ 2 ^ 64) :
    double.round (n * double.one) 1 < double.infinity := by
  refine BinaryFormat.round_lt_infinity (w := 0x43f0000000000000) (by decide) (by decide) ?_
  exact (Nat.mul_le_mul_right _ hn).trans (by decide +kernel)

/-- **An integer as a single** is rounded to 24 digits. -/
theorem Single.represents_ofInt (hk : k.natAbs ≤ 2 ^ 64) :
    ∃ a, RoundsTo 24 k.natAbs a ∧ single.Represents (ofInt k).number (k < 0) a := by
  have hfinite := Single.round_lt_infinity_of_le hk
  have hnumber : (ofInt k).number = single.ofFraction (k < 0) (k.natAbs * single.one) 1 :=
    number_ofNumber (hfinite.trans (by decide))
  rw [hnumber]
  exact represents_ofFraction (by decide) _ hfinite

/-- An integer as a double, before it is rounded. -/
theorem Double.number_ofInt (k : Int) :
    (ofInt k).number = double.ofFraction (k < 0) (k.natAbs * double.one) 1 :=
  number_ofNumber_of_ordered (ordered_ofFraction _ _ _)

/-- **An integer as a double** is rounded to 53 digits. -/
theorem Double.represents_ofInt (hfinite : double.round (k.natAbs * double.one) 1 < double.infinity) :
    ∃ r, RoundsTo 53 k.natAbs r ∧ double.Represents (ofInt k).number (k < 0) r := by
  rw [number_ofInt]
  exact represents_ofFraction (by decide) _ hfinite

/-- **A whole double as a single** is rounded to 24 digits. -/
theorem Double.represents_toSingle (hx : double.Represents x.number negative n) (hn : n ≤ 2 ^ 64) :
    ∃ b, RoundsTo 24 n b ∧ single.Represents x.toSingle.number negative b := by
  obtain ⟨b, hb, hrepresents⟩ := hx.convert (by decide) (Single.round_lt_infinity_of_le hn)
  have hnumber : x.toSingle.number = double.convert single x.number :=
    Single.number_ofNumber (hrepresents.finite.trans (by decide))
  exact ⟨b, hb, hnumber ▸ hrepresents⟩

/-! ## Counts -/

/-- Units that count a natural number are its, and without a sign unless they are none. -/
theorem signed_eq_iff {units one : Nat} (hone : 0 < one) {negative : Bool} {m : Nat} :
    (if negative then -(units : Int) else units) = (m : Int) * one ↔
      units = m * one ∧ (negative = false ∨ m = 0) := by
  rw [← Int.natCast_mul]
  cases negative with
  | false => simp only [Bool.false_eq_true, if_false, Int.natCast_inj, true_or, and_true]
  | true =>
    simp only [if_true, Bool.true_eq_false, false_or]
    constructor
    · intro h
      have hzero : m * one = 0 := by omega
      exact ⟨by omega, (Nat.mul_eq_zero.mp hzero).resolve_right hone.ne'⟩
    · rintro ⟨rfl, rfl⟩
      simp

/-- **A double is read as a count iff it is the count.** Negative zero is zero. -/
theorem Double.toCount?_eq_some_iff : x.toCount? = some c ↔ double.HasValue x.number c.toNat := by
  have hone := double.one_pos
  have hc : c.toNat < UInt32.size := c.toNat_lt
  unfold toCount? HasValue signedUnits
  dsimp only
  rw [signed_eq_iff hone]
  generalize double.one = one at hone ⊢
  generalize double.units x.number.magnitude = units
  constructor
  · intro h
    split at h
    · rename_i hwhole
      obtain ⟨hfinite, hrest, hlt, hsign⟩ := hwhole
      have hcount : c.toNat = units / one := by
        rw [← Option.some.inj h]
        exact UInt32.toNat_ofNat_of_lt' hlt
      rw [hcount]
      exact ⟨hfinite, (Nat.div_mul_cancel (Nat.dvd_of_mod_eq_zero hrest)).symm, hsign⟩
    · cases h
  · rintro ⟨hfinite, rfl, hsign⟩
    rw [Nat.mul_div_cancel _ hone, Nat.mul_mod_left, if_pos ⟨hfinite, rfl, hc, hsign⟩,
      UInt32.ofNat_toNat]

/-- **An integer is read as a count iff it is the count**, though it is rounded to a double before:
integers that are rounded at all are too large for a count. -/
theorem Double.toCount?_ofInt : (ofInt k).toCount? = some c ↔ k = c.toNat := by
  have hc : c.toNat < 2 ^ 32 := c.toNat_lt
  have hbits (m : Nat) (hm : m ≤ 2 ^ 53) : HasBits 53 m := hasBits_of_le (by decide) hm
  rw [toCount?_eq_some_iff]
  by_cases hfinite : double.round (k.natAbs * double.one) 1 < double.infinity
  · obtain ⟨r, hr, hrepresents⟩ := represents_ofInt hfinite
    have hvalue := hrepresents.hasValue
    constructor
    · intro h
      have heq := hvalue.unique h
      -- a count has few digits, so the integer it was rounded from has no more
      have hsmall : k.natAbs ≤ 2 ^ 53 := by
        by_contra hlarge
        have hle := hr.hasBits_le (hbits _ (Nat.le_refl _)) (by omega)
        split at heq <;> omega
      rw [hr.eq_of_hasBits (hbits _ hsmall)] at heq
      simp only [decide_eq_true_eq] at heq
      split at heq <;> omega
    · rintro rfl
      rw [Int.natAbs_natCast] at hr
      rw [hr.eq_of_hasBits (hbits _ (by omega))] at hvalue
      have hsign : decide ((c.toNat : Int) < 0) = false := decide_eq_false (by omega)
      rw [hsign] at hvalue
      exact hvalue
  · refine iff_of_false (fun h => hfinite ?_) fun h => hfinite ?_
    · have hword := h.1
      rw [number_ofInt] at hword
      exact of_decide_eq_true hword
    · rw [h, Int.natAbs_natCast]
      exact round_lt_infinity_of_le (by omega)

end ScenePack
