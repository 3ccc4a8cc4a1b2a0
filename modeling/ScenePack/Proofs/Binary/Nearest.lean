import Mathlib.Data.Nat.Dist
import ScenePack.Proofs.Binary.Rounding

/-!
# Whole numbers in a format

A format keeps as many binary digits of a whole number as its significand has, and rounds what goes
beyond them away. `RoundsTo` says that without formats and words: of the numbers with so many
digits the nearest, and of two as near the one that does without the last digit.

* `HasBits`: a number of so many binary digits, and zeros behind them.
* `RoundsTo`: rounding to so many digits, ties to even.

Results:
* **`RoundsTo.unique`**, `RoundsTo.mono`: there is one number to round to, and rounding keeps the
  order.
* **`BinaryFormat.dist_round_le`**: no word is nearer to a fraction than the rounded one, and the
  rounded one is even if another is as near.
* **`BinaryFormat.roundsTo_round`**: a whole number in a format is the number rounded to the digits
  of a significand.
-/

namespace ScenePack

/-! ## Significant digits -/

/-- A number of at most so many binary digits, and any number of zeros behind them. -/
def HasBits (digits n : Nat) : Prop := ∃ m s, m < 2 ^ digits ∧ n = m * 2 ^ s

/-- `r` is `n` rounded to so many significant binary digits. -/
structure RoundsTo (digits n r : Nat) : Prop where
  bits : HasBits digits r
  /-- No other such number is nearer. -/
  nearest : ∀ m, HasBits digits m → Nat.dist n r ≤ Nat.dist n m
  /-- If another is as near, the last digit is zero. -/
  even : ∀ m, HasBits digits m → m ≠ r → Nat.dist n m = Nat.dist n r → HasBits (digits - 1) r

variable {digits n n' r r' : Nat}

theorem hasBits_of_lt (h : n < 2 ^ digits) : HasBits digits n := ⟨n, 0, h, (Nat.mul_one n).symm⟩

theorem hasBits_of_le (hdigits : digits ≠ 0) (h : n ≤ 2 ^ digits) : HasBits digits n := by
  rcases Nat.lt_or_eq_of_le h with hlt | rfl
  · exact hasBits_of_lt hlt
  · exact ⟨1, digits, Nat.one_lt_two_pow hdigits, (Nat.one_mul _).symm⟩

theorem hasBits_two_mul_iff : HasBits digits (2 * n) ↔ HasBits digits n := by
  constructor
  · rintro ⟨m, s, hm, h⟩
    cases s with
    | zero =>
      rw [Nat.pow_zero, Nat.mul_one] at h
      exact hasBits_of_lt (by omega)
    | succ s =>
      refine ⟨m, s, hm, Nat.eq_of_mul_eq_mul_left Nat.two_pos (h.trans ?_)⟩
      ring
  · rintro ⟨m, s, hm, rfl⟩
    exact ⟨m, s + 1, hm, by ring⟩

/-- An odd number has no zeros behind its digits. -/
theorem HasBits.lt_of_odd (h : HasBits digits n) (hodd : n % 2 = 1) : n < 2 ^ digits := by
  obtain ⟨m, s, hm, rfl⟩ := h
  cases s with
  | zero => rwa [Nat.pow_zero, Nat.mul_one]
  | succ s =>
    have heven : m * 2 ^ (s + 1) = 2 * (m * 2 ^ s) := by ring
    omega

/-- Between the doubles of two numbers that follow each other there is a number of one digit more. -/
theorem hasBits_between (hn : HasBits digits n) (hnext : HasBits digits (n + 1)) :
    HasBits (digits + 1) (2 * n + 1) := by
  have hpow : 2 ^ (digits + 1) = 2 * 2 ^ digits := Nat.pow_succ'
  refine hasBits_of_lt ?_
  rcases Nat.mod_two_eq_zero_or_one n with heven | hodd
  · have hlt := hnext.lt_of_odd (by omega)
    omega
  · have hlt := hn.lt_of_odd hodd
    omega

/-- Between two numbers of so many digits, unless they follow each other, there is a number of one
digit more. -/
theorem exists_between {a b : Nat} (ha : HasBits digits a) (hb : HasBits digits b) (h : a + 1 < b) :
    ∃ m, a < m ∧ m < b ∧ HasBits (digits + 1) m := by
  have hpow : 2 ^ (digits + 1) = 2 * 2 ^ digits := Nat.pow_succ'
  -- Even numbers are halved, until one of the two is odd or they follow each other.
  induction b using Nat.strong_induction_on generalizing a with
  | _ b ih =>
    rcases Nat.mod_two_eq_zero_or_one a with ha2 | ha2
    · rcases Nat.mod_two_eq_zero_or_one b with hb2 | hb2
      · obtain ⟨x, rfl⟩ := Nat.dvd_of_mod_eq_zero ha2
        obtain ⟨y, rfl⟩ := Nat.dvd_of_mod_eq_zero hb2
        rw [hasBits_two_mul_iff] at ha hb
        by_cases hnext : y = x + 1
        · subst hnext
          exact ⟨2 * x + 1, by omega, by omega, hasBits_between ha hb⟩
        · obtain ⟨m, hxm, hmy, hm⟩ := ih y (by omega) ha hb (by omega)
          exact ⟨2 * m, by omega, by omega, hasBits_two_mul_iff.mpr hm⟩
      · have hodd := hb.lt_of_odd hb2
        exact ⟨b - 1, by omega, by omega, hasBits_of_lt (by omega)⟩
    · have hodd := ha.lt_of_odd ha2
      exact ⟨a + 1, by omega, by omega, hasBits_of_lt (by omega)⟩

namespace RoundsTo

/-- A number that has no more digits is not rounded. -/
theorem of_hasBits (h : HasBits digits n) : RoundsTo digits n n where
  bits := h
  nearest m _ := by
    rw [Nat.dist_self]
    exact Nat.zero_le _
  even m _ hne hdist := by
    rw [Nat.dist_self] at hdist
    exact absurd (Nat.eq_of_dist_eq_zero hdist).symm hne

theorem not_lt (h : RoundsTo digits n r) (h' : RoundsTo digits n r') : ¬ r < r' := by
  intro hlt
  have hdist : Nat.dist n r = Nat.dist n r' :=
    Nat.le_antisymm (h.nearest r' h'.bits) (h'.nearest r h.bits)
  have hr := h.even r' h'.bits hlt.ne' hdist.symm
  have hr' := h'.even r h.bits hlt.ne hdist
  unfold Nat.dist at hdist
  cases digits with
  | zero =>
    obtain ⟨m, s, hm, rfl⟩ := hr'
    rw [Nat.pow_zero, Nat.lt_one_iff] at hm
    rw [hm, Nat.zero_mul] at hlt
    exact Nat.not_lt_zero r hlt
  | succ digits =>
    -- With a digit more there is a number between the two, which is nearer than both.
    obtain ⟨m, hrm, hmr, hm⟩ := exists_between hr hr' (by omega)
    have hnear := h.nearest m hm
    unfold Nat.dist at hnear
    omega

/-- **There is one number to round to.** -/
theorem unique (h : RoundsTo digits n r) (h' : RoundsTo digits n r') : r = r' :=
  Nat.le_antisymm (Nat.le_of_not_lt (h'.not_lt h)) (Nat.le_of_not_lt (h.not_lt h'))

/-- **Rounding keeps the order.** -/
theorem mono (h : RoundsTo digits n r) (h' : RoundsTo digits n' r') (hle : n ≤ n') : r ≤ r' := by
  rcases hle.lt_or_eq with hlt | rfl
  · have hr := h.nearest r' h'.bits
    have hr' := h'.nearest r h.bits
    unfold Nat.dist at hr hr'
    omega
  · exact (h.unique h').le

end RoundsTo

namespace BinaryFormat

variable {F : BinaryFormat} {w v m num den : Nat}

/-! ## Nearest words -/

section Nearest

variable (hfraction : 0 < F.fractionBits) (hden : 0 < den) (hfinite : F.round num den < F.infinity)

include hfraction hden hfinite

/-- A fraction does not lie above the middle between the rounded word and the next, and in the
middle only if the rounded word is even. -/
theorem two_mul_le_middle : 2 * num ≤ F.middle (F.round num den) * den ∧
    (2 * num = F.middle (F.round num den) * den → F.round num den % 2 = 0) := by
  have hround : ¬ F.round num den < F.round num den := Nat.lt_irrefl _
  rw [lt_round_iff hfraction hden hfinite] at hround
  omega

/-- It does not lie below the middle between the rounded word and the one before, and in the middle
only if the one before is odd. -/
theorem middle_le_two_mul (hw : F.round num den = w + 1) : F.middle w * den ≤ 2 * num ∧
    (F.middle w * den = 2 * num → w % 2 = 1) := by
  have hround : w < F.round num den := by omega
  rw [lt_round_iff hfraction hden (by omega)] at hround
  omega

/-- **No word is nearer to a fraction than the rounded one**, and the rounded one is even if another
is as near. -/
theorem dist_round_le (v : Nat) :
    Nat.dist num (F.units (F.round num den) * den) ≤ Nat.dist num (F.units v * den) ∧
      (v ≠ F.round num den →
        Nat.dist num (F.units v * den) = Nat.dist num (F.units (F.round num den) * den) →
        F.round num den % 2 = 0) := by
  rcases Nat.lt_trichotomy v (F.round num den) with hv | rfl | hv
  · obtain ⟨w, hw⟩ : ∃ w, F.round num den = w + 1 := ⟨F.round num den - 1, by omega⟩
    have habove := (two_mul_le_middle hfraction hden hfinite).1
    obtain ⟨hbelow, heven⟩ := middle_le_two_mul hfraction hden hfinite hw
    have hvw : F.units v * den ≤ F.units w * den :=
      Nat.mul_le_mul_right den (units_mono (by omega))
    have hlt : F.units w * den < F.units (w + 1) * den :=
      Nat.mul_lt_mul_of_pos_right (F.units_strictMono (Nat.lt_succ_self w)) hden
    rw [middle, Nat.add_mul] at hbelow heven
    rw [hw]
    unfold Nat.dist
    omega
  · exact ⟨Nat.le_refl _, fun h => absurd rfl h⟩
  · obtain ⟨habove, heven⟩ := two_mul_le_middle hfraction hden hfinite
    have hvw : F.units (F.round num den + 1) * den ≤ F.units v * den :=
      Nat.mul_le_mul_right den (units_mono hv)
    have hlt : F.units (F.round num den) * den < F.units (F.round num den + 1) * den :=
      Nat.mul_lt_mul_of_pos_right (F.units_strictMono (Nat.lt_succ_self _)) hden
    rw [middle, Nat.add_mul] at habove heven
    unfold Nat.dist
    omega

end Nearest

/-! ## Whole numbers -/

theorem exists_units (hm : m < 2 * F.hiddenBit) : ∀ s, ∃ v, F.units v = m * 2 ^ s
  | 0 => ⟨0 * F.hiddenBit + m, units_significand (.inl rfl) hm.le⟩
  | s + 1 => by
    obtain ⟨w, hw⟩ := exists_units hm s
    obtain ⟨v, hv⟩ := F.exists_double w
    exact ⟨v, by rw [hv, hw]; ring⟩

/-- A number of no more digits than a significand has a word, if infinity is no limit. -/
theorem exists_units_of_hasBits (h : HasBits (F.fractionBits + 1) n) :
    ∃ v, F.units v = n * F.one := by
  obtain ⟨m, s, hm, rfl⟩ := h
  have hdigits : 2 ^ (F.fractionBits + 1) = 2 * F.hiddenBit := Nat.pow_succ'
  rw [hdigits] at hm
  obtain ⟨v, hv⟩ := exists_units hm (s + F.unitExponent)
  exact ⟨v, by rw [hv, one, Nat.pow_eq]; ring⟩

theorem lt_infinity_of_round (hfraction : 0 < F.fractionBits)
    (hfinite : F.round num 1 < F.infinity) (h : F.units v ≤ num) : v < F.infinity := by
  by_contra hle
  have hunits : F.units F.infinity * 1 ≤ num := by
    rw [Nat.mul_one]
    exact (units_mono (Nat.le_of_not_lt hle)).trans h
  have hround := le_round_of_units_le hfraction Nat.one_pos (Nat.le_refl F.infinity) hunits
  omega

/-- A word from twice the hidden bit on is an even whole number, and its significand is even if the
word is. -/
theorem exists_significand (hfraction : 0 < F.fractionBits)
    (h : 2 * F.hiddenBit * F.one ≤ F.units w) :
    ∃ m s, m < 2 * F.hiddenBit ∧ m % 2 = w % 2 ∧ F.units w = m * 2 ^ (s + 1) * F.one := by
  have hH := F.hiddenBit_pos
  have hw : F.hiddenBit ≤ w := by
    by_contra hlt
    rw [units_of_lt (Nat.lt_of_not_le hlt)] at h
    have hle : 2 * F.hiddenBit ≤ 2 * F.hiddenBit * F.one := Nat.le_mul_of_pos_right _ F.one_pos
    omega
  obtain ⟨e, t, ht, rfl⟩ := exists_row hw
  rw [units_row ht] at h ⊢
  have he : F.unitExponent < e := by
    have hlt : 2 * F.hiddenBit * F.one < 2 * F.hiddenBit * 2 ^ e :=
      h.trans_lt (Nat.mul_lt_mul_of_pos_right (by omega) (Nat.two_pow_pos e))
    exact (Nat.pow_lt_pow_iff_right Nat.one_lt_two).mp (Nat.lt_of_mul_lt_mul_left hlt)
  obtain ⟨s, rfl⟩ := Nat.exists_eq_add_of_lt he
  refine ⟨F.hiddenBit + t, s, by omega, ?_, ?_⟩
  · have heven : F.hiddenBit % 2 = 0 := Nat.two_pow_mod_two_eq_zero.mpr hfraction
    have hrow : (F.unitExponent + s + 1 + 1) * F.hiddenBit % 2 = 0 := by
      rw [Nat.mul_mod, heven, Nat.mul_zero, Nat.zero_mod]
    omega
  · rw [one, Nat.pow_eq]
    ring

/-- **A whole number in a format** is the number rounded to the digits of a significand. -/
theorem roundsTo_round (hfraction : 0 < F.fractionBits)
    (hfinite : F.round (n * F.one) 1 < F.infinity) :
    ∃ r, RoundsTo (F.fractionBits + 1) n r ∧ F.units (F.round (n * F.one) 1) = r * F.one := by
  have hone := F.one_pos
  have hdigits : 2 ^ (F.fractionBits + 1) = 2 * F.hiddenBit := Nat.pow_succ'
  rcases Nat.lt_or_ge n (2 ^ (F.fractionBits + 1)) with hn | hn
  · -- the number is a word, and words round to themselves
    obtain ⟨v, hv⟩ := exists_units_of_hasBits (hasBits_of_lt hn)
    have hlt := lt_infinity_of_round hfraction hfinite hv.le
    have hround := round_units hfraction Nat.one_pos hlt.le
    rw [hv, Nat.mul_one] at hround
    exact ⟨n, .of_hasBits (hasBits_of_lt hn), by rw [hround, hv]⟩
  · -- the rounded word is so large that it is a whole number
    have hpower : HasBits (F.fractionBits + 1) (1 * 2 ^ (F.fractionBits + 1)) :=
      ⟨1, _, Nat.one_lt_two_pow (Nat.succ_ne_zero _), rfl⟩
    obtain ⟨v, hv⟩ := exists_units_of_hasBits hpower
    rw [Nat.one_mul, hdigits] at hv
    have hvn : F.units v ≤ n * F.one := by
      rw [hv]
      exact Nat.mul_le_mul_right _ (by omega)
    have hlarge : 2 * F.hiddenBit * F.one ≤ F.units (F.round (n * F.one) 1) := by
      rw [← hv]
      refine units_mono (le_round_of_units_le hfraction Nat.one_pos ?_ (by omega))
      exact (lt_infinity_of_round hfraction hfinite hvn).le
    obtain ⟨m, s, hm, hparity, hunits⟩ := exists_significand hfraction hlarge
    have hnear (x : Nat) (hx : HasBits (F.fractionBits + 1) x) :
        Nat.dist n (m * 2 ^ (s + 1)) ≤ Nat.dist n x ∧
          (x ≠ m * 2 ^ (s + 1) → Nat.dist n x = Nat.dist n (m * 2 ^ (s + 1)) → m % 2 = 0) := by
      obtain ⟨u, hu⟩ := exists_units_of_hasBits hx
      have h := dist_round_le hfraction Nat.one_pos hfinite u
      rw [Nat.mul_one, Nat.mul_one, hu, hunits, Nat.dist_mul_right, Nat.dist_mul_right,
        ← hparity] at h
      refine ⟨Nat.le_of_mul_le_mul_right h.1 hone, fun hne hdist => h.2 ?_ (by rw [hdist])⟩
      rintro rfl
      exact hne (Nat.eq_of_mul_eq_mul_right hone (hu.symm.trans hunits))
    refine ⟨m * 2 ^ (s + 1), ⟨⟨m, s + 1, by omega, rfl⟩, fun x hx => (hnear x hx).1, ?_⟩, hunits⟩
    intro x hx hne hdist
    obtain ⟨k, rfl⟩ := Nat.dvd_of_mod_eq_zero ((hnear x hx).2 hne hdist)
    refine ⟨k, s + 2, ?_, by ring⟩
    rw [Nat.add_sub_cancel]
    omega

end BinaryFormat

end ScenePack
