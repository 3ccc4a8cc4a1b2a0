import ScenePack.Proofs.Binary.Nearest

/-!
# Rounding twice

A number that is rounded to many digits, and then to few, need not come out as if it had been
rounded to the few at once: the first rounding may land in the middle between two numbers of few
digits, and what lay on one side of the middle before lies on no side then.

Results:
* `exists_middle`: between two neighbours of so many digits stands their middle, with one digit
  more.
* **`RoundsTo.ne_iff`**: that is the only way for rounding twice to differ from rounding once; the
  two answers are then neighbours.
* `RoundsTo.eq_of_hasBits`: what the first rounding keeps is rounded once.
-/

namespace ScenePack

variable {digits wide n r a b : Nat}

theorem HasBits.mono (h : HasBits digits n) (hle : digits ≤ wide) : HasBits wide n := by
  obtain ⟨m, s, hm, rfl⟩ := h
  exact ⟨m, s, Nat.lt_of_lt_of_le hm (Nat.pow_le_pow_right Nat.two_pos hle), rfl⟩

/-- Behind an odd number of so many digits comes one as well. -/
theorem HasBits.succ_of_odd (h : HasBits digits n) (hodd : n % 2 = 1) : HasBits digits (n + 1) := by
  have hlt := h.lt_of_odd hodd
  have hdigits : digits ≠ 0 := by
    rintro rfl
    rw [Nat.pow_zero] at hlt
    omega
  exact hasBits_of_le hdigits hlt

/-- **Between two neighbours of so many digits stands their middle**, with one digit more, unless
they follow each other. -/
theorem exists_middle (ha : HasBits digits a) (hb : HasBits digits b) (h : a + 1 < b)
    (hnext : ∀ m, HasBits digits m → a < m → b ≤ m) :
    ∃ m, a + b = 2 * m ∧ HasBits (digits + 1) m := by
  -- An odd number is followed by one of so many digits, and follows one; so both are even, and are
  -- halved until they follow each other.
  induction b using Nat.strong_induction_on generalizing a with
  | _ b ih =>
    have ha2 : a % 2 = 0 := by
      by_contra hodd
      have hle := hnext (a + 1) (ha.succ_of_odd (by omega)) (by omega)
      omega
    have hb2 : b % 2 = 0 := by
      by_contra hodd
      have hlt := hb.lt_of_odd (by omega)
      have hle := hnext (b - 1) (hasBits_of_lt (by omega)) (by omega)
      omega
    obtain ⟨x, rfl⟩ := Nat.dvd_of_mod_eq_zero ha2
    obtain ⟨y, rfl⟩ := Nat.dvd_of_mod_eq_zero hb2
    rw [hasBits_two_mul_iff] at ha hb
    by_cases hxy : y = x + 1
    · subst hxy
      exact ⟨2 * x + 1, by omega, hasBits_between ha hb⟩
    · obtain ⟨m, hm, hbits⟩ := ih y (by omega) ha hb (by omega) fun m hm hlt => by
        have hle := hnext (2 * m) (hasBits_two_mul_iff.mpr hm) (by omega)
        omega
      exact ⟨2 * m, by omega, hasBits_two_mul_iff.mpr hbits⟩

namespace RoundsTo

/-- Rounding does not cross a number that it keeps. -/
theorem le_of_hasBits (h : RoundsTo digits n r) (ha : HasBits digits a) (hle : n ≤ a) : r ≤ a :=
  h.mono (.of_hasBits ha) hle

theorem hasBits_le (h : RoundsTo digits n r) (ha : HasBits digits a) (hle : a ≤ n) : a ≤ r :=
  (RoundsTo.of_hasBits ha).mono h hle

/-- A number that has no more digits is what it is rounded to. -/
theorem eq_of_hasBits (h : RoundsTo digits n r) (hn : HasBits digits n) : r = n :=
  h.unique (.of_hasBits hn)

/-- A number does not lie beyond the middle between what it is rounded to and anything above. -/
theorem two_mul_le_add (h : RoundsTo digits n r) (ha : HasBits digits a) (hlt : r < a) :
    2 * n ≤ r + a := by
  have hnear := h.nearest a ha
  unfold Nat.dist at hnear
  omega

/-- Nor beyond the middle between it and anything below. -/
theorem add_le_two_mul (h : RoundsTo digits n r) (ha : HasBits digits a) (hlt : a < r) :
    a + r ≤ 2 * n := by
  have hnear := h.nearest a ha
  unfold Nat.dist at hnear
  omega

section Twice

variable (hwide : digits < wide) (hr : RoundsTo wide n r) (ha : RoundsTo digits n a)
  (hb : RoundsTo digits r b)

include hwide hr ha hb

/-- Two answers that differ are neighbours, and the first rounding lands in their middle. -/
theorem two_mul_eq (hne : a ≠ b) : 2 * r = a + b := by
  rcases Nat.lt_or_gt_of_ne hne with hlt | hlt
  · -- the first rounding went up, from below the middle of `a` and `b` or from it
    have hlow : 2 * n ≤ a + b := ha.two_mul_le_add hb.bits hlt
    have hhigh : a + b ≤ 2 * r := hb.add_le_two_mul ha.bits hlt
    have hnext (m : Nat) (hm : HasBits digits m) (ham : a < m) : b ≤ m := by
      by_contra hmb
      have hnm := ha.two_mul_le_add hm ham
      have hmr := hb.add_le_two_mul hm (by omega)
      have hle := hr.le_of_hasBits (hm.mono hwide.le) (by omega)
      omega
    by_cases hgap : a + 1 < b
    · obtain ⟨m, hm, hbits⟩ := exists_middle ha.bits hb.bits hgap hnext
      have hle := hr.le_of_hasBits (hbits.mono hwide) (by omega)
      omega
    · have hle := hr.le_of_hasBits (ha.bits.mono hwide.le) (by omega)
      omega
  · -- it went down, from above the middle of `b` and `a` or from it
    have hhigh : b + a ≤ 2 * n := ha.add_le_two_mul hb.bits hlt
    have hlow : 2 * r ≤ b + a := hb.two_mul_le_add ha.bits hlt
    have hnext (m : Nat) (hm : HasBits digits m) (hbm : b < m) : a ≤ m := by
      by_contra hma
      have hmn := ha.add_le_two_mul hm (by omega)
      have hrm := hb.two_mul_le_add hm hbm
      have hle := hr.hasBits_le (hm.mono hwide.le) (by omega)
      omega
    by_cases hgap : b + 1 < a
    · obtain ⟨m, hm, hbits⟩ := exists_middle hb.bits ha.bits hgap hnext
      have hle := hr.hasBits_le (hbits.mono hwide) (by omega)
      omega
    · have hle := hr.hasBits_le (ha.bits.mono hwide.le) (by omega)
      omega

/-- **Rounding twice differs from rounding once** exactly if the first rounding lands in the middle
of the two answers and the number itself is nearer to the one. -/
theorem ne_iff : a ≠ b ↔ 2 * r = a + b ∧ Nat.dist n a < Nat.dist n b := by
  constructor
  · intro hne
    have hmiddle := two_mul_eq hwide hr ha hb hne
    refine ⟨hmiddle, Nat.lt_of_le_of_ne (ha.nearest b hb.bits) fun hdist => ?_⟩
    -- as near to both, the number is their middle itself, and was not rounded before
    have hnr : n = r := by
      unfold Nat.dist at hdist
      omega
    exact hne (ha.unique (hnr ▸ hb))
  · rintro ⟨-, hdist⟩ rfl
    exact Nat.lt_irrefl _ hdist

end Twice

end RoundsTo

end ScenePack
