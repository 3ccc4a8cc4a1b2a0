import Mathlib.Algebra.Order.Field.Power
import Mathlib.Data.List.DropRight
import ScenePack.Proofs.Decimal.Plain

/-!
# One positional text for a decimal

A decimal has many texts of digits around a point, but only one without needless zeros at either
end. It is the text that positional notation writes.

* `Trimmed`: no needless zeros stand behind a fraction.
* `trimZeros`: a fraction without them.

Results:
* `PlainText.trim`: a fraction means the same without its needless zeros.
* **`PlainText.unique`**: of the texts without needless zeros, only one writes a decimal.
* **`positionalText_eq`**: positional notation writes that one.
* `decimalText_of_le`, `decimalText_of_lt`: which decimals a style writes positionally.
-/

namespace ScenePack

open Text

variable {whole fraction whole' fraction' ds : List Char} {c k : Nat} {e : Int}

/-! ## Needless zeros -/

/-- No needless zeros stand behind a fraction: only a zero of its own ends with one. -/
def Trimmed (fraction : List Char) : Prop := fraction.getLast? = some '0' → fraction = ['0']

/-- A fraction without the zeros behind it; one zero stays where nothing else would. -/
def trimZeros (fraction : List Char) : List Char :=
  match fraction.rdropWhile (· = '0') with
  | [] => ['0']
  | ds => ds

@[simp] theorem trimZeros_nil : trimZeros [] = ['0'] := rfl

@[simp] theorem trimZeros_concat_zero (ds : List Char) : trimZeros (ds ++ ['0']) = trimZeros ds := by
  simp [trimZeros]

theorem trimZeros_concat_of_ne {d : Char} (h : d ≠ '0') (ds : List Char) :
    trimZeros (ds ++ [d]) = ds ++ [d] := by
  simp [trimZeros, h]

theorem trimmed_trimZeros (ds : List Char) : Trimmed (trimZeros ds) := by
  induction ds using List.reverseRecOn with
  | nil => exact fun _ => rfl
  | append_singleton ds d ih =>
    by_cases hd : d = '0'
    · rw [hd, trimZeros_concat_zero]
      exact ih
    · rw [trimZeros_concat_of_ne hd, Trimmed, List.getLast?_concat, Option.some_inj]
      exact fun h => absurd h hd

theorem digits_trimZeros (hds : ∀ d ∈ ds, d.isDigit) : Digits (trimZeros ds) := by
  induction ds using List.reverseRecOn with
  | nil => exact ⟨nofun, by simp⟩
  | append_singleton ds d ih =>
    by_cases hd : d = '0'
    · rw [hd, trimZeros_concat_zero]
      exact ih fun d' hd' => hds d' (List.mem_append_left _ hd')
    · rw [trimZeros_concat_of_ne hd]
      exact ⟨by simp, hds⟩

/-- Digits behind the point mean the same without the zeros behind them. -/
theorem value_trimZeros (hwhole : ∀ d ∈ whole, d.isDigit) (hds : ∀ d ∈ ds, d.isDigit) :
    (ofDigits (whole ++ trimZeros ds) : ℚ) * 10 ^ (-((trimZeros ds).length : Int)) =
      ofDigits (whole ++ ds) * 10 ^ (-(ds.length : Int)) := by
  have hzero (ds : List Char) (hds : ∀ d ∈ ds, d.isDigit) :
      (ofDigits (ds ++ ['0']) : ℚ) = ofDigits ds * 10 := by
    rw [ofDigits_append hds (by simp), show ofDigits ['0'] = 0 from rfl]
    simp
  induction ds using List.reverseRecOn with
  | nil => simp [hzero whole hwhole]
  | append_singleton ds d ih =>
    by_cases hd : d = '0'
    · have hfront : ∀ d ∈ ds, d.isDigit := fun d hd => hds d (List.mem_append_left _ hd)
      rw [hd, trimZeros_concat_zero, ih hfront, ← List.append_assoc,
        hzero _ (List.forall_mem_append.mpr ⟨hwhole, hfront⟩), List.length_append,
        List.length_singleton, Nat.cast_add, Nat.cast_one, neg_add, zpow_add₀ (by norm_num)]
      norm_num
      ring
    · rw [trimZeros_concat_of_ne hd]

/-- **A fraction means the same without its needless zeros.** -/
theorem PlainText.trim (h : PlainText whole fraction c e) : PlainText whole (trimZeros fraction) c e where
  wholeDigits := h.wholeDigits
  fractionDigits := digits_trimZeros h.fractionDigits.2
  head := h.head
  value := (value_trimZeros h.wholeDigits.2 h.fractionDigits.2).trans h.value

/-! ## Texts without needless zeros -/

/-- The digits before and behind the point, by division. -/
theorem ofDigits_append_div_mod (hwhole : ∀ d ∈ whole, d.isDigit)
    (hfraction : ∀ d ∈ fraction, d.isDigit) :
    ofDigits (whole ++ fraction) / 10 ^ fraction.length = ofDigits whole ∧
      ofDigits (whole ++ fraction) % 10 ^ fraction.length = ofDigits fraction := by
  have hlt := ofDigits_lt hfraction
  rw [ofDigits_append hwhole hfraction, Nat.add_comm,
    Nat.add_mul_div_right _ _ (Nat.pow_pos (by decide)), Nat.div_eq_of_lt hlt, Nat.zero_add,
    Nat.add_mul_mod_self_right, Nat.mod_eq_of_lt hlt]
  exact ⟨rfl, rfl⟩

/-- With as many digits behind the point, two texts of a decimal are the same. -/
theorem eq_of_length_eq (hwhole : PlainDigits whole) (hwhole' : PlainDigits whole')
    (hfraction : ∀ d ∈ fraction, d.isDigit) (hfraction' : ∀ d ∈ fraction', d.isDigit)
    (hlength : fraction.length = fraction'.length)
    (h : ofDigits (whole ++ fraction) = ofDigits (whole' ++ fraction')) :
    whole = whole' ∧ fraction = fraction' := by
  obtain ⟨hdiv, hmod⟩ := ofDigits_append_div_mod hwhole.digits.2 hfraction
  obtain ⟨hdiv', hmod'⟩ := ofDigits_append_div_mod hwhole'.digits.2 hfraction'
  rw [h, hlength] at hdiv hmod
  refine ⟨?_, eq_of_ofDigits_eq hfraction hfraction' hlength (hmod.symm.trans hmod')⟩
  rw [← toDigits_ofDigits hwhole, ← toDigits_ofDigits hwhole', hdiv.symm.trans hdiv']

namespace PlainText

theorem plainDigits (h : PlainText whole fraction c e) : PlainDigits whole := ⟨h.wholeDigits, h.head⟩

/-- A longer fraction of the same decimal ends with needless zeros. -/
theorem not_length_lt (h : PlainText whole fraction c e) (h' : PlainText whole' fraction' c e)
    (htrimmed' : Trimmed fraction') : ¬ fraction.length < fraction'.length := by
  intro hlt
  obtain ⟨k, hk⟩ := Nat.exists_eq_add_of_lt hlt
  have hvalue : ofDigits (whole' ++ fraction') = ofDigits (whole ++ fraction) * 10 ^ (k + 1) := by
    have hpow : (10 : ℚ) ^ (-(fraction'.length : Int)) =
        10 ^ (-(fraction.length : Int)) * (10 ^ (k + 1))⁻¹ := by
      rw [hk, ← zpow_natCast, ← zpow_neg, ← zpow_add₀ (by norm_num)]
      congr 1
      push_cast
      ring
    have heq := h'.value.trans h.value.symm
    rw [hpow, mul_comm ((10 : ℚ) ^ _), ← mul_assoc] at heq
    have heq := mul_right_cancel₀ (zpow_ne_zero _ (by norm_num)) heq
    rw [mul_inv_eq_iff_eq_mul₀ (by positivity)] at heq
    exact_mod_cast heq
  have hdigits : Digits (whole' ++ fraction') :=
    ⟨by simp [h'.wholeDigits.1], List.forall_mem_append.mpr ⟨h'.wholeDigits.2, h'.fractionDigits.2⟩⟩
  have hlast : fraction'.getLast? = some '0' := by
    have hzero := (getLast?_eq_zero_iff hdigits).mpr (by
      rw [hvalue, Nat.pow_succ, ← Nat.mul_assoc, Nat.mul_mod_left])
    rwa [List.getLast?_append, Option.or_of_isSome (by simp [h'.fractionDigits.1])] at hzero
  have hone : fraction'.length = 1 := by rw [htrimmed' hlast, List.length_singleton]
  have hpos := List.length_pos_iff.mpr h.fractionDigits.1
  omega

/-- **Of the texts without needless zeros, only one writes a decimal.** -/
theorem unique (h : PlainText whole fraction c e) (h' : PlainText whole' fraction' c e)
    (htrimmed : Trimmed fraction) (htrimmed' : Trimmed fraction') :
    whole = whole' ∧ fraction = fraction' := by
  have hlength : fraction.length = fraction'.length :=
    Nat.le_antisymm (Nat.le_of_not_lt (h'.not_length_lt h htrimmed))
      (Nat.le_of_not_lt (h.not_length_lt h' htrimmed'))
  refine eq_of_length_eq h.plainDigits h'.plainDigits h.fractionDigits.2 h'.fractionDigits.2 hlength ?_
  have heq := h.value.trans h'.value.symm
  rw [hlength] at heq
  exact_mod_cast mul_right_cancel₀ (zpow_ne_zero _ (by norm_num)) heq

end PlainText

/-! ## What positional notation writes -/

namespace DecimalStyle

variable {style : DecimalStyle} {least greatest : Int}

/-- A decimal on the coarsest grid that it lies on. -/
def Coarsest (c : Nat) (e : Int) : Prop := c % 10 ≠ 0 ∨ c = 0 ∧ e = 0

/-- **Positional notation writes a decimal without needless zeros.** -/
theorem positionalText_eq (hcoarsest : Coarsest c e) (h : PlainText whole fraction c e)
    (htrimmed : Trimmed fraction) :
    positionalText true (Nat.toDigits 10 c) e = whole ++ '.' :: fraction := by
  obtain ⟨whole', fraction', heq, hplain, htrimmed'⟩ : ∃ whole' fraction',
      positionalText true (Nat.toDigits 10 c) e = whole' ++ '.' :: fraction' ∧
        PlainText whole' fraction' c e ∧ Trimmed fraction' := by
    rcases hcoarsest with hc | ⟨rfl, rfl⟩
    · have hpos : 0 < c := by omega
      obtain ⟨whole', fraction', heq, hplain, hlast⟩ := plainText_positional (e := e) (.inl hpos)
      refine ⟨whole', fraction', heq, hplain, fun hzero => ?_⟩
      rcases hlast with hlast | hlast
      · exact hlast
      · rw [hlast, getLast?_eq_zero_iff (digits_toDigits c), ofDigits_toDigits] at hzero
        exact absurd hzero hc
    · have hzero : PlainText ['0'] ['0'] 0 0 := by
        simpa using plainText_whole (c := 0) (k := 0) (.inr rfl)
      exact ⟨['0'], ['0'], rfl, hzero, fun _ => rfl⟩
  obtain ⟨rfl, rfl⟩ := h.unique hplain htrimmed htrimmed'
  exact heq

/-- The exponent of the leading digit says how large a decimal is. -/
theorem le_leading_iff (hc : 0 < c) (m : Int) :
    m ≤ e + (Nat.toDigits 10 c).length - 1 ↔ (10 : ℚ) ^ m ≤ c * 10 ^ e := by
  obtain ⟨n, hn⟩ : ∃ n, (Nat.toDigits 10 c).length = n + 1 :=
    ⟨_, (Nat.succ_pred_eq_of_pos Nat.length_toDigits_pos).symm⟩
  have hupper : c < 10 ^ (n + 1) :=
    (Nat.length_toDigits_le_iff (by decide) (Nat.succ_pos n)).mp hn.le
  have hlower : 10 ^ n ≤ c := by
    rcases Nat.eq_zero_or_pos n with rfl | hpos
    · exact hc
    · refine Nat.le_of_not_lt fun hlt => ?_
      have hle := (Nat.length_toDigits_le_iff (by decide) hpos).mpr hlt
      omega
  have hpow : (0 : ℚ) < 10 ^ e := zpow_pos (by norm_num) e
  have hlead : e + ((n + 1 : Nat) : Int) - 1 = n + e := by omega
  rw [hn, hlead]
  constructor
  · intro hm
    calc (10 : ℚ) ^ m ≤ 10 ^ (n + e) := zpow_le_zpow_right₀ (by norm_num) hm
      _ = 10 ^ n * 10 ^ e := by rw [zpow_add₀ (by norm_num), zpow_natCast]
      _ ≤ c * 10 ^ e := mul_le_mul_of_nonneg_right (by exact_mod_cast hlower) hpow.le
  · intro hm
    by_contra hlt
    have hgreater : (c : ℚ) * 10 ^ e < 10 ^ m := by
      calc (c : ℚ) * 10 ^ e < 10 ^ (n + 1) * 10 ^ e :=
            mul_lt_mul_of_pos_right (by exact_mod_cast hupper) hpow
        _ = 10 ^ (n + 1 + e) := by rw [zpow_add₀ (by norm_num), ← zpow_natCast]; push_cast; ring
        _ ≤ 10 ^ m := zpow_le_zpow_right₀ (by norm_num) (by omega)
    exact absurd hm (not_le.mpr hgreater)

/-- A decimal of moderate size is written positionally. -/
theorem decimalText_of_le (hstyle : style.positional = some (least, greatest))
    (hpoint : style.point = true) (hc : 0 < c) (hleast : (10 : ℚ) ^ least ≤ c * 10 ^ e)
    (hgreatest : (c : ℚ) * 10 ^ e < 10 ^ (greatest + 1)) :
    style.decimalText ⟨c, e⟩ = positionalText true (Nat.toDigits 10 c) e := by
  rw [← not_le, ← le_leading_iff hc] at hgreatest
  rw [← le_leading_iff hc] at hleast
  have hmost : e + (Nat.toDigits 10 c).length - 1 ≤ greatest := by omega
  unfold decimalText
  rw [hstyle, hpoint]
  exact if_pos ⟨hleast, hmost⟩

/-- A decimal that is too small for that has the letter of an exponent. -/
theorem decimalText_of_lt (hstyle : style.positional = some (least, greatest)) (hc : 0 < c)
    (hleast : (c : ℚ) * 10 ^ e < 10 ^ least) : 'e' ∈ style.decimalText ⟨c, e⟩ := by
  rw [← not_le, ← le_leading_iff hc] at hleast
  unfold decimalText
  rw [hstyle]
  simp only [if_neg (fun h : least ≤ e + (Nat.toDigits 10 c).length - 1 ∧ _ => hleast h.1)]
  simp [exponentText]

end DecimalStyle

end ScenePack
