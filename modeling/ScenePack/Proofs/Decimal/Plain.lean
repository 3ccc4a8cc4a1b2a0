import ScenePack.Decimal.Style
import ScenePack.Proofs.Decimal.Basin
import ScenePack.Proofs.Text.Digits

/-!
# Numbers in positional notation

A style that always writes positionally, with a point, writes a finite number as a sign, digits, a
point and digits. Read as a decimal, that text is the number again.

* `DecimalStyle.IsPlain`: such a style.
* `PlainText`: digits, a point and digits, without a needless zero in front, and the decimal that
  they write.

* `DecimalStyle.Rendered`: the texts of numbers, special values included.

Results:
* `plainText_positional`: positional notation writes the decimal that it is made of.
* `toList_render`: a finite number is written as its sign and its shortest decimal.
* **`render_of_finite`**: the text of a finite number is read as the number.
* `rendered_render`: what a style writes of any number.
-/

namespace ScenePack

open Text

/-- Digits with a point between them, and no needless zero in front: `coefficient` without the
point, and the number of digits behind it. -/
structure PlainText (whole fraction : List Char) (c : Nat) (e : Int) : Prop where
  wholeDigits : Digits whole
  fractionDigits : Digits fraction
  /-- Only a zero of its own begins with one. -/
  head : 1 < whole.length → whole.head? ≠ some '0'
  /-- The digits without the point are the decimal on a grid that may be finer. -/
  value : (ofDigits (whole ++ fraction) : ℚ) * 10 ^ (-(fraction.length : Int)) = c * 10 ^ e

/-- A plain text that writes a number of a word's basin is read as the word. -/
theorem PlainText.ofDecimal_eq {F : BinaryFormat} {whole fraction : List Char} {w c : Nat} {e : Int}
    (h : PlainText whole fraction c e) (hfraction : 0 < F.fractionBits)
    (hexponent : 2 ≤ F.exponentBits) (hw : 0 < w) (hfinite : w < F.infinity)
    (hcontains : (Decimal.Basin.of F w).Contains (Decimal.halfUnits F c e)) (negative : Bool) :
    F.ofDecimal negative (ofDigits (whole ++ fraction)) (-(fraction.length : Int)) =
      ⟨negative, w⟩ := by
  refine BinaryFormat.ofDecimal_of_contains hfraction hexponent hw hfinite ?_ negative
  rw [Decimal.halfUnits, h.value]
  exact hcontains

namespace DecimalStyle

variable {F : BinaryFormat} {style : DecimalStyle} {x : BinaryNumber} {c : Nat} {e : Int}

/-- Numbers are written positionally, whole ones with a point too. -/
structure IsPlain (style : DecimalStyle) : Prop where
  positional : style.positional = none
  point : style.point = true

/-- A whole number has zeros behind its digits, and one behind the point. -/
theorem plainText_whole {k : Nat} (hc : 0 < c ∨ k = 0) :
    PlainText (Nat.toDigits 10 c ++ List.replicate k '0') ['0'] c k := by
  obtain ⟨hne, hds⟩ := digits_toDigits c
  have hzeros : ∀ d ∈ List.replicate k '0', d.isDigit := fun d hd => by
    rw [List.eq_of_mem_replicate hd]
    rfl
  have hwhole : ∀ d ∈ Nat.toDigits 10 c ++ List.replicate k '0', d.isDigit :=
    List.forall_mem_append.mpr ⟨hds, hzeros⟩
  refine ⟨⟨?_, hwhole⟩, ⟨by simp, by simp⟩, ?_, ?_⟩
  · simp [hne]
  · intro hlength
    rcases Nat.eq_zero_or_pos c with rfl | hpos
    · obtain rfl : k = 0 := hc.resolve_left (Nat.lt_irrefl 0)
      simp at hlength
    · rw [List.head?_append, Option.or_of_isSome (List.isSome_head?.mpr hne)]
      exact head?_toDigits_ne_zero hpos
  · rw [ofDigits_append hwhole (by simp), ofDigits_append hds hzeros, ofDigits_replicate_zero,
      ofDigits_toDigits, List.length_replicate, show ofDigits ['0'] = 0 from rfl, zpow_natCast]
    simp only [List.length_singleton, Nat.cast_mul, Nat.cast_pow, Nat.cast_ofNat, Nat.cast_one,
      add_zero, pow_one, zpow_neg, zpow_one]
    ring

/-- The point stands between the digits, if there are more of them than places. -/
theorem plainText_between {k : Nat} (hc : 0 < c) (hk : 0 < k)
    (hplaces : k < (Nat.toDigits 10 c).length) :
    PlainText ((Nat.toDigits 10 c).take ((Nat.toDigits 10 c).length - k))
      ((Nat.toDigits 10 c).drop ((Nat.toDigits 10 c).length - k)) c (-(k : Int)) := by
  obtain ⟨hne, hds⟩ := digits_toDigits c
  have hhead := head?_toDigits_ne_zero hc
  have hvalue := ofDigits_toDigits c
  generalize Nat.toDigits 10 c = ds at *
  have hlength : (ds.drop (ds.length - k)).length = k := by
    rw [List.length_drop]
    omega
  refine ⟨⟨?_, fun d hd => hds d (List.mem_of_mem_take hd)⟩,
    ⟨?_, fun d hd => hds d (List.mem_of_mem_drop hd)⟩, fun _ => ?_, ?_⟩
  · rw [ne_eq, List.take_eq_nil_iff]
    exact not_or.mpr ⟨by omega, hne⟩
  · intro hnil
    rw [hnil] at hlength
    exact hk.ne hlength
  · rwa [List.head?_take, if_neg (by omega)]
  · rw [List.take_append_drop, hvalue, hlength]

/-- Zeros stand between the point and the digits, if there are more places than digits. -/
theorem plainText_below {k : Nat} (hplaces : (Nat.toDigits 10 c).length ≤ k) :
    PlainText ['0'] (List.replicate (k - (Nat.toDigits 10 c).length) '0' ++ Nat.toDigits 10 c) c
      (-(k : Int)) := by
  obtain ⟨hne, hds⟩ := digits_toDigits c
  have hvalue := ofDigits_toDigits c
  generalize Nat.toDigits 10 c = ds at *
  have hzeros : ∀ d ∈ List.replicate (k - ds.length) '0', d.isDigit := fun d hd => by
    rw [List.eq_of_mem_replicate hd]
    rfl
  have hfraction : ∀ d ∈ List.replicate (k - ds.length) '0' ++ ds, d.isDigit :=
    List.forall_mem_append.mpr ⟨hzeros, hds⟩
  have hlength : (List.replicate (k - ds.length) '0' ++ ds).length = k := by
    rw [List.length_append, List.length_replicate]
    omega
  refine ⟨⟨by simp, by simp⟩, ⟨by simp [hne], hfraction⟩, by simp, ?_⟩
  rw [ofDigits_append (by simp) hfraction, ofDigits_append hzeros hds, hvalue,
    ofDigits_replicate_zero, show ofDigits ['0'] = 0 from rfl, hlength]
  simp

/-- **Positional notation writes the decimal that it is made of**, and ends with its last digit, or
with a zero of its own behind the point. -/
theorem plainText_positional (hc : 0 < c ∨ e = 0) : ∃ whole fraction,
    positionalText true (Nat.toDigits 10 c) e = whole ++ '.' :: fraction ∧
      PlainText whole fraction c e ∧
      (fraction = ['0'] ∨ fraction.getLast? = (Nat.toDigits 10 c).getLast?) := by
  unfold positionalText
  by_cases he : 0 ≤ e
  · obtain ⟨k, rfl⟩ := Int.eq_ofNat_of_zero_le he
    refine ⟨_, _, ?_, plainText_whole (hc.imp_right Int.ofNat_eq_zero.mp), .inl rfl⟩
    rw [if_pos he, Int.toNat_natCast]
    simp
  · obtain ⟨k, rfl⟩ : ∃ k : Nat, e = -(k : Int) := ⟨(-e).toNat, by omega⟩
    have hcpos : 0 < c := hc.resolve_right (by omega)
    rw [if_neg he, neg_neg, Int.toNat_natCast]
    rcases Nat.lt_or_ge k (Nat.toDigits 10 c).length with hplaces | hplaces
    · refine ⟨_, _, if_pos hplaces, plainText_between hcpos (by omega) hplaces, .inr ?_⟩
      rw [List.getLast?_drop, if_neg (by omega)]
    · refine ⟨_, _, if_neg (Nat.not_lt.mpr hplaces), plainText_below hplaces, .inr ?_⟩
      rw [List.getLast?_append, Option.or_of_isSome]
      simp [(digits_toDigits c).1]

/-- The text of a finite number: its sign and the shortest decimal. -/
theorem toList_render (negative : Bool) {w : Nat} (hfinite : w < F.infinity) :
    (style.render F ⟨negative, w⟩).toList = (if negative then ['-'] else []) ++
      style.decimalText (if w = 0 then ⟨0, 0⟩ else Decimal.shortest F style.tie w) := by
  have hnan : F.isNaN ⟨negative, w⟩ = false := decide_eq_false hfinite.not_gt
  have hinf : F.isInfinite ⟨negative, w⟩ = false := decide_eq_false hfinite.ne
  unfold render
  rw [hnan, hinf, if_neg Bool.false_ne_true, if_neg Bool.false_ne_true, String.toList_ofList,
    apply_ite style.decimalText]
  cases negative <;> rfl

/-- **The text of a finite number is read as the number**: a sign, digits, a point and digits. -/
theorem render_of_finite (hstyle : style.IsPlain) (hfraction : 0 < F.fractionBits)
    (hexponent : 2 ≤ F.exponentBits) (hfinite : F.isFinite x = true) :
    ∃ whole fraction c e, PlainText whole fraction c e ∧
      (style.render F x).toList =
        (if x.negative then ['-'] else []) ++ (whole ++ '.' :: fraction) ∧
      F.ofDecimal x.negative (ofDigits (whole ++ fraction)) (-(fraction.length : Int)) = x := by
  obtain ⟨negative, w⟩ := x
  have hfinite : w < F.infinity := by simpa [BinaryFormat.isFinite] using hfinite
  have htext (c : Nat) (e : Int) : style.decimalText ⟨c, e⟩ =
      positionalText true (Nat.toDigits 10 c) e := by
    unfold decimalText
    rw [hstyle.positional, hstyle.point]
  rw [toList_render negative hfinite]
  rcases Nat.eq_zero_or_pos w with rfl | hw
  · -- zero is written as a zero on both sides of the point
    obtain ⟨whole, fraction, hpositional, hplain, -⟩ := plainText_positional (c := 0) (e := 0) (.inr rfl)
    refine ⟨whole, fraction, 0, 0, hplain, ?_, ?_⟩
    · rw [if_pos rfl, htext, hpositional]
    · have hzero : ofDigits (whole ++ fraction) = 0 := by
        have hvalue := hplain.value
        rw [Nat.cast_zero, zero_mul, mul_eq_zero, Nat.cast_eq_zero] at hvalue
        exact hvalue.resolve_right (zpow_ne_zero _ (by norm_num))
      unfold BinaryFormat.ofDecimal
      rw [if_pos hzero]
  · obtain ⟨hcontains, -⟩ := Decimal.shortest_spec style.tie hfraction hw
    generalize Decimal.shortest F style.tie w = d at hcontains
    obtain ⟨c, e⟩ := d
    have hc : 0 < c := by
      refine Nat.pos_of_ne_zero ?_
      rintro rfl
      have hlow : (0 : ℚ) < (Decimal.Basin.of F w).low := by exact_mod_cast Decimal.low_pos F hw
      refine absurd (hlow.trans_le hcontains.low_le) ?_
      simp [Decimal.halfUnits]
    obtain ⟨whole, fraction, hpositional, hplain, -⟩ := plainText_positional (e := e) (.inl hc)
    refine ⟨whole, fraction, c, e, hplain, ?_,
      hplain.ofDecimal_eq hfraction hexponent hw hfinite hcontains negative⟩
    rw [if_neg hw.ne', htext, hpositional]

theorem render_of_infinite (hinf : F.isInfinite x = true) : (style.render F x).toList =
    (if x.negative then ['-'] else []) ++ ['i', 'n', 'f'] := by
  have hw : x.magnitude = F.infinity := by simpa [BinaryFormat.isInfinite] using hinf
  have hnan : F.isNaN x = false := decide_eq_false (by omega)
  unfold render
  rw [hnan, hinf, if_neg Bool.false_ne_true, if_pos rfl, String.toList_ofList]
  cases x.negative <;> rfl

theorem render_of_nan (hnan : F.isNaN x = true) : style.render F x = style.nan := if_pos hnan

/-- The text of a number: a sign and its digits around a point, a sign and the name of infinity, or
the name of a NaN. -/
inductive Rendered (style : DecimalStyle) (F : BinaryFormat) (x : BinaryNumber) : List Char → Prop
  | finite {whole fraction : List Char} : F.isFinite x = true → PlainDigits whole → Digits fraction →
      F.ofDecimal x.negative (ofDigits (whole ++ fraction)) (-(fraction.length : Int)) = x →
      Rendered style F x ((if x.negative then ['-'] else []) ++ (whole ++ '.' :: fraction))
  | infinite : x = ⟨x.negative, F.infinity⟩ →
      Rendered style F x ((if x.negative then ['-'] else []) ++ ['i', 'n', 'f'])
  | nan : F.isNaN x = true → Rendered style F x style.nan.toList

/-- **Every number has such a text.** -/
theorem rendered_render (hstyle : style.IsPlain) (hfraction : 0 < F.fractionBits)
    (hexponent : 2 ≤ F.exponentBits) (x : BinaryNumber) :
    Rendered style F x (style.render F x).toList := by
  rcases Nat.lt_trichotomy x.magnitude F.infinity with hw | hw | hw
  · have hfinite : F.isFinite x = true := decide_eq_true hw
    obtain ⟨whole, fraction, c, e, hplain, htext, hread⟩ :=
      render_of_finite hstyle hfraction hexponent hfinite
    rw [htext]
    exact .finite hfinite ⟨hplain.wholeDigits, hplain.head⟩ hplain.fractionDigits hread
  · rw [render_of_infinite (decide_eq_true hw)]
    exact .infinite (by rw [← hw])
  · rw [render_of_nan (decide_eq_true hw)]
    exact .nan (decide_eq_true hw)

end DecimalStyle

end ScenePack
