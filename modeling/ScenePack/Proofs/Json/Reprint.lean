import Mathlib.Data.Nat.Factorization.Basic
import ScenePack.Json.Printer
import ScenePack.Proofs.Decimal.Canonical
import ScenePack.Proofs.Decimal.Short
import ScenePack.Proofs.Json.Lexing
import ScenePack.Proofs.Json.Quotient

/-!
# Numbers that are read and printed again

The text of a number is not always the literal that it was read off. An integer keeps its literal as
far as 64 bits go. A fraction of few digits loses the zeros behind it, and its point if it is small.

* `signText`: the sign of a literal.
* `IsSmall`: a fraction that is printed with an exponent.

Results:
* `Spells.unique`: a literal is one number.
* `gather_eq_iff`: digits that fit a significand make up their number.
* `print_integer_iff`: the integers that keep their literals.
* `exists_quotient`: a fraction of few digits is the double that it lies nearest to.
* **`print_fraction`**: the text of a fraction of few digits.
-/

namespace ScenePack.Json

open Text

/-! ## Literals of numbers -/

theorem Spells.unique {w : List Char} {lexeme lexeme' : Lexeme} (h : Spells w lexeme)
    (h' : Spells w lexeme') : lexeme = lexeme' := by
  obtain ⟨c, cs, next, hw, hstep⟩ := h.step 0 [] fun _ => rfl
  obtain ⟨c', cs', next', hw', hstep'⟩ := h'.step 0 [] fun _ => rfl
  obtain ⟨rfl, rfl⟩ := List.cons.inj (hw.symm.trans hw')
  exact (Token.Step.token.inj (hstep.symm.trans hstep')).1

/-- The sign of a literal. -/
def signText (negative : Bool) : List Char := if negative then ['-'] else []

variable {negative : Bool} {ds cs : List Char} {n : Number}

/-- Characters that are read as a number behind a sign are a literal with it. -/
theorem spells_of_read (hdigit : cs.head?.any Char.isDigit) (hword : ∀ c ∈ cs, isWordChar c)
    (hread : ∀ taken offset rest, startsWord rest = false → ∃ next,
      readNumber negative taken offset (cs ++ rest) = .ok ⟨n, taken + cs.length, next⟩) :
    Spells (signText negative ++ cs) (.plain (.ok (.number n))) := by
  cases negative with
  | true =>
    refine ⟨.word (by simp [signText]) ?_, fun offset rest hrest => ?_⟩
    · simpa [signText, isWordChar] using hword
    · obtain ⟨next, heq⟩ := hread 1 (offset + 1) rest (hrest rfl)
      refine ⟨'-', cs, next, rfl, ?_⟩
      show Token.numberStep (readNumber true 1 (offset + 1) (cs ++ rest)) = _
      rw [heq, Token.numberStep, Nat.add_sub_cancel_left]
  | false =>
    cases cs with
    | nil => contradiction
    | cons c cs =>
      refine ⟨.word (by simp [signText]) hword, fun offset rest hrest => ?_⟩
      obtain ⟨next, heq⟩ := hread 0 offset rest (hrest rfl)
      refine ⟨c, cs, next, rfl, ?_⟩
      rw [List.cons_append] at heq
      rw [Token.step_digit (by simpa using hdigit), heq, Token.numberStep, List.length_cons,
        Nat.zero_add, Nat.add_sub_cancel]

/-- A literal is read as its number behind its sign. -/
theorem read_of_spells (hdigit : cs.head?.any Char.isDigit)
    (h : Spells (signText negative ++ cs) (.plain (.ok (.number n)))) :
    ∃ taken offset e, readNumber negative taken offset cs = .ok e ∧ e.value = n := by
  obtain ⟨c, cs', next, hw, hstep⟩ := h.step 0 [] fun _ => rfl
  cases negative with
  | true =>
    obtain ⟨rfl, rfl⟩ := List.cons.inj hw
    rw [List.append_nil] at hstep
    have hstep : Token.numberStep (readNumber true 1 1 cs) = _ := hstep
    obtain ⟨e, hread, heq, -⟩ := Token.numberStep_token hstep
    simp only [Lexeme.plain.injEq, Except.ok.injEq, Value.number.injEq] at heq
    exact ⟨1, 1, e, hread, heq.symm⟩
  | false =>
    obtain rfl : cs = c :: cs' := hw
    rw [List.append_nil, Token.step_digit (by simpa using hdigit)] at hstep
    obtain ⟨e, hread, heq, -⟩ := Token.numberStep_token hstep
    simp only [Lexeme.plain.injEq, Except.ok.injEq, Value.number.injEq] at heq
    exact ⟨0, 0, e, hread, heq.symm⟩

/-! ## Integers -/

/-- **Digits that fit a significand make up their number**, and none of them is left over. -/
theorem gather_eq_iff {m s : Nat} (hm : m < UInt64.size) (hds : ∀ d ∈ ds, d.isDigit) :
    gather m ds = (s, []) ↔ m * 10 ^ ds.length + ofDigits ds = s ∧ s < UInt64.size := by
  induction ds generalizing m with
  | nil =>
    simp only [gather, Prod.mk.injEq, and_true, List.length_nil, Nat.pow_zero, Nat.mul_one,
      show ofDigits [] = 0 from rfl, Nat.add_zero]
    exact ⟨fun h => ⟨h, h ▸ hm⟩, And.left⟩
  | cons d ds ih =>
    obtain ⟨hd, hds⟩ := List.forall_mem_cons.mp hds
    have hvalue : m * 10 ^ (d :: ds).length + ofDigits (d :: ds) =
        (m * 10 + digitValue d) * 10 ^ ds.length + ofDigits ds := by
      rw [ofDigits_cons hd hds, List.length_cons, Nat.pow_succ]
      ring
    rw [hvalue, gather]
    by_cases hfits : m * 10 + digitValue d < UInt64.size
    · rw [if_pos hfits]
      exact ih hfits hds
    · rw [if_neg hfits]
      refine iff_of_false (by simp) ?_
      rintro ⟨rfl, hlt⟩
      have hle : m * 10 + digitValue d ≤ (m * 10 + digitValue d) * 10 ^ ds.length :=
        Nat.le_mul_of_pos_right _ (Nat.pow_pos (by decide))
      omega

/-- Plain digits, behind which no word goes on, are a number. -/
theorem readNumber_digits {rest : List Char} (hds : PlainDigits ds) (hrest : startsWord rest = false)
    (negative : Bool) (taken offset : Nat) :
    readNumber negative taken offset (ds ++ rest) =
      if (gather 0 ds).2.isEmpty then
        .ok ⟨wholeNumber negative (gather 0 ds).1, taken + ds.length, offset + ds.length⟩
      else finishReal negative (gather 0 ds).1 (gather 0 ds).2.length (taken + ds.length)
        (offset + ds.length) := by
  have hempty : ¬ ds.isEmpty := by simpa using hds.digits.1
  have hzero : ¬ (ds.head? = some '0' ∧ 1 < ds.length) := fun h => hds.head h.2 h.1
  rw [readNumber_append hds.digits.2 (NoDigit.of_not_startsWord hrest), if_neg hempty, if_neg hzero,
    if_neg (head?_ne_of_not_startsWord rfl hrest), if_neg (not_letter_of_not_startsWord hrest)]

theorem head?_isDigit (hds : Digits ds) (cs : List Char) : (ds ++ cs).head?.any Char.isDigit := by
  obtain ⟨d, ds, rfl⟩ := List.exists_cons_of_ne_nil hds.1
  simpa using hds.2 d List.mem_cons_self

theorem spells_integer (negative : Bool) (hds : PlainDigits ds) (hfits : ofDigits ds < UInt64.size) :
    Spells (signText negative ++ ds)
      (.plain (.ok (.number (wholeNumber negative (ofDigits ds))))) := by
  have hgather : gather 0 ds = (ofDigits ds, []) :=
    (gather_eq_iff (by decide) hds.digits.2).mpr ⟨by simp, hfits⟩
  have hdigit := head?_isDigit hds.digits []
  rw [List.append_nil] at hdigit
  refine spells_of_read hdigit (fun d hd => isWordChar_of_isDigit (hds.digits.2 d hd)) ?_
  intro taken offset rest hrest
  refine ⟨offset + ds.length, ?_⟩
  rw [readNumber_digits hds hrest, hgather]
  rfl

/-- Whether an integer fits 64 bits with its sign. -/
def FitsInteger (negative : Bool) (m : Nat) : Prop :=
  if negative then 0 < m ∧ m ≤ 2 ^ 63 else m < 2 ^ 64

instance (negative : Bool) (m : Nat) : Decidable (FitsInteger negative m) :=
  inferInstanceAs (Decidable (ite _ _ _))

theorem wholeNumber_of_fits {m : Nat} (h : FitsInteger negative m) :
    wholeNumber negative m = .integer (if negative then -(m : Int) else m) := by
  cases negative with
  | false => rfl
  | true => exact if_pos h

theorem wholeNumber_of_not_fits {m : Nat} (hm : m < UInt64.size) (h : ¬ FitsInteger negative m) :
    wholeNumber negative m = signed negative (Double.ofInt m) := by
  cases negative with
  | false => exact absurd hm h
  | true => exact if_neg h

theorem print_wholeNumber {m : Nat} (h : FitsInteger negative m) :
    (wholeNumber negative m).print.toList = signText negative ++ Nat.toDigits 10 m := by
  have hnat (m : Nat) : (toString m).toList = Nat.toDigits 10 m := by
    rw [Nat.toString_eq_ofList_toDigits, String.toList_ofList]
  rw [wholeNumber_of_fits h]
  cases negative with
  | false => exact hnat m
  | true =>
    obtain ⟨k, rfl⟩ : ∃ k, m = k + 1 := ⟨m - 1, by have := h.1; omega⟩
    show ("-" ++ toString (k + 1)).toList = _
    rw [String.toList_append, hnat]
    rfl

/-- The text of a double is not the text of an integer. -/
theorem exists_mem_print_real (x : Double) :
    ∃ d ∈ (Number.real x).print.toList, d.isDigit = false ∧ d ≠ '-' := by
  show ∃ d ∈ (numberStyle.render .double x.number).toList, _
  generalize x.number = x
  rcases Nat.lt_trichotomy x.magnitude BinaryFormat.double.infinity with hw | hw | hw
  · rw [DecimalStyle.toList_render x.negative hw]
    generalize (if x.magnitude = 0 then _ else _) = d
    by_cases hleading : -5 ≤ d.exponent + (Nat.toDigits 10 d.coefficient).length - 1 ∧
        d.exponent + (Nat.toDigits 10 d.coefficient).length - 1 ≤ 15
    · refine ⟨'.', List.mem_append_right _ ?_, by decide, by decide⟩
      unfold DecimalStyle.decimalText
      simp only [numberStyle, if_pos hleading, DecimalStyle.positionalText]
      split
      · simp
      · split <;> simp
    · refine ⟨'e', List.mem_append_right _ ?_, by decide, by decide⟩
      unfold DecimalStyle.decimalText
      simp only [numberStyle, if_neg hleading, DecimalStyle.exponentText]
      simp
  · rw [DecimalStyle.render_of_infinite (decide_eq_true hw)]
    exact ⟨'i', by simp, by decide, by decide⟩
  · rw [DecimalStyle.render_of_nan (decide_eq_true hw)]
    exact ⟨'n', by decide, by decide, by decide⟩

theorem print_signed_ne (hds : ∀ d ∈ ds, d.isDigit) (x : Double) :
    (signed negative x).print.toList ≠ signText negative ++ ds := by
  intro h
  obtain ⟨d, hd, hdigit, hminus⟩ := exists_mem_print_real (if negative then x.neg else x)
  rw [← signed, h, List.mem_append] at hd
  rcases hd with hd | hd
  · refine hminus ?_
    cases negative with
    | true => exact List.mem_singleton.mp hd
    | false => exact absurd hd List.not_mem_nil
  · exact absurd (hds d hd) (by rw [hdigit]; nofun)

/-- **The integers that keep their literals** are those that fit 64 bits. -/
theorem print_integer_iff (hds : PlainDigits ds)
    (h : Spells (signText negative ++ ds) (.plain (.ok (.number n)))) :
    n.print.toList = signText negative ++ ds ↔ FitsInteger negative (ofDigits ds) := by
  have hsize : FitsInteger negative (ofDigits ds) → ofDigits ds < UInt64.size := by
    unfold FitsInteger
    split
    · exact fun h => h.2.trans_lt (by decide)
    · exact id
  by_cases hfits : ofDigits ds < UInt64.size
  · obtain rfl : n = wholeNumber negative (ofDigits ds) := by
      simpa using h.unique (spells_integer negative hds hfits)
    constructor
    · intro hprint
      by_contra hnot
      rw [wholeNumber_of_not_fits hfits hnot] at hprint
      exact print_signed_ne hds.digits.2 _ hprint
    · intro hfits
      rw [print_wholeNumber hfits, toDigits_ofDigits hds]
  · -- digits are left over, and the number is a double
    refine iff_of_false ?_ (mt hsize hfits)
    have hdigit := head?_isDigit hds.digits []
    rw [List.append_nil] at hdigit
    obtain ⟨taken, offset, e, hread, rfl⟩ := read_of_spells hdigit h
    have hleft : ¬ (gather 0 ds).2.isEmpty := by
      intro hempty
      have hgather : gather 0 ds = ((gather 0 ds).1, []) :=
        Prod.ext rfl (List.isEmpty_iff.mp hempty)
      obtain ⟨hvalue, hlt⟩ := (gather_eq_iff (by decide) hds.digits.2).mp hgather
      rw [Nat.zero_mul, Nat.zero_add] at hvalue
      exact hfits (hvalue ▸ hlt)
    have hstop : startsWord [] = false := rfl
    rw [← List.append_nil ds, readNumber_digits hds hstop, if_neg hleft, finishReal] at hread
    split at hread
    · obtain rfl := Except.ok.inj hread
      exact print_signed_ne hds.digits.2 _
    · contradiction

/-! ## Fractions of few digits -/

section Fraction

open BinaryFormat Decimal

variable {whole fraction rest : List Char} {c k w : Nat}

/-- Digits around a point, behind which no word goes on, are a significand and a power of ten. -/
theorem readNumber_fraction (hwhole : PlainDigits whole) (hfraction : Digits fraction)
    (hsize : ofDigits (whole ++ fraction) < UInt64.size) (hrest : startsWord rest = false)
    (negative : Bool) (taken offset : Nat) :
    readNumber negative taken offset (whole ++ '.' :: fraction ++ rest) =
      finishReal negative (ofDigits (whole ++ fraction)) (-(fraction.length : Int))
        (taken + (whole ++ '.' :: fraction).length)
        (offset + (whole ++ '.' :: fraction).length) := by
  have hempty : ¬ whole.isEmpty := by simpa using hwhole.digits.1
  have hempty' : ¬ fraction.isEmpty := by simpa using hfraction.1
  have hzero : ¬ (whole.head? = some '0' ∧ 1 < whole.length) := fun h => hwhole.head h.2 h.1
  have hvalue := ofDigits_append hwhole.digits.2 hfraction.2
  have hle : ofDigits whole ≤ ofDigits whole * 10 ^ fraction.length :=
    Nat.le_mul_of_pos_right _ (Nat.pow_pos (by decide))
  have hgather : gather 0 whole = (ofDigits whole, []) :=
    (gather_eq_iff (by decide) hwhole.digits.2).mpr ⟨by simp, by omega⟩
  have hgather' : gather (ofDigits whole) fraction = (ofDigits (whole ++ fraction), []) :=
    (gather_eq_iff (by omega) hfraction.2).mpr ⟨hvalue.symm, hsize⟩
  rw [List.append_assoc, List.cons_append, readNumber_append hwhole.digits.2 (NoDigit.cons rfl _),
    if_neg hempty, if_neg hzero, if_pos (by rfl), hgather, List.drop_one, List.tail_cons,
    readFraction_append hfraction.2 (NoDigit.of_not_startsWord hrest), if_neg hempty',
    if_neg (not_letter_of_not_startsWord hrest), hgather']
  simp only [List.length_nil, List.length_append, List.length_cons, Nat.sub_zero, Int.natCast_zero,
    Int.zero_sub]
  congr 1 <;> omega

theorem finishReal_quotient (hk : 0 < k) (hmost : k ≤ greatestPower) (negative : Bool)
    (taken offset : Nat) : finishReal negative c (-(k : Int)) taken offset =
      .ok ⟨signed negative ((Double.ofInt c).div (powerOfTen k)), taken, offset⟩ := by
  have hneg : -(k : Int) < 0 := by omega
  unfold finishReal scale? shiftDown
  simp only [if_pos hneg, neg_neg, Int.toNat_natCast, if_pos hmost]

/-- A fraction of few digits is a literal. -/
theorem spells_fraction (negative : Bool) (hwhole : PlainDigits whole) (hfraction : Digits fraction)
    (hsize : ofDigits (whole ++ fraction) < UInt64.size) (hmost : fraction.length ≤ greatestPower) :
    Spells (signText negative ++ (whole ++ '.' :: fraction)) (.plain (.ok (.number
      (signed negative ((Double.ofInt (ofDigits (whole ++ fraction))).div
        (powerOfTen fraction.length)))))) := by
  refine spells_of_read (head?_isDigit hwhole.digits _) ?_ fun taken offset rest hrest => ?_
  · refine List.forall_mem_append.mpr
      ⟨fun d hd => isWordChar_of_isDigit (hwhole.digits.2 d hd), List.forall_mem_cons.mpr ⟨rfl, ?_⟩⟩
    exact fun d hd => isWordChar_of_isDigit (hfraction.2 d hd)
  · have hpos : 0 < fraction.length := List.length_pos_iff.mpr hfraction.1
    rw [readNumber_fraction hwhole hfraction hsize hrest, finishReal_quotient hpos hmost]
    exact ⟨_, rfl⟩

/-- The text of a double with a sign. -/
theorem print_signed {x : Double} (hx : x.number = ⟨false, w⟩) (hfinite : w < double.infinity) :
    (signed negative x).print.toList = signText negative ++
      numberStyle.decimalText (if w = 0 then ⟨0, 0⟩ else Decimal.shortest double .toEven w) := by
  have hnumber : (if negative then x.neg else x).number = ⟨negative, w⟩ := by
    cases negative with
    | false => exact hx
    | true =>
      have hneg : BinaryFormat.neg x.number = ⟨true, w⟩ := by
        rw [hx]
        rfl
      show (Double.ofNumber (BinaryFormat.neg x.number)).number = _
      rw [hneg]
      exact Double.number_ofNumber_of_ordered hfinite.le
  show (numberStyle.render .double (if negative then x.neg else x).number).toList = _
  rw [hnumber, DecimalStyle.toList_render negative hfinite]
  rfl

/-- A fraction that is printed with an exponent: it is less than `0.00001`, but not zero. -/
def IsSmall (whole fraction : List Char) : Prop :=
  0 < ofDigits (whole ++ fraction) ∧
    10 ^ 5 * ofDigits (whole ++ fraction) < 10 ^ fraction.length

instance (whole fraction : List Char) : Decidable (IsSmall whole fraction) :=
  inferInstanceAs (Decidable (_ ∧ _))

/-- A number other than zero, on the coarsest grid that it lies on. -/
theorem exists_coarsest (hpos : 0 < c) : ∃ m j, m % 10 ≠ 0 ∧ c = m * 10 ^ j := by
  obtain ⟨j, m, hm, rfl⟩ := Nat.exists_eq_pow_mul_and_not_dvd hpos.ne' 10 (by decide)
  exact ⟨m, j, fun hlast => hm (Nat.dvd_of_mod_eq_zero hlast), Nat.mul_comm _ _⟩

/-- Being small, said of the decimal. -/
theorem isSmall_iff (hpos : 0 < ofDigits (whole ++ fraction)) : IsSmall whole fraction ↔
    (ofDigits (whole ++ fraction) : ℚ) * 10 ^ (-(fraction.length : Int)) < 10 ^ (-5 : Int) := by
  have hpow : (0 : ℚ) < 10 ^ fraction.length := by positivity
  rw [IsSmall, and_iff_right hpos, zpow_neg, zpow_natCast, ← div_eq_mul_inv, div_lt_iff₀ hpow,
    zpow_neg, inv_mul_eq_div, lt_div_iff₀ (by positivity), mul_comm]
  exact_mod_cast Iff.rfl

/-- **The text of a fraction of few digits** is its literal without the zeros behind it, unless it is
small. -/
theorem print_fraction (hwhole : PlainDigits whole) (hfraction : Digits fraction)
    (hlength : whole.length + fraction.length ≤ 15)
    (h : Spells (signText negative ++ (whole ++ '.' :: fraction)) (.plain (.ok (.number n)))) :
    (¬ IsSmall whole fraction →
      n.print.toList = signText negative ++ (whole ++ '.' :: trimZeros fraction)) ∧
    (IsSmall whole fraction → 'e' ∈ n.print.toList) := by
  have hdigits : ∀ d ∈ whole ++ fraction, d.isDigit :=
    List.forall_mem_append.mpr ⟨hwhole.digits.2, hfraction.2⟩
  have hmost : ofDigits (whole ++ fraction) < 10 ^ 15 := by
    refine (ofDigits_lt hdigits).trans_le (Nat.pow_le_pow_right (by decide) ?_)
    rwa [List.length_append]
  have hplaces : fraction.length ≤ 15 := by omega
  obtain rfl : n = signed negative ((Double.ofInt (ofDigits (whole ++ fraction))).div
      (powerOfTen fraction.length)) := by
    have hspells := spells_fraction negative hwhole hfraction (hmost.trans (by decide))
      (hplaces.trans (by decide))
    simpa using h.unique hspells
  rcases Nat.eq_zero_or_pos (ofDigits (whole ++ fraction)) with hzero | hpos
  · have hplain : PlainText whole fraction 0 0 :=
      ⟨hwhole.digits, hfraction, hwhole.head, by rw [hzero]; simp⟩
    rw [hzero, print_signed (number_quotient_zero hplaces) (by decide),
      ← DecimalStyle.positionalText_eq (.inr ⟨rfl, rfl⟩) hplain.trim (trimmed_trimZeros _)]
    exact ⟨fun _ => rfl, fun hsmall => absurd hzero hsmall.1.ne'⟩
  · obtain ⟨w, hnumber, hhidden, hfinite, hcontains⟩ := exists_quotient hpos hmost.le hplaces
    obtain ⟨m, j, hlast, hvalue⟩ := exists_coarsest hpos
    have hm : 0 < m := by omega
    have hle : m ≤ ofDigits (whole ++ fraction) :=
      hvalue ▸ Nat.le_mul_of_pos_right _ (Nat.pow_pos (by decide))
    have hj : j < 15 := by
      refine (Nat.pow_lt_pow_iff_right (by decide : 1 < 10)).mp (lt_of_le_of_lt ?_ hmost)
      rw [hvalue]
      exact Nat.le_mul_of_pos_left _ hm
    have hgrid : (ofDigits (whole ++ fraction) : ℚ) * 10 ^ (-(fraction.length : Int)) =
        m * 10 ^ (j - fraction.length : Int) := by
      rw [hvalue, sub_eq_add_neg, zpow_add₀ (by norm_num), zpow_natCast]
      push_cast
      ring
    have hplain : PlainText whole fraction m (j - fraction.length) :=
      ⟨hwhole.digits, hfraction, hwhole.head, hgrid⟩
    have hshortest : shortest double .toEven w = ⟨m, j - fraction.length⟩ := by
      refine shortest_eq (by decide) hhidden (hle.trans_lt (hmost.trans (by decide))) hlast
        (by omega) (by omega) ?_
      rwa [halfUnits, ← hgrid]
    have hgreatest : (m : ℚ) * 10 ^ (j - fraction.length : Int) < 10 ^ (15 + 1 : Int) := by
      rw [← hgrid]
      calc (ofDigits (whole ++ fraction) : ℚ) * 10 ^ (-(fraction.length : Int))
          ≤ ofDigits (whole ++ fraction) * 1 :=
            mul_le_mul_of_nonneg_left (zpow_le_one_of_nonpos₀ (by norm_num) (by omega))
              (Nat.cast_nonneg _)
        _ < 10 ^ 15 := by rw [mul_one]; exact_mod_cast hmost
        _ < 10 ^ (15 + 1 : Int) := by norm_num
    rw [print_signed hnumber hfinite, if_neg (double.hiddenBit_pos.trans_le hhidden).ne', hshortest,
      isSmall_iff hpos, hgrid]
    constructor
    · intro hlarge
      rw [DecimalStyle.decimalText_of_le rfl rfl hm (not_lt.mp hlarge) hgreatest,
        DecimalStyle.positionalText_eq (.inl hlast) hplain.trim (trimmed_trimZeros _)]
    · intro hsmall
      exact List.mem_append_right _ (DecimalStyle.decimalText_of_lt rfl hm hsmall)

end Fraction

end ScenePack.Json
