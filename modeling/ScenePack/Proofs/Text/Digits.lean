import Mathlib.Algebra.Group.Nat.Defs
import Mathlib.Data.List.Induction
import ScenePack.Text.Natural

/-!
# Decimal digits

What digits stand for is said by the standard library, in `Nat.ofDigitChars`, and how a number is
written in digits by `Nat.toDigits`. The reader of digits agrees with the one and undoes the other.

* `Digits`: at least one decimal digit, and nothing else.
* `PlainDigits`: digits without a needless zero in front.
* `SpellsCount`: the texts of a 32-bit number.
* `SpellsSign`: the texts of a sign.

Results:
* `ofDigits_eq`, `ofDigits_toDigits`, `ofDigits_append`: the number of digits.
* `digits_toDigits`, `head?_toDigits_ne_zero`: the digits of a number.
* **`toDigits_ofDigits`**: digits without a needless zero are those of their number.
* **`count32?_eq_some_iff`**: a text is read as a 32-bit number exactly if it spells it.
-/

namespace ScenePack.Text

variable {cs ds : List Char} {c : Char}

/-- At least one decimal digit, and nothing else. -/
def Digits (cs : List Char) : Prop := cs ≠ [] ∧ ∀ c ∈ cs, c.isDigit

instance (cs : List Char) : Decidable (Digits cs) :=
  decidable_of_iff (cs.isEmpty = false ∧ cs.all Char.isDigit = true) (by simp [Digits])

/-- Digits without a needless zero in front: only a zero of its own begins with one. -/
structure PlainDigits (cs : List Char) : Prop where
  digits : Digits cs
  head : 1 < cs.length → cs.head? ≠ some '0'

/-- The texts of a sign; `negative` is whether it is a minus. -/
inductive SpellsSign : (negative : Bool) → List Char → Prop
  | none : SpellsSign false []
  | plus : SpellsSign false ['+']
  | minus : SpellsSign true ['-']

/-- The texts of a 32-bit number: decimal digits, which a plus sign may precede. -/
inductive SpellsCount (n : UInt32) : List Char → Prop
  | plain {ds : List Char} : Digits ds → Nat.ofDigitChars 10 ds 0 = n.toNat → SpellsCount n ds
  | plus {ds : List Char} : Digits ds → Nat.ofDigitChars 10 ds 0 = n.toNat →
      SpellsCount n ('+' :: ds)

theorem spellsSign_minus (negative : Bool) :
    SpellsSign negative (if negative then ['-'] else []) := by
  cases negative
  · exact .none
  · exact .minus

/-! ## The number of digits -/

theorem digitValue_of_isDigit (h : c.isDigit) : digitValue c = c.toNat - '0'.toNat := if_pos h

/-- The digits of a text read on from `n`. -/
theorem foldl_digitValue (hdigits : ∀ c ∈ ds, c.isDigit) (n : Nat) :
    ds.foldl (fun n c => n * 10 + digitValue c) n = Nat.ofDigitChars 10 ds n := by
  induction ds generalizing n with
  | nil => simp
  | cons d ds ih =>
    rw [List.forall_mem_cons] at hdigits
    rw [List.foldl_cons, Nat.ofDigitChars_cons, ih hdigits.2, digitValue_of_isDigit hdigits.1,
      Nat.mul_comm]

theorem ofDigits_eq (hdigits : ∀ c ∈ ds, c.isDigit) : ofDigits ds = Nat.ofDigitChars 10 ds 0 :=
  foldl_digitValue hdigits 0

theorem ofDigits_append {es : List Char} (hds : ∀ c ∈ ds, c.isDigit) (hes : ∀ c ∈ es, c.isDigit) :
    ofDigits (ds ++ es) = ofDigits ds * 10 ^ es.length + ofDigits es := by
  rw [ofDigits_eq (List.forall_mem_append.mpr ⟨hds, hes⟩), Nat.ofDigitChars_append,
    Nat.ofDigitChars_eq_ofDigitChars_zero, ofDigits_eq hds, ofDigits_eq hes, Nat.mul_comm]

theorem ofDigits_replicate_zero (n : Nat) : ofDigits (List.replicate n '0') = 0 := by
  have hzeros : ∀ c ∈ List.replicate n '0', c.isDigit := by
    intro c hc
    rw [List.eq_of_mem_replicate hc]
    rfl
  rw [ofDigits_eq hzeros, Nat.ofDigitChars_replicate_zero, Nat.mul_zero]

theorem digitValue_lt (h : c.isDigit) : digitValue c < 10 := by
  have hrange : 48 ≤ c.toNat ∧ c.toNat ≤ 57 := by
    simpa [Char.isDigit, UInt32.le_iff_toNat_le] using h
  have hzero : '0'.toNat = 48 := rfl
  rw [digitValue_of_isDigit h]
  omega

theorem digitChar_digitValue (h : c.isDigit) : (digitValue c).digitChar = c := by
  have hrange : 48 ≤ c.toNat ∧ c.toNat ≤ 57 := by
    simpa [Char.isDigit, UInt32.le_iff_toNat_le] using h
  have hzero : '0'.toNat = 48 := rfl
  rw [← Char.toNat_inj, Nat.toNat_digitChar_of_lt_ten (digitValue_lt h), digitValue_of_isDigit h]
  omega

theorem ofDigits_singleton (c : Char) : ofDigits [c] = digitValue c := by
  simp [ofDigits, ofDigitsIn]

theorem ofDigits_cons (hc : c.isDigit) (hds : ∀ d ∈ ds, d.isDigit) :
    ofDigits (c :: ds) = digitValue c * 10 ^ ds.length + ofDigits ds := by
  rw [← List.singleton_append, ofDigits_append (by simpa using hc) hds, ofDigits_singleton]

/-- Digits are less than one more digit. -/
theorem ofDigits_lt (hds : ∀ d ∈ ds, d.isDigit) : ofDigits ds < 10 ^ ds.length := by
  induction ds with
  | nil => exact Nat.one_pos
  | cons c ds ih =>
    obtain ⟨hc, hds⟩ := List.forall_mem_cons.mp hds
    have hvalue : digitValue c * 10 ^ ds.length ≤ 9 * 10 ^ ds.length :=
      Nat.mul_le_mul_right _ (Nat.le_of_lt_succ (digitValue_lt hc))
    have hrest := ih hds
    rw [ofDigits_cons hc hds, List.length_cons, Nat.pow_succ]
    omega

theorem ofDigits_pos (hds : Digits ds) (hhead : ds.head? ≠ some '0') : 0 < ofDigits ds := by
  obtain ⟨hne, hds⟩ := hds
  obtain ⟨c, ds, rfl⟩ := List.exists_cons_of_ne_nil hne
  obtain ⟨hc, hds⟩ := List.forall_mem_cons.mp hds
  have hvalue : 0 < digitValue c := by
    refine Nat.pos_of_ne_zero fun hzero => hhead ?_
    rw [List.head?_cons, ← digitChar_digitValue hc, hzero]
    rfl
  rw [ofDigits_cons hc hds]
  exact Nat.add_pos_left (Nat.mul_pos hvalue (Nat.pow_pos (by decide))) _

/-! ## The digits of a number -/

theorem digits_toDigits (n : Nat) : Digits (Nat.toDigits 10 n) :=
  ⟨Nat.toDigits_ne_nil, fun _ => Nat.isDigit_of_mem_toDigits (by decide) (by decide)⟩

theorem ofDigits_toDigits (n : Nat) : ofDigits (Nat.toDigits 10 n) = n := by
  rw [ofDigits_eq (digits_toDigits n).2, Nat.ofDigitChars_ten_toDigits]

/-- A number other than zero is written without a zero in front. -/
theorem head?_toDigits_ne_zero {n : Nat} (h : 0 < n) : (Nat.toDigits 10 n).head? ≠ some '0' := by
  induction n using Nat.strongRecOn with
  | ind n ih =>
    rcases Nat.lt_or_ge n 10 with hn | hn
    · have hdigit : ∀ d < 10, 0 < d → d.digitChar ≠ '0' := by decide
      rw [Nat.toDigits_of_lt_base hn, List.head?_cons, ne_eq, Option.some_inj]
      exact hdigit n hn h
    · have hfront : 0 < n / 10 := by omega
      rw [Nat.toDigits_of_base_le (by decide) hn, List.head?_append, Option.or_of_isSome]
      · exact ih (n / 10) (Nat.div_lt_self h (by decide)) hfront
      · exact List.isSome_head?.mpr Nat.toDigits_ne_nil

theorem plainDigits_toDigits (n : Nat) : PlainDigits (Nat.toDigits 10 n) := by
  refine ⟨digits_toDigits n, fun hlength => ?_⟩
  refine head?_toDigits_ne_zero (Nat.pos_of_ne_zero ?_)
  rintro rfl
  exact absurd hlength (by decide)

/-- **Digits without a needless zero are those of their number.** -/
theorem toDigits_ofDigits (h : PlainDigits ds) : Nat.toDigits 10 (ofDigits ds) = ds := by
  induction ds using List.reverseRecOn with
  | nil => exact absurd rfl h.digits.1
  | append_singleton ds c ih =>
    obtain ⟨hds, hc⟩ := List.forall_mem_append.mp h.digits.2
    have hdigit : c.isDigit := hc c (List.mem_singleton.mpr rfl)
    rcases List.eq_nil_or_concat ds with rfl | ⟨_, _, hconcat⟩
    · rw [List.nil_append, ofDigits_singleton, Nat.toDigits_of_lt_base (digitValue_lt hdigit),
        digitChar_digitValue hdigit]
    · have hne : ds ≠ [] := by
        rw [hconcat]
        simp
      have hhead : ds.head? ≠ some '0' := by
        have hplain := h.head (by simpa using List.length_pos_iff.mpr hne)
        rwa [List.head?_append, Option.or_of_isSome (List.isSome_head?.mpr hne)] at hplain
      have hpos := ofDigits_pos ⟨hne, hds⟩ hhead
      rw [ofDigits_append hds hc, ofDigits_singleton, List.length_singleton, Nat.pow_one,
        Nat.mul_comm, ← Nat.toDigits_append_toDigits (by decide) hpos (digitValue_lt hdigit),
        ih ⟨⟨hne, hds⟩, fun _ => hhead⟩, Nat.toDigits_of_lt_base (digitValue_lt hdigit),
        digitChar_digitValue hdigit]

/-- Digits that are as many are told apart by their number. -/
theorem eq_of_ofDigits_eq {es : List Char} (hds : ∀ c ∈ ds, c.isDigit) (hes : ∀ c ∈ es, c.isDigit)
    (hlength : ds.length = es.length) (h : ofDigits ds = ofDigits es) : ds = es := by
  -- with a one in front, they have no needless zero
  have hone (ds : List Char) (hds : ∀ c ∈ ds, c.isDigit) :
      Nat.toDigits 10 (10 ^ ds.length + ofDigits ds) = '1' :: ds := by
    have hvalue : ofDigits ('1' :: ds) = 10 ^ ds.length + ofDigits ds := by
      rw [ofDigits_cons rfl hds, show digitValue '1' = 1 from rfl, Nat.one_mul]
    rw [← hvalue]
    exact toDigits_ofDigits ⟨⟨nofun, List.forall_mem_cons.mpr ⟨rfl, hds⟩⟩, by simp⟩
  have heq := hone ds hds
  rw [hlength, h, hone es hes] at heq
  exact (List.cons.inj heq).2.symm

theorem getLast?_eq_zero_iff (hds : Digits ds) : ds.getLast? = some '0' ↔ ofDigits ds % 10 = 0 := by
  obtain ⟨hne, hds⟩ := hds
  rw [← List.dropLast_concat_getLast hne] at hds ⊢
  obtain ⟨hfront, hlast⟩ := List.forall_mem_append.mp hds
  have hlast := hlast _ (List.mem_singleton.mpr rfl)
  generalize ds.getLast hne = c at *
  rw [List.getLast?_append, List.getLast?_singleton, Option.some_or, Option.some_inj,
    ofDigits_append hfront (by simpa using hlast), ofDigits_singleton, List.length_singleton,
    Nat.pow_one, Nat.mul_add_mod_self_right, Nat.mod_eq_of_lt (digitValue_lt hlast)]
  constructor
  · rintro rfl
    rfl
  · intro hzero
    rw [← digitChar_digitValue hlast, hzero]
    rfl

/-! ## Readers of numbers -/

theorem natural?_eq_some_iff {n : Nat} :
    natural? cs = some n ↔ Digits cs ∧ Nat.ofDigitChars 10 cs 0 = n := by
  unfold natural?
  by_cases hcs : Digits cs
  · have htest : (!cs.isEmpty && cs.all Char.isDigit) = true := by simpa [Digits] using hcs
    simp [htest, hcs, ofDigits_eq hcs.2]
  · have htest : ¬ (!cs.isEmpty && cs.all Char.isDigit) = true := by simpa [Digits] using hcs
    simp [htest, hcs]

/-- No digit is a plus sign. -/
theorem Digits.head?_ne_plus (h : Digits cs) : cs.head? ≠ some '+' := by
  intro hplus
  exact absurd (h.2 '+' (List.mem_of_mem_head? hplus)) (by decide)

theorem spellsCount_iff {n : UInt32} : SpellsCount n cs ↔
    Digits (if cs.head? = some '+' then cs.drop 1 else cs) ∧
      Nat.ofDigitChars 10 (if cs.head? = some '+' then cs.drop 1 else cs) 0 = n.toNat := by
  constructor
  · rintro (⟨hds, hn⟩ | ⟨hds, hn⟩)
    · rw [if_neg hds.head?_ne_plus]
      exact ⟨hds, hn⟩
    · exact ⟨hds, hn⟩
  · rintro ⟨hds, hn⟩
    split at hds
    · rename_i hplus
      rw [if_pos hplus] at hn
      obtain ⟨rest, rfl⟩ := List.head?_eq_some_iff.mp hplus
      exact .plus hds hn
    · rename_i hplus
      rw [if_neg hplus] at hn
      exact .plain hds hn

/-- **A text is read as a 32-bit number exactly if it spells it.** -/
theorem count32?_eq_some_iff {n : UInt32} : count32? cs = some n ↔ SpellsCount n cs := by
  rw [spellsCount_iff, ← natural?_eq_some_iff]
  unfold count32?
  cases natural? (if cs.head? = some '+' then cs.drop 1 else cs) with
  | none => simp
  | some m =>
    have hn : n.toNat < 4294967296 := n.toNat_lt
    rw [Option.bind_eq_bind, Option.bind_some, Option.some_inj]
    rcases Nat.lt_or_ge m UInt32.size with hm | hm
    · rw [if_pos hm, Option.some_inj, ← UInt32.toNat_inj, UInt32.toNat_ofNat_of_lt' hm]
    · rw [if_neg (Nat.not_lt.mpr hm)]
      refine iff_of_false nofun ?_
      rintro rfl
      exact absurd hm (Nat.not_le.mpr hn)

/-- A number is spelled by its own digits. -/
theorem spellsCount_toDigits (n : UInt32) : SpellsCount n (Nat.toDigits 10 n.toNat) :=
  .plain (digits_toDigits _) Nat.ofDigitChars_ten_toDigits

theorem SpellsCount.not_mem_point {n : UInt32} (h : SpellsCount n cs) : '.' ∉ cs := by
  rcases h with ⟨hds, -⟩ | ⟨hds, -⟩
  · exact fun hmem => absurd (hds.2 _ hmem) (by decide)
  · rw [List.mem_cons, not_or]
    exact ⟨by decide, fun hmem => absurd (hds.2 _ hmem) (by decide)⟩

end ScenePack.Text
