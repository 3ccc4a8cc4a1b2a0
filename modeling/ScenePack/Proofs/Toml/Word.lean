import Mathlib.Data.List.TakeWhile
import ScenePack.Proofs.Text.Digits
import ScenePack.Toml.Value

/-!
# Numbers and truth values in TOML

The words that TOML reads as a given number or truth value, among them all that this program writes.

* `SpellsNatural`, `SpellsFloat`: the texts of a natural number and of a double.

Results:
* `ofWord?_of_spellsNatural`, **`ofWord?_of_spellsFloat`**: they are read as the number.
* `isMoment_eq_false`: a text without colons is a date, or no moment at all.
-/

namespace ScenePack.Toml

open Text

variable {cs ds : List Char} {n : Nat} {x : Double} {negative : Bool} {sign : List Char}

/-- The texts of a natural number: plain digits, which a plus sign may precede. -/
inductive SpellsNatural (n : Nat) : List Char → Prop
  | mk {sign ds : List Char} : SpellsSign false sign → PlainDigits ds → ofDigits ds = n →
      SpellsNatural n (sign ++ ds)

/-- The texts of a double: a sign, and then digits around a point or the name of a special value. -/
inductive SpellsFloat : Double → List Char → Prop
  | decimal {negative : Bool} {sign whole fraction : List Char} : SpellsSign negative sign →
      PlainDigits whole → Digits fraction → {x : Double} →
      Double.ofDecimal negative (ofDigits (whole ++ fraction)) (-(fraction.length : Int)) = x →
      (x.isInfinite = true → negative = true) → SpellsFloat x (sign ++ (whole ++ '.' :: fraction))
  | infinity {negative : Bool} {sign : List Char} : SpellsSign negative sign →
      SpellsFloat (.ofNumber ⟨negative, BinaryFormat.double.infinity⟩) (sign ++ ['i', 'n', 'f'])
  | nan {negative : Bool} {sign : List Char} : SpellsSign negative sign →
      SpellsFloat (.ofNumber BinaryFormat.double.nan) (sign ++ ['n', 'a', 'n'])

/-! ## Digits -/

theorem digits?_of_forall {isDigit : Char → Bool} (hne : ds ≠ [])
    (hdigits : ∀ c ∈ ds, isDigit c = true) (hbar : '_' ∉ ds) : digits? isDigit ds = some ds := by
  fun_induction digits? isDigit ds <;> simp_all

/-- Digits are read as they are. -/
theorem digits?_of_digits (h : Digits ds) : digits? Char.isDigit ds = some ds :=
  digits?_of_forall h.1 h.2 fun hmem => absurd (h.2 _ hmem) (by decide)

/-- Nothing but digits and underscores is read. -/
theorem forall_mem_of_digits? {isDigit : Char → Bool} (h : digits? isDigit cs = some ds) :
    ∀ c ∈ cs, isDigit c = true ∨ c = '_' := by
  fun_induction digits? isDigit cs generalizing ds with
  | case1 | case3 | case5 | case7 => simp at h
  | case2 c hc => simp [hc]
  | case4 c rest hc ih | case6 c rest _ _ hc ih =>
    obtain ⟨es, hes, -⟩ := Option.map_eq_some_iff.mp h
    simpa [hc] using ih hes

theorem plainDigits?_of_plainDigits (h : PlainDigits ds) : plainDigits? ds = some ds := by
  unfold plainDigits?
  rw [digits?_of_digits h.digits, Option.bind_eq_bind, Option.bind_some]
  exact if_neg fun hzero => h.head hzero.2 hzero.1

theorem plainDigits?_eq_none {c : Char} (hmem : c ∈ cs) (hdigit : c.isDigit = false) (hbar : c ≠ '_') :
    plainDigits? cs = none := by
  unfold plainDigits?
  cases hds : digits? Char.isDigit cs with
  | none => rfl
  | some ds =>
    rcases forall_mem_of_digits? hds c hmem with h | h
    · exact absurd h (by simp [hdigit])
    · exact absurd h hbar

/-! ## Signs -/

/-- The sign is split off a text that does not begin with one. -/
theorem splitSign_append (h : SpellsSign negative sign) (hplus : cs.head? ≠ some '+')
    (hminus : cs.head? ≠ some '-') : splitSign (sign ++ cs) = (negative, cs) := by
  cases h with
  | none =>
    rw [List.nil_append]
    unfold splitSign
    split <;> simp_all
  | plus => rfl
  | minus => rfl

theorem PlainDigits.head?_append_ne {c : Char} {rest : List Char} (h : PlainDigits ds)
    (hc : c.isDigit = false) : (ds ++ rest).head? ≠ some c := by
  rw [List.head?_append, Option.or_of_isSome (List.isSome_head?.mpr h.digits.1)]
  intro hhead
  exact absurd (h.digits.2 c (List.mem_of_mem_head? hhead)) (by simp [hc])

/-! ## Integers -/

/-- A text with a second character that marks no base is a decimal integer. -/
theorem integer?_eq (h : ∀ c ∈ cs, c ≠ 'x' ∧ c ≠ 'o' ∧ c ≠ 'b') : integer? cs =
    (plainDigits? (splitSign cs).2).bind fun ds =>
      fitting? (if (splitSign cs).1 then -(ofDigits ds : Int) else ofDigits ds) := by
  unfold integer?
  split
  · exact absurd rfl (h 'x' (by simp)).1
  · exact absurd rfl (h 'o' (by simp)).2.1
  · exact absurd rfl (h 'b' (by simp)).2.2
  · rfl

theorem integer?_of_spellsNatural (h : SpellsNatural n cs) (hn : n < 0x8000000000000000) :
    integer? cs = some (n : Int) := by
  obtain ⟨hsign, hds, rfl⟩ := h
  rename_i sign ds
  have hmarks : ∀ c ∈ sign ++ ds, c ≠ 'x' ∧ c ≠ 'o' ∧ c ≠ 'b' := by
    intro c hc
    rcases List.mem_append.mp hc with hc | hc
    · cases hsign <;> simp_all
    · refine ⟨?_, ?_, ?_⟩ <;> rintro rfl <;> exact absurd (hds.digits.2 _ hc) (by decide)
  have hhead {c : Char} (hc : c.isDigit = false) : ds.head? ≠ some c := fun hhead =>
    absurd (hds.digits.2 c (List.mem_of_mem_head? hhead)) (by simp [hc])
  rw [integer?_eq hmarks, splitSign_append hsign (hhead rfl) (hhead rfl), plainDigits?_of_plainDigits hds,
    Option.bind_some, if_neg Bool.false_ne_true, fitting?, if_pos (by omega)]

/-! ## Dates and times -/

/-- A date has a dash behind its year. -/
theorem dash_mem_of_isDate (h : isDate cs = true) : cs[4]? = some '-' := by
  unfold isDate at h
  split at h
  · rfl
  · exact absurd h Bool.false_ne_true

/-- A time has a colon behind its hours. -/
theorem colon_mem_of_isTime (h : isTime cs = true) : cs[2]? = some ':' := by
  have hclock : isClock (cs.take 5) = true := (Bool.and_eq_true_iff.mp h).1
  unfold isClock at hclock
  split at hclock
  · rename_i h1 h2 m1 m2 heq
    have hfront : (cs.take 5)[2]? = some ':' := by rw [heq]; rfl
    rwa [List.getElem?_take_of_lt (by decide)] at hfront
  · exact absurd hclock Bool.false_ne_true

/-- A word without a colon, and without a dash behind its first character, is no moment. -/
theorem isMoment_eq_false (hcolon : ':' ∉ cs) (hdash : '-' ∉ cs.tail) : isMoment cs = false := by
  have hdate : isDate cs = false := by
    refine Bool.eq_false_iff.mpr fun h => hdash ?_
    rw [List.mem_iff_getElem?]
    exact ⟨3, by rw [List.getElem?_tail]; exact dash_mem_of_isDate h⟩
  have hfront : isDate (cs.take 10) = false := by
    refine Bool.eq_false_iff.mpr fun h => hdash ?_
    have hmem := dash_mem_of_isDate h
    rw [List.getElem?_take_of_lt (by decide)] at hmem
    rw [List.mem_iff_getElem?]
    exact ⟨3, by rw [List.getElem?_tail]; exact hmem⟩
  have htime : isTime cs = false :=
    Bool.eq_false_iff.mpr fun h => hcolon (List.mem_of_getElem? (colon_mem_of_isTime h))
  simp [isMoment, hdate, hfront, htime]

/-! ## Floats -/

/-- The mark of an exponent is none of a number's other characters. -/
theorem isExponentMark_eq_false {c : Char} (h : c.isDigit = true ∨ c = '.') :
    isExponentMark c = false := by
  refine Bool.eq_false_iff.mpr fun hmark => ?_
  simp only [isExponentMark, Bool.or_eq_true, decide_eq_true_eq] at hmark
  rcases hmark with rfl | rfl <;> exact absurd h (by decide)

/-- **A word is read as the double that it spells.** -/
theorem float?_of_spellsFloat (h : SpellsFloat x cs) : float? cs = some x := by
  cases h with
  | @decimal negative sign whole fraction hsign hwhole hfraction x hx hinf =>
    have hchars : ∀ c ∈ whole ++ '.' :: fraction, c.isDigit = true ∨ c = '.' := by
      intro c hc
      rcases List.mem_append.mp hc with hc | hc
      · exact .inl (hwhole.digits.2 c hc)
      · rcases List.mem_cons.mp hc with rfl | hc
        · exact .inr rfl
        · exact .inl (hfraction.2 c hc)
    have hmarks : ∀ c ∈ whole ++ '.' :: fraction, (!isExponentMark c) = true := fun c hc => by
      rw [isExponentMark_eq_false (hchars c hc)]
      rfl
    have hpoint : ∀ c ∈ whole, decide (c ≠ '.') = true := fun c hc => by
      refine decide_eq_true ?_
      rintro rfl
      exact absurd (hwhole.digits.2 _ hc) (by decide)
    have hnotinf : whole ++ '.' :: fraction ≠ ['i', 'n', 'f'] := fun heq =>
      absurd (hchars 'i' (by simp [heq])) (by decide)
    have hnan : whole ++ '.' :: fraction ≠ ['n', 'a', 'n'] := fun heq =>
      absurd (hchars 'n' (by simp [heq])) (by decide)
    have hmantissa : (whole ++ '.' :: fraction).takeWhile (!isExponentMark ·) =
        whole ++ '.' :: fraction := List.takeWhile_eq_self_iff.mpr hmarks
    have hexponent : (whole ++ '.' :: fraction).dropWhile (!isExponentMark ·) = [] :=
      List.dropWhile_eq_nil_iff.mpr hmarks
    have htake : (whole ++ '.' :: fraction).takeWhile (· ≠ '.') = whole := by
      rw [List.takeWhile_append_of_pos hpoint, List.takeWhile_cons_of_neg (by simp), List.append_nil]
    have hdrop : (whole ++ '.' :: fraction).dropWhile (· ≠ '.') = '.' :: fraction := by
      rw [List.dropWhile_append_of_pos hpoint, List.dropWhile_cons_of_neg (by simp)]
    unfold float?
    rw [splitSign_append hsign (PlainDigits.head?_append_ne hwhole rfl)
      (PlainDigits.head?_append_ne hwhole rfl)]
    simp only [hnotinf, hnan, hmantissa, hexponent, htake, hdrop, if_false,
      plainDigits?_of_plainDigits hwhole, digits?_of_digits hfraction]
    simpa [hx] using hinf
  | infinity hsign =>
    unfold float?
    rw [splitSign_append hsign (by decide) (by decide)]
    rfl
  | nan hsign =>
    unfold float?
    rw [splitSign_append hsign (by decide) (by decide)]
    rfl

/-! ## Words -/

/-- A character of a number or of a special value's name. -/
def IsNumberChar (c : Char) : Prop := c.isDigit = true ∨ c ∈ ['+', '-', '.', 'i', 'n', 'f', 'a']

/-- Numbers hold no letter of a truth value's end or of a base's mark, and no colon. -/
theorem IsNumberChar.ne {c d : Char} (h : IsNumberChar c) (hd : d ∈ ['e', 'x', 'o', 'b', ':']) :
    c ≠ d := by
  rintro rfl
  rcases h with h | h
  · have hletters : ['e', 'x', 'o', 'b', ':'].any Char.isDigit = false := rfl
    exact List.any_eq_false.mp hletters c hd h
  · have hletters : ['e', 'x', 'o', 'b', ':'].any ['+', '-', '.', 'i', 'n', 'f', 'a'].contains =
        false := rfl
    exact List.any_eq_false.mp hletters c hd (List.contains_iff_mem.mpr h)

theorem SpellsSign.isNumberChar (h : SpellsSign negative sign) : ∀ c ∈ sign, IsNumberChar c := by
  cases h <;> simp [IsNumberChar]

theorem Digits.isNumberChar (h : Digits ds) : ∀ c ∈ ds, IsNumberChar c := fun c hc => .inl (h.2 c hc)

theorem SpellsNatural.isNumberChar (h : SpellsNatural n cs) : ∀ c ∈ cs, IsNumberChar c := by
  obtain ⟨hsign, hds, -⟩ := h
  exact List.forall_mem_append.mpr ⟨SpellsSign.isNumberChar hsign, Digits.isNumberChar hds.digits⟩

theorem SpellsFloat.isNumberChar (h : SpellsFloat x cs) : ∀ c ∈ cs, IsNumberChar c := by
  cases h with
  | decimal hsign hwhole hfraction =>
    refine List.forall_mem_append.mpr ⟨SpellsSign.isNumberChar hsign, ?_⟩
    refine List.forall_mem_append.mpr ⟨Digits.isNumberChar hwhole.digits, ?_⟩
    exact List.forall_mem_cons.mpr ⟨.inr (by decide), Digits.isNumberChar hfraction⟩
  | infinity hsign | nan hsign =>
    refine List.forall_mem_append.mpr ⟨SpellsSign.isNumberChar hsign, ?_⟩
    simp [IsNumberChar]

/-- A dash can only be a number's sign. -/
theorem SpellsSign.not_mem_tail (h : SpellsSign negative sign) (hcs : '-' ∉ cs) :
    '-' ∉ (sign ++ cs).tail := by
  cases h with
  | none => exact fun hmem => hcs (List.mem_of_mem_tail hmem)
  | plus | minus => exact hcs

theorem Digits.not_mem_dash (h : Digits ds) : '-' ∉ ds := fun hmem =>
  absurd (h.2 _ hmem) (by decide)

/-- A word of a number's characters, whose sign stands in front, is a number. -/
theorem ofWord?_eq (hchars : ∀ c ∈ cs, IsNumberChar c) (hdash : '-' ∉ cs.tail) :
    Value.ofWord? cs = (integer? cs).elim ((float? cs).map .float) fun n => some (.integer n) := by
  have htrue : cs ≠ ['t', 'r', 'u', 'e'] := by
    rintro rfl
    exact (hchars 'e' (by decide)).ne (by decide) rfl
  have hfalse : cs ≠ ['f', 'a', 'l', 's', 'e'] := by
    rintro rfl
    exact (hchars 'e' (by decide)).ne (by decide) rfl
  have hcolon : ':' ∉ cs := fun hmem => (hchars _ hmem).ne (by decide) rfl
  unfold Value.ofWord?
  rw [if_neg htrue, if_neg hfalse, isMoment_eq_false hcolon hdash, if_neg Bool.false_ne_true]
  cases integer? cs <;> rfl

theorem ofWord?_of_spellsNatural (h : SpellsNatural n cs) (hn : n < 0x8000000000000000) :
    Value.ofWord? cs = some (.integer n) := by
  have hdash : '-' ∉ cs.tail := by
    obtain ⟨hsign, hds, -⟩ := h
    exact SpellsSign.not_mem_tail hsign (Digits.not_mem_dash hds.digits)
  rw [ofWord?_eq h.isNumberChar hdash, integer?_of_spellsNatural h hn]
  rfl

/-- **A word that spells a double is read as a float.** -/
theorem ofWord?_of_spellsFloat (h : SpellsFloat x cs) : Value.ofWord? cs = some (.float x) := by
  have hmarks : ∀ c ∈ cs, c ≠ 'x' ∧ c ≠ 'o' ∧ c ≠ 'b' := fun c hc =>
    ⟨(h.isNumberChar c hc).ne (by decide), (h.isNumberChar c hc).ne (by decide),
      (h.isNumberChar c hc).ne (by decide)⟩
  have hfloat := float?_of_spellsFloat h
  have hboth : '-' ∉ cs.tail ∧ integer? cs = none := by
    rw [integer?_eq hmarks]
    cases h with
    | @decimal negative sign whole fraction hsign hwhole hfraction =>
      have hbody : '-' ∉ whole ++ '.' :: fraction := by
        simp [Digits.not_mem_dash hwhole.digits, Digits.not_mem_dash hfraction]
      refine ⟨SpellsSign.not_mem_tail hsign hbody, ?_⟩
      rw [splitSign_append hsign (PlainDigits.head?_append_ne hwhole rfl)
        (PlainDigits.head?_append_ne hwhole rfl),
        plainDigits?_eq_none (c := '.') (by simp) rfl (by decide)]
      rfl
    | infinity hsign | nan hsign =>
      refine ⟨SpellsSign.not_mem_tail hsign (by decide), ?_⟩
      rw [splitSign_append hsign (by decide) (by decide)]
      rfl
  rw [ofWord?_eq h.isNumberChar hboth.1, hboth.2, hfloat]
  rfl

end ScenePack.Toml
