import ScenePack.Proofs.Text.Digits
import ScenePack.Proofs.Text.Parser
import ScenePack.Ron.Word

/-!
# Words of RON

What the readers of blanks, names, numbers and truth values take, as long as no word goes on behind
it.

* `SpellsGap`: blanks and line comments.
* `SpellsSingle`: the texts of a single.

Results:
* `SpellsGap.reads`: blanks and comments are passed over.
* `reads_name`, `reads_bool`, `reads_natural64`: names, truth values and natural numbers.
* **`SpellsSingle.reads`**: a single is read as what it spells.
-/

namespace ScenePack.Ron

open Text (Parser Stops Digits SpellsSign)
open Text.Parser

variable {cs ds rest : List Char} {c : Char} {kind : Char → Bool} {negative : Bool} {sign : List Char}

/-- Blanks, and comments to the end of their lines. -/
inductive SpellsGap : List Char → Prop
  | nil : SpellsGap []
  | blank {c : Char} {cs : List Char} : isBlank c = true → SpellsGap cs → SpellsGap (c :: cs)
  | remark {ds cs : List Char} : (∀ d ∈ ds, d ≠ '\n') → SpellsGap cs →
      SpellsGap ('/' :: '/' :: (ds ++ '\n' :: cs))

/-- The texts of a single: a sign, and then digits around a point or the name of a special value. -/
inductive SpellsSingle : Single → List Char → Prop
  | decimal {negative : Bool} {sign whole fraction : List Char} : SpellsSign negative sign →
      Digits whole → Digits fraction →
      SpellsSingle (.ofDecimal negative (Text.ofDigits (whole ++ fraction)) (-(fraction.length : Int)))
        (sign ++ (whole ++ '.' :: fraction))
  | infinity {negative : Bool} {sign : List Char} : SpellsSign negative sign →
      SpellsSingle (.ofNumber ⟨negative, BinaryFormat.single.infinity⟩) (sign ++ ['i', 'n', 'f'])
  | nan {negative : Bool} {sign : List Char} : SpellsSign negative sign →
      SpellsSingle (.ofNumber BinaryFormat.single.nan) (sign ++ ['N', 'a', 'N'])

/-! ## Blanks and comments -/

/-- What blanks and comments may begin with. -/
theorem isBlank_cases (h : isBlank c = true) : c ∈ [' ', '\t', '\n', '\r'] := by
  simpa [isBlank, or_assoc] using h

/-- Behind a gap a text goes on as it does, for characters that begin none. -/
theorem SpellsGap.stops (h : SpellsGap cs) (hkind : [' ', '\t', '\n', '\r', '/'].any kind = false)
    (hrest : Stops kind rest) : Stops kind (cs ++ rest) := by
  have hkind : ∀ c ∈ [' ', '\t', '\n', '\r', '/'], kind c = false := by simpa using hkind
  cases h with
  | nil => exact hrest
  | blank hc =>
    rw [List.cons_append, Stops.cons_iff]
    have hsub : [' ', '\t', '\n', '\r'] ⊆ [' ', '\t', '\n', '\r', '/'] := by simp
    exact hkind _ (hsub (isBlank_cases hc))
  | remark => exact Stops.cons_iff.mpr (hkind '/' (by simp))

/-- A comment is read to the end of its line. -/
theorem reads_comment (hds : ∀ d ∈ ds, d ≠ '\n') :
    comment.Reads ('/' :: '/' :: ds) () ('\n' :: rest) := by
  have hspan : Reads (span (· ≠ '\n')) ds ds ('\n' :: rest) :=
    Reads.span (fun d hd => decide_eq_true (hds d hd)) (by simp)
  have hmarks : Reads (word "//") ['/', '/'] () (ds ++ '\n' :: rest) := Reads.word rfl _
  exact (hmarks.bind (hspan.bind_nil (Reads.pure () _))).orElse

/-- A piece of a gap: blanks, or a comment. -/
def gapPiece : Parser Unit := (do let _ ← span1 isBlank) <|> comment

theorem fails_gapPiece (h : Stops (fun c => isBlank c || c = '/') rest) : gapPiece.Fails rest := by
  have hblank : Stops isBlank rest := h.mono fun c hc => by simp [hc]
  have hslash : Stops (· = '/') rest := h.mono fun c hc => by simp_all
  refine Fails.orElse (Fails.span1 hblank).bind ?_
  exact Fails.orElse (Fails.word '/' rfl hslash).bind (Fails.word '/' rfl hslash).bind

/-- **A gap is passed over**, also behind further blanks. -/
theorem SpellsGap.reads_many (h : SpellsGap cs) (hrest : Stops (fun c => isBlank c || c = '/') rest)
    (bs : List Char) (hbs : ∀ c ∈ bs, isBlank c = true) :
    ∃ us, (many gapPiece).Reads (bs ++ cs) us rest := by
  have hfront {bs more : List Char} (hbs : ∀ c ∈ bs, isBlank c = true)
      (hstops : Stops isBlank (more ++ rest)) (hmore : ∃ us, (many gapPiece).Reads more us rest) :
      ∃ us, (many gapPiece).Reads (bs ++ more) us rest := by
    obtain ⟨us, hus⟩ := hmore
    rcases eq_or_ne bs [] with rfl | hne
    · exact ⟨us, hus⟩
    · have hpiece : gapPiece.Reads bs () (more ++ rest) :=
        ((Reads.span1 hbs hne hstops).bind_nil (Reads.pure () _)).orElse
      exact ⟨_, Reads.many_cons hpiece hne hus⟩
  induction h generalizing bs with
  | nil =>
    refine hfront hbs ?_ ⟨[], Reads.many_nil (fails_gapPiece hrest)⟩
    exact hrest.mono fun c hc => by simp [hc]
  | @blank c cs hc hcs ih =>
    have hall : ∀ d ∈ bs ++ [c], isBlank d = true :=
      List.forall_mem_append.mpr ⟨hbs, List.forall_mem_singleton.mpr hc⟩
    simpa using ih (bs ++ [c]) hall
  | @remark ds cs hds hcs ih =>
    refine hfront hbs (Stops.cons_iff.mpr rfl) ?_
    obtain ⟨us, hus⟩ := ih ['\n'] (List.forall_mem_singleton.mpr rfl)
    have hpiece : gapPiece.Reads ('/' :: '/' :: ds) () ('\n' :: cs ++ rest) :=
      Reads.orElse_of_fails (Fails.span1 (Stops.cons_iff.mpr rfl)).bind (reads_comment hds)
    have hmany := Reads.many_cons hpiece (by simp) hus
    exact ⟨_, by simpa using hmany⟩

theorem SpellsGap.reads (h : SpellsGap cs) (hrest : Stops (fun c => isBlank c || c = '/') rest) :
    gap.Reads cs () rest := by
  obtain ⟨us, hus⟩ := h.reads_many hrest [] (by simp)
  exact Reads.bind_nil hus (Reads.pure () rest)

/-! ## Names -/

/-- Nothing that goes on with a name goes on behind a word. -/
theorem isRawChar_of_isNameChar (h : isNameChar c = true) : isRawChar c = true := by
  simp [isRawChar, h]

theorem isNameChar_of_isDigit (h : c.isDigit = true) : isNameChar c = true := by
  simp [isNameChar, Char.isAlphanum, h]

/-- The characters of a name. -/
structure IsName (key : String) : Prop where
  start : ∃ c ∈ key.toList.head?, isNameStart c = true ∧ c ≠ 'r'
  chars : ∀ c ∈ key.toList, isNameChar c = true

/-- A plain name is read to its end. -/
theorem reads_name {key : String} (h : IsName key) (hrest : Stops isRawChar rest) :
    name.Reads key.toList key rest := by
  obtain ⟨⟨c, hhead, hstart, hr⟩, hchars⟩ := h
  obtain ⟨cs, hcs⟩ := List.head?_eq_some_iff.mp hhead
  have hraw : rawName.Fails (key.toList ++ rest) := by
    rw [hcs]
    exact Fails.bind (Fails.word 'r' rfl (Stops.cons_iff.mpr (decide_eq_false hr)))
  have hahead : Reads (ahead isNameStart) [] true (key.toList ++ rest) := by
    have h := Reads.ahead isNameStart (key.toList ++ rest)
    simpa [hcs, hstart] using h
  have hspan : Reads (span1 isRawChar) key.toList key.toList rest :=
    Reads.span1 (fun d hd => isRawChar_of_isNameChar (hchars d hd)) (by simp [hcs]) hrest
  have hnot : ¬ (key.toList = ['r'] ∧
      rest.head?.any (fun c => c = '"' || c = '#') = true) := by
    rintro ⟨hkey, -⟩
    rw [hkey] at hcs
    exact hr (List.cons.inj hcs).1.symm
  refine Reads.orElse_of_fails hraw (hahead.nil_bind ?_)
  refine Reads.ite_neg (by decide) (hspan.bind_nil ?_)
  refine (Reads.ahead _ rest).nil_bind (Reads.ite_neg hnot ?_)
  refine Reads.ite_pos (List.all_eq_true.mpr hchars) ?_
  have hpure := Reads.pure (String.ofList key.toList) rest
  rwa [String.ofList_toList] at hpure ⊢

/-- A word that is no front of a longer name is read. -/
theorem reads_keyword {s : String} (h : s.toList = cs) (hrest : Stops isNameChar rest) :
    (keyword s).Reads cs () rest := by
  refine (Reads.word h rest).bind_nil ((Reads.ahead_of_stops hrest).nil_bind ?_)
  exact Reads.ite_neg Bool.false_ne_true (Reads.pure () rest)

theorem fails_keyword {s : String} (h : ¬ s.toList <+: cs) : (keyword s).Fails cs :=
  (Fails.word_of_not_prefix h).bind

/-! ## Values -/

theorem reads_true (hrest : Stops isNameChar rest) : bool.Reads ['t', 'r', 'u', 'e'] true rest :=
  ((reads_keyword rfl hrest).bind_nil (Reads.pure true rest)).orElse

theorem reads_false (hrest : Stops isNameChar rest) :
    bool.Reads ['f', 'a', 'l', 's', 'e'] false rest := by
  refine Reads.orElse_of_fails (fails_keyword ?_).bind ?_
  · rw [show "true".toList = ['t', 'r', 'u', 'e'] from rfl]
    simp
  · exact (reads_keyword rfl hrest).bind_nil (Reads.pure false rest)

theorem toNat_of_isDigit (h : c.isDigit = true) : '0'.toNat ≤ c.toNat ∧ c.toNat ≤ '9'.toNat := by
  simpa [Char.isDigit, UInt32.le_iff_toNat_le] using h

/-- A digit is a digit in every base from ten on. -/
theorem isDigitOf_of_isDigit {base : Nat} (hbase : 10 ≤ base) (h : c.isDigit = true) :
    Text.isDigitOf base c = true := by
  have hle : c.toNat - '0'.toNat ≤ 9 := Nat.sub_le_sub_right (toNat_of_isDigit h).2 _
  have hvalue : Text.digitValue c < base := by
    rw [Text.digitValue_of_isDigit h]
    exact hle.trans_lt hbase
  simp [Text.isDigitOf, h, hvalue]

/-- A digit of base sixteen goes on with a name. -/
theorem isNameChar_of_isDigitOf {base : Nat} (h : Text.isDigitOf base c = true) :
    isNameChar c = true := by
  simp only [Text.isDigitOf, Bool.and_eq_true, Bool.or_eq_true, decide_eq_true_eq] at h
  rcases h.1 with (hdigit | ⟨hlow, hhigh⟩) | ⟨hlow, hhigh⟩
  · exact isNameChar_of_isDigit hdigit
  · have hz : c ≤ 'z' := Char.le_trans hhigh (by decide)
    have hlower : c.isLower = true :=
      (Bool.and_eq_true _ _).mpr ⟨decide_eq_true hlow, decide_eq_true hz⟩
    have halpha : c.isAlpha = true := (Bool.or_eq_true _ _).mpr (.inr hlower)
    simp [isNameChar, Char.isAlphanum, halpha]
  · have hz : c ≤ 'Z' := Char.le_trans hhigh (by decide)
    have hupper : c.isUpper = true := decide_eq_true ⟨hlow, hz⟩
    have halpha : c.isAlpha = true := (Bool.or_eq_true _ _).mpr (.inl hupper)
    simp [isNameChar, Char.isAlphanum, halpha]

/-- Digits behind which no name goes on do not begin with the mark of a base. -/
theorem fails_base {s : String} {mark : Char} (h : Digits ds) (hrest : Stops isNameChar rest)
    (hs : s.toList = ['0', mark]) (hmark : mark ∈ ['x', 'o', 'b']) :
    (word s).Fails (ds ++ rest) := by
  have hname : isNameChar mark = true ∧ mark.isDigit = false := by
    have hall : ['x', 'o', 'b'].all (fun c => isNameChar c && !c.isDigit) = true := rfl
    simpa using List.all_eq_true.mp hall mark hmark
  refine Fails.word_of_not_prefix ?_
  rw [hs]
  rintro ⟨more, hmore⟩
  match ds, h, hmore with
  | [_], _, hmore =>
    obtain ⟨-, rfl⟩ := List.cons.inj hmore
    exact absurd (Stops.cons_iff.mp hrest) (by simp [hname.1])
  | _ :: e :: _, h, hmore =>
    obtain ⟨-, hmore⟩ := List.cons.inj hmore
    obtain ⟨rfl, -⟩ := List.cons.inj hmore
    exact absurd (h.2 mark (by simp)) (by simp [hname.2])

/-- Decimal digits are read as their number. -/
theorem reads_natural (h : Digits ds) (hrest : Stops isNameChar rest) :
    natural.Reads ds (Text.ofDigits ds) rest := by
  have hdigits : ∀ c ∈ ds, (Text.isDigitOf 16 c || decide (c = '_')) = true := fun c hc => by
    simp [isDigitOf_of_isDigit (by decide : 10 ≤ 16) (h.2 c hc)]
  have hstops : Stops (fun c => Text.isDigitOf 16 c || c = '_') rest := hrest.mono fun c hc => by
    simp only [Bool.or_eq_true, decide_eq_true_eq] at hc
    rcases hc with hc | rfl
    · exact isNameChar_of_isDigitOf hc
    · rfl
  have hbar {c : Char} (hc : c ∈ ds) : c ≠ '_' := by
    rintro rfl
    exact absurd (h.2 _ hc) (by decide)
  have hfilter : ds.filter (· ≠ '_') = ds :=
    List.filter_eq_self.mpr fun c hc => decide_eq_true (hbar hc)
  have hall : ds.all (Text.isDigitOf 10) = true :=
    List.all_eq_true.mpr fun c hc => isDigitOf_of_isDigit (Nat.le_refl 10) (h.2 c hc)
  have hread : (digitsOf 10).Reads ds (Text.ofDigits ds) rest := by
    refine (Reads.span1 hdigits h.1 hstops).bind_nil ?_
    rw [hfilter]
    refine Reads.ite_neg ?_ (Reads.pure _ rest)
    rintro (hhead | hnot)
    · exact hbar (List.mem_of_mem_head? hhead) rfl
    · simp [hall] at hnot
  refine Reads.orElse_of_fails (fails_base h hrest rfl (by decide)).bind ?_
  refine Reads.orElse_of_fails (fails_base h hrest rfl (by decide)).bind ?_
  exact Reads.orElse_of_fails (fails_base h hrest rfl (by decide)).bind hread

theorem reads_natural64 {n : UInt64} (h : Digits ds) (hn : Text.ofDigits ds = n.toNat)
    (hrest : Stops isNameChar rest) : natural64.Reads ds n rest := by
  refine (reads_natural h hrest).bind_nil ?_
  rw [hn]
  refine Reads.ite_pos n.toNat_lt ?_
  have hpure := Reads.pure (UInt64.ofNat n.toNat) rest
  rwa [UInt64.ofNat_toNat] at hpure ⊢

theorem reads_sign (h : SpellsSign negative sign) (hminus : Stops (· = '-') rest)
    (hplus : Stops (· = '+') rest) : Ron.sign.Reads sign negative rest := by
  have hfails {more : List Char} (hmore : Stops (· = '-') more) :
      Fails (do word "-"; return true) more := (Fails.word '-' rfl hmore).bind
  cases h with
  | none =>
    refine Reads.orElse_of_fails (hfails hminus) ?_
    exact Reads.orElse_of_fails (Fails.word '+' rfl hplus).bind (Reads.pure false rest)
  | plus =>
    refine Reads.orElse_of_fails (hfails (Stops.cons_iff.mpr rfl)) ?_
    exact ((Reads.word rfl rest).bind_nil (Reads.pure false rest)).orElse
  | minus => exact ((Reads.word rfl rest).bind_nil (Reads.pure true rest)).orElse

/-- Digits begin with none of some other characters. -/
theorem stops_of_digits {d : Char} (h : Digits ds) (hd : d.isDigit = false) :
    Stops (· = d) (ds ++ rest) := by
  obtain ⟨c, cs, rfl⟩ := List.exists_cons_of_ne_nil h.1
  rw [List.cons_append, Stops.cons_iff, decide_eq_false_iff_not]
  rintro rfl
  exact absurd (h.2 c (by simp)) (by simp [hd])

/-- A decimal is read in its parts. -/
theorem reads_decimal {whole fraction : List Char} (hsign : SpellsSign negative sign)
    (hwhole : Digits whole) (hfraction : Digits fraction) (hrest : Stops isRawChar rest) :
    decimal.Reads (sign ++ (whole ++ '.' :: fraction))
      ⟨negative, Text.ofDigits (whole ++ fraction), -(fraction.length : Int)⟩ rest := by
  have hdigit : Stops Char.isDigit rest := hrest.mono fun c hc =>
    isRawChar_of_isNameChar (isNameChar_of_isDigit hc)
  have hmark {d : Char} (hd : isRawChar d = true) : Stops (· = d) rest := hrest.mono fun c hc => by
    rwa [of_decide_eq_true hc]
  have hpoint : Reads (do word "."; span Char.isDigit) ('.' :: fraction) fraction rest := by
    have hword : Reads (word ".") ['.'] () (fraction ++ rest) := Reads.word rfl _
    exact hword.bind (Reads.span hfraction.2 hdigit)
  have hexponent : Fails (do
      let _ ← char 'e' <|> char 'E'
      let below ← Ron.sign
      let cs ← span1 Char.isDigit
      return if below then -(Text.ofDigits cs : Int) else Text.ofDigits cs) rest :=
    Fails.bind (Fails.orElse (Fails.char (hmark rfl)) (Fails.char (hmark rfl)))
  have hstops {d : Char} (hd : d.isDigit = false) :
      Stops (· = d) (whole ++ '.' :: fraction ++ rest) := by
    rw [List.append_assoc]
    exact stops_of_digits hwhole hd
  have hread : Ron.sign.Reads sign negative (whole ++ '.' :: fraction ++ rest) :=
    reads_sign hsign (hstops rfl) (hstops rfl)
  refine hread.bind (Reads.bind (Reads.span hwhole.2 (Stops.cons_iff.mpr rfl)) ?_)
  refine hpoint.option.bind_nil (Reads.ite_neg ?_ (hexponent.option.nil_bind ?_))
  · simp [hwhole.1]
  refine (Reads.ahead_of_stops hrest).nil_bind (Reads.ite_neg Bool.false_ne_true ?_)
  have hpure := Reads.pure (⟨negative, Text.ofDigits (whole ++ fraction), -(fraction.length : Int)⟩ :
    DecimalText) rest
  simpa using hpure

/-- The names of special values, with their signs. -/
def specials : List (List Char) :=
  ["inf".toList, "+inf".toList, "-inf".toList, "NaN".toList, "+NaN".toList, "-NaN".toList]

/-- A number begins with no name of a special value. -/
theorem fails_special {s : String} {more : List Char} (hs : s.toList ∈ specials)
    (hsign : SpellsSign negative sign) (hds : Digits ds) :
    (keyword s).Fails (sign ++ (ds ++ more)) := by
  obtain ⟨d, ds, rfl⟩ := List.exists_cons_of_ne_nil hds.1
  have hd {c : Char} (hc : c.isDigit = false) : c ≠ d := by
    rintro rfl
    exact absurd (hds.2 c (by simp)) (by simp [hc])
  have hi : 'i' ≠ d := hd rfl
  have hN : 'N' ≠ d := hd rfl
  have hplus : '+' ≠ d := hd rfl
  have hminus : '-' ≠ d := hd rfl
  refine fails_keyword ?_
  generalize s.toList = word at hs
  simp only [specials, List.mem_cons, List.not_mem_nil, or_false] at hs
  rcases hs with rfl | rfl | rfl | rfl | rfl | rfl <;> cases hsign <;>
    simp [hi, hN, hplus, hminus]

/-- **A single is read as what it spells.** -/
theorem SpellsSingle.reads {x : Single} (h : SpellsSingle x cs) (hrest : Stops isRawChar rest) :
    single.Reads cs x rest := by
  have hname : Stops isNameChar rest := hrest.mono fun c hc => isRawChar_of_isNameChar hc
  have hnot {s : String} {more : List Char} (hs : ¬ s.toList.isPrefixOf more = true) :
      (keyword s).Fails more := fails_keyword (by rwa [List.isPrefixOf_iff_prefix] at hs)
  cases h with
  | @decimal negative sign whole fraction hsign hwhole hfraction =>
    have hspecial {s : String} (hs : s.toList ∈ specials) :
        (keyword s).Fails (sign ++ (whole ++ '.' :: fraction) ++ rest) := by
      rw [List.append_assoc, List.append_assoc]
      exact fails_special hs hsign hwhole
    refine Reads.orElse_of_fails (Fails.bind ?_) ?_
    · exact Fails.orElse (hspecial (by decide)) (hspecial (by decide))
    refine Reads.orElse_of_fails (Fails.bind (hspecial (by decide))) ?_
    refine Reads.orElse_of_fails (Fails.bind ?_) (reads_decimal hsign hwhole hfraction hrest).map
    exact Fails.orElse (hspecial (by decide))
      (Fails.orElse (hspecial (by decide)) (hspecial (by decide)))
  | infinity hsign =>
    cases hsign with
    | none =>
      refine Reads.orElse (Reads.bind_nil (a := ()) ?_ (Reads.pure _ rest))
      exact (reads_keyword rfl hname).orElse
    | plus =>
      refine Reads.orElse (Reads.bind_nil (a := ()) ?_ (Reads.pure _ rest))
      exact Reads.orElse_of_fails (hnot nofun) (reads_keyword rfl hname)
    | minus =>
      refine Reads.orElse_of_fails (Fails.bind (Fails.orElse (hnot nofun) (hnot nofun))) ?_
      exact Reads.orElse (Reads.bind_nil (reads_keyword rfl hname) (Reads.pure _ rest))
  | nan hsign =>
    have hread {text : List Char}
        (hinf : (keyword "inf" <|> keyword "+inf").Fails (text ++ rest))
        (hminus : (keyword "-inf").Fails (text ++ rest))
        (hnan : (keyword "NaN" <|> keyword "+NaN" <|> keyword "-NaN").Reads text () rest) :
        single.Reads text (.ofNumber BinaryFormat.single.nan) rest := by
      refine Reads.orElse_of_fails hinf.bind (Reads.orElse_of_fails hminus.bind ?_)
      exact Reads.orElse (hnan.bind_nil (Reads.pure _ rest))
    cases hsign with
    | none =>
      refine hread (Fails.orElse (hnot nofun) (hnot nofun)) (hnot nofun) ?_
      exact (reads_keyword rfl hname).orElse
    | plus =>
      refine hread (Fails.orElse (hnot nofun) (hnot nofun)) (hnot nofun) ?_
      exact Reads.orElse_of_fails (hnot nofun) (reads_keyword rfl hname).orElse
    | minus =>
      refine hread (Fails.orElse (hnot nofun) (hnot nofun)) (hnot nofun) ?_
      exact Reads.orElse_of_fails (hnot nofun)
        (Reads.orElse_of_fails (hnot nofun) (reads_keyword rfl hname))

end ScenePack.Ron
