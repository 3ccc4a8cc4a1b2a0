import ScenePack.Json.Literal
import ScenePack.Proofs.Comment.Piece

/-!
# What the readers of literals look at

A reader of a number or a word that succeeds has looked at the characters it takes and at no others,
but for one: the word must not go on behind them. So it takes the same characters again at any other
place, before anything that is no part of a word. A reader of strings does not even look that far.

* `isWordChar`, `startsWord`, `endsWord`: the characters of numbers and words.
* `Takes`, `LocalReader`: a reader of numbers goes by what it takes.
* `TakesString`: so does the reader of strings.

Results:

* `readNumber_local`: a number is read off its own characters, from its first digit on.
* `readWord_local`, `readString_local`: words and strings are. A string ends for the reader where it
  ends for the cut of a scene text.
-/

namespace ScenePack.Json

/-! ## Characters of words -/

/-- The characters that numbers and words are made of. -/
def isWordChar (c : Char) : Bool := c.isAlphanum || c = '+' || c = '-' || c = '.'

/-- Whether a word may go on at the start of a text. -/
def startsWord (cs : List Char) : Bool := cs.head?.any isWordChar

/-- Whether a text ends where a word may go on. -/
def endsWord (cs : List Char) : Bool := cs.getLast?.any isWordChar

theorem isWordChar_of_isDigit {c : Char} (h : c.isDigit) : isWordChar c := by
  simp [isWordChar, Char.isAlphanum, h]

theorem head?_ne_of_not_startsWord {c : Char} {cs : List Char} (hc : isWordChar c)
    (h : startsWord cs = false) : cs.head? ≠ some c := by
  intro hhead
  rw [startsWord, hhead, Option.any_some, hc] at h
  contradiction

/-! ## Digits -/

/-- No digit is at the start of a text. -/
def NoDigit (cs : List Char) : Prop := ∀ c, cs.head? = some c → c.isDigit = false

theorem NoDigit.of_not_startsWord {cs : List Char} (h : startsWord cs = false) : NoDigit cs := by
  intro c hhead
  cases hdigit : c.isDigit with
  | false => rfl
  | true => exact absurd hhead (head?_ne_of_not_startsWord (isWordChar_of_isDigit hdigit) h)

theorem NoDigit.cons {c : Char} (h : c.isDigit = false) (cs : List Char) : NoDigit (c :: cs) := by
  intro d hd
  rw [← Option.some.inj hd]
  exact h

theorem leadingDigits_append {digits rest : List Char} (hdigits : ∀ c ∈ digits, c.isDigit)
    (hrest : NoDigit rest) : leadingDigits (digits ++ rest) = digits := by
  have hstop : rest.takeWhile Char.isDigit = [] := by
    cases rest with
    | nil => rfl
    | cons c rest => rw [List.takeWhile_cons, hrest c rfl]; rfl
  rw [leadingDigits, List.takeWhile_append_of_pos hdigits, hstop, List.append_nil]

/-- A text is the digits it starts with and the rest. -/
theorem exists_digits (cs : List Char) :
    ∃ digits rest, cs = digits ++ rest ∧ (∀ c ∈ digits, c.isDigit) ∧ NoDigit rest := by
  induction cs with
  | nil => exact ⟨[], [], rfl, by simp, by intro c h; cases h⟩
  | cons c cs ih =>
    by_cases hc : c.isDigit
    · obtain ⟨digits, rest, rfl, hdigits, hrest⟩ := ih
      refine ⟨c :: digits, rest, rfl, ?_, hrest⟩
      intro d hd
      rcases List.mem_cons.mp hd with rfl | hd
      · exact hc
      · exact hdigits d hd
    · exact ⟨[], c :: cs, rfl, by simp, NoDigit.cons (by simpa using hc) cs⟩

/-! ## Numbers -/

/-- `read` takes the characters `w` for `e`, wherever no word goes on behind them. -/
structure Takes (read : Nat → List Char → Except Fault (Extent Number)) (w : List Char)
    (e : Extent Number) : Prop where
  word : ∀ c ∈ w, isWordChar c
  again : ∀ offset rest, startsWord rest = false →
    ∃ next, read offset (w ++ rest) = .ok ⟨e.value, e.taken, next⟩

/-- A reader of numbers goes by what it takes; `taken` characters have been counted before. -/
def LocalReader (taken : Nat) (read : Nat → List Char → Except Fault (Extent Number)) : Prop :=
  ∀ offset cs e, read offset cs = .ok e →
    ∃ w rest, cs = w ++ rest ∧ e.taken = taken + w.length ∧ Takes read w e

theorem finishReal_ok {negative : Bool} {significand : Nat} {exponent : Int} {taken offset : Nat}
    {e : Extent Number} (h : finishReal negative significand exponent taken offset = .ok e) :
    e.taken = taken ∧ ∀ offset',
      finishReal negative significand exponent taken offset' = .ok ⟨e.value, e.taken, offset'⟩ := by
  rw [finishReal] at h
  cases hx : scale? significand exponent with
  | none => rw [hx] at h; contradiction
  | some x =>
    rw [hx] at h
    obtain rfl := Except.ok.inj h
    exact ⟨rfl, fun offset' => by rw [finishReal, hx]⟩

/-- How many characters the sign of an exponent takes. -/
def signLength (cs : List Char) : Nat := if cs.head? = some '+' ∨ cs.head? = some '-' then 1 else 0

/-- An exponent is a sign, which may be missing, and digits. -/
theorem exists_exponent (cs : List Char) :
    ∃ sign digits rest, cs = sign ++ (digits ++ rest) ∧ sign.length = signLength cs ∧
      (∀ c ∈ sign, isWordChar c) ∧ (∀ c ∈ digits, c.isDigit) ∧ NoDigit rest := by
  by_cases hsign : cs.head? = some '+' ∨ cs.head? = some '-'
  · cases cs with
    | nil => simp at hsign
    | cons c cs =>
      obtain ⟨digits, rest, rfl, hdigits, hrest⟩ := exists_digits cs
      refine ⟨[c], digits, rest, rfl, by rw [signLength, if_pos hsign]; rfl, ?_, hdigits, hrest⟩
      intro d hd
      rw [List.mem_singleton.mp hd]
      rcases hsign with h | h <;> (rw [Option.some.inj h]; rfl)
  · obtain ⟨digits, rest, rfl, hdigits, hrest⟩ := exists_digits cs
    exact ⟨[], digits, rest, rfl, by rw [signLength, if_neg hsign]; rfl, by simp, hdigits, hrest⟩

theorem head?_sign {sign digits : List Char} (hsome : digits ≠ []) (rest : List Char) :
    (sign ++ (digits ++ rest)).head? = (sign ++ digits).head? := by
  rw [← List.append_assoc, List.head?_append, Option.or_of_isSome]
  simpa using Or.inr hsome

/-- An exponent without digits is a fault. -/
theorem readExponent_empty {sign rest : List Char} (hsign : sign.length = signLength (sign ++ rest))
    (hrest : NoDigit rest) (negative : Bool) (significand : Nat) (exponent : Int)
    (taken offset : Nat) (e : Extent Number) :
    readExponent negative significand exponent taken offset (sign ++ rest) ≠ .ok e := by
  have hnone : ∀ c ∈ ([] : List Char), c.isDigit := by simp
  have hlead : leadingDigits rest = [] := leadingDigits_append hnone hrest
  rw [signLength] at hsign
  simp only [readExponent, ← hsign, List.drop_left, hlead, List.isEmpty_nil, if_true]
  split <;> simp

section Exponent

variable {sign digits rest : List Char}
  (hsign : sign.length = signLength (sign ++ (digits ++ rest)))
  (hsome : digits ≠ []) (hdigits : ∀ c ∈ digits, c.isDigit) (hrest : NoDigit rest)
  (negative : Bool) (significand : Nat) (exponent : Int) (taken offset : Nat)

include hsign hsome hdigits hrest

/-- An exponent is what its sign and its digits count to, unless that is too large to be counted. -/
theorem readExponent_digits :
    readExponent negative significand exponent taken offset (sign ++ (digits ++ rest)) =
      match exponentOf ((sign ++ digits).head? = some '-') 0 0 digits with
      | .within e => finishReal negative significand (exponent + e)
          (taken + (sign ++ digits).length) (offset + (sign ++ digits).length)
      | .beyond below count =>
        if significand ≠ 0 ∧ ¬ below then .error ⟨.numberTooLarge, offset + sign.length + count⟩
        else .ok ⟨signed negative (Double.ofInt 0), taken + (sign ++ digits).length,
          offset + (sign ++ digits).length⟩ := by
  have hlead := leadingDigits_append hdigits hrest
  have hempty : ¬ digits.isEmpty := by simpa using hsome
  rw [← head?_sign hsome rest]
  rw [signLength] at hsign
  cases he : exponentOf ((sign ++ (digits ++ rest)).head? = some '-') 0 0 digits <;>
    simp only [readExponent, ← hsign, List.drop_left, hlead, if_neg hempty, he, List.length_append]

end Exponent

/-- The end of a number, behind its last digit. -/
theorem Takes.finish {negative : Bool} {significand : Nat} {exponent : Int} {taken offset : Nat}
    {read : Nat → List Char → Except Fault (Extent Number)} {w : List Char} {e : Extent Number}
    (hword : ∀ c ∈ w, isWordChar c)
    (hread : ∀ offset rest, startsWord rest = false → ∃ offset',
      read offset (w ++ rest) = finishReal negative significand exponent taken offset')
    (h : finishReal negative significand exponent taken offset = .ok e) :
    e.taken = taken ∧ Takes read w e := by
  obtain ⟨htaken, hagain⟩ := finishReal_ok h
  refine ⟨htaken, hword, fun offset rest hrest => ?_⟩
  obtain ⟨offset', heq⟩ := hread offset rest hrest
  exact ⟨offset', heq.trans (hagain offset')⟩

theorem readExponent_local (negative : Bool) (significand : Nat) (exponent : Int) (taken : Nat) :
    LocalReader taken (readExponent negative significand exponent taken) := by
  intro offset cs e h
  obtain ⟨sign, digits, rest, rfl, hsign, hword, hdigits, hrest⟩ := exists_exponent cs
  have hsome : digits ≠ [] := by
    rintro rfl
    exact readExponent_empty hsign hrest _ _ _ _ _ _ h
  have hagain (rest : List Char) : sign.length = signLength (sign ++ (digits ++ rest)) := by
    rw [signLength, head?_sign hsome] at hsign ⊢
    exact hsign
  have hchars : ∀ c ∈ sign ++ digits, isWordChar c := by
    intro c hc
    rcases List.mem_append.mp hc with hc | hc
    · exact hword c hc
    · exact isWordChar_of_isDigit (hdigits c hc)
  refine ⟨sign ++ digits, rest, (List.append_assoc ..).symm, ?_⟩
  rw [readExponent_digits hsign hsome hdigits hrest] at h
  -- behind any word, the exponent is counted as it is here
  have hsame (offset : Nat) (rest : List Char) (hrest : startsWord rest = false) :=
    readExponent_digits (hagain rest) hsome hdigits (NoDigit.of_not_startsWord hrest) negative
      significand exponent taken offset
  cases he : exponentOf ((sign ++ digits).head? = some '-') 0 0 digits with
  | within e' =>
    simp only [he] at h hsame
    refine Takes.finish hchars (fun offset rest hrest => ⟨offset + (sign ++ digits).length, ?_⟩) h
    rw [List.append_assoc, hsame offset rest hrest]
  | beyond below count =>
    simp only [he] at h hsame
    split at h
    · contradiction
    · next hfits =>
      obtain rfl := Except.ok.inj h
      refine ⟨rfl, hchars, fun offset rest hrest => ⟨offset + (sign ++ digits).length, ?_⟩⟩
      rw [List.append_assoc, hsame offset rest hrest, if_neg hfits]

/-- A reader that takes some characters of words and leaves the rest to another one. -/
theorem LocalReader.through {read next : Nat → List Char → Except Fault (Extent Number)}
    {taken offset : Nat} {front rest : List Char} {e : Extent Number}
    (hnext : LocalReader (taken + front.length) next) (hword : ∀ c ∈ front, isWordChar c)
    (hread : ∀ offset rest, ∃ offset', read offset (front ++ rest) = next offset' rest)
    (h : read offset (front ++ rest) = .ok e) :
    ∃ w rest', front ++ rest = w ++ rest' ∧ e.taken = taken + w.length ∧ Takes read w e := by
  obtain ⟨offset', heq⟩ := hread offset rest
  rw [heq] at h
  obtain ⟨w, rest', rfl, htaken, htakes⟩ := hnext offset' rest e h
  refine ⟨front ++ w, rest', (List.append_assoc ..).symm, ?_, ?_, fun offset rest hrest => ?_⟩
  · rw [htaken, List.length_append, Nat.add_assoc]
  · intro c hc
    rcases List.mem_append.mp hc with hc | hc
    · exact hword c hc
    · exact htakes.word c hc
  · obtain ⟨offset', heq⟩ := hread offset (w ++ rest)
    obtain ⟨last, hagain⟩ := htakes.again offset' rest hrest
    exact ⟨last, by rw [List.append_assoc, heq, hagain]⟩

/-- The letter of an exponent. -/
theorem exists_letter {rest : List Char} (h : rest.head? = some 'e' ∨ rest.head? = some 'E') :
    ∃ letter rest', rest = letter :: rest' ∧ (letter = 'e' ∨ letter = 'E') := by
  cases rest with
  | nil => simp at h
  | cons c rest => exact ⟨c, rest, rfl, by simpa using h⟩

theorem not_letter_of_not_startsWord {rest : List Char} (h : startsWord rest = false) :
    ¬ (rest.head? = some 'e' ∨ rest.head? = some 'E') := by
  rintro (he | he)
  · exact head?_ne_of_not_startsWord (by decide) h he
  · exact head?_ne_of_not_startsWord (by decide) h he

/-- Digits and one more character of a word. -/
theorem isWordChar_digits {digits : List Char} {c : Char} (hdigits : ∀ d ∈ digits, d.isDigit)
    (hc : isWordChar c) : ∀ d ∈ digits ++ [c], isWordChar d := by
  intro d hd
  rcases List.mem_append.mp hd with hd | hd
  · exact isWordChar_of_isDigit (hdigits d hd)
  · rw [List.mem_singleton.mp hd]
    exact hc

/-- What a fraction amounts to. -/
theorem readFraction_append {digits rest : List Char} (hdigits : ∀ c ∈ digits, c.isDigit)
    (hrest : NoDigit rest) (negative : Bool) (significand : Nat) (exponent : Int)
    (taken offset : Nat) :
    readFraction negative significand exponent taken offset (digits ++ rest) =
      if digits.isEmpty then
        if rest.isEmpty then .error ⟨.endInValue, offset⟩ else .error ⟨.badNumber, offset + 1⟩
      else if rest.head? = some 'e' ∨ rest.head? = some 'E' then
        readExponent negative (gather significand digits).1
          (exponent - (digits.length - (gather significand digits).2.length : Nat))
          (taken + digits.length + 1) (offset + digits.length + 1) (rest.drop 1)
      else
        finishReal negative (gather significand digits).1
          (exponent - (digits.length - (gather significand digits).2.length : Nat))
          (taken + digits.length) (offset + digits.length) := by
  have hlead := leadingDigits_append hdigits hrest
  simp only [readFraction, hlead, List.drop_left]
  cases digits <;> rfl

theorem readFraction_local (negative : Bool) (significand : Nat) (exponent : Int) (taken : Nat) :
    LocalReader taken (readFraction negative significand exponent taken) := by
  intro offset cs e h
  obtain ⟨digits, rest, rfl, hdigits, hrest⟩ := exists_digits cs
  have hsome : ¬ digits.isEmpty := by
    intro hempty
    rw [readFraction_append hdigits hrest, if_pos hempty] at h
    split at h <;> contradiction
  by_cases hhead : rest.head? = some 'e' ∨ rest.head? = some 'E'
  · obtain ⟨letter, rest, rfl, hletter⟩ := exists_letter hhead
    rw [List.append_cons] at h ⊢
    refine LocalReader.through
      (readExponent_local negative (gather significand digits).1
        (exponent - (digits.length - (gather significand digits).2.length : Nat)) _)
      (isWordChar_digits hdigits (by rcases hletter with rfl | rfl <;> rfl)) ?_ h
    intro offset rest
    refine ⟨offset + digits.length + 1, ?_⟩
    have hnone : NoDigit (letter :: rest) := NoDigit.cons (hrest letter rfl) rest
    rw [List.append_assoc, List.singleton_append, readFraction_append hdigits hnone, if_neg hsome,
      if_pos (by simpa using hletter), List.length_append]
    rfl
  · refine ⟨digits, rest, rfl, ?_⟩
    rw [readFraction_append hdigits hrest, if_neg hsome, if_neg hhead] at h
    refine Takes.finish (fun c hc => isWordChar_of_isDigit (hdigits c hc))
      (fun offset rest hrest => ⟨offset + digits.length, ?_⟩) h
    rw [readFraction_append hdigits (NoDigit.of_not_startsWord hrest), if_neg hsome,
      if_neg (not_letter_of_not_startsWord hrest)]

/-- What a number amounts to behind its sign. -/
theorem readNumber_append {digits rest : List Char} (hdigits : ∀ c ∈ digits, c.isDigit)
    (hrest : NoDigit rest) (negative : Bool) (taken offset : Nat) :
    readNumber negative taken offset (digits ++ rest) =
      if digits.isEmpty then
        if rest.isEmpty then .error ⟨.endInValue, offset⟩ else .error ⟨.badNumber, offset + 1⟩
      else if digits.head? = some '0' ∧ 1 < digits.length then .error ⟨.badNumber, offset + 2⟩
      else if rest.head? = some '.' then
        readFraction negative (gather 0 digits).1 (gather 0 digits).2.length
          (taken + digits.length + 1) (offset + digits.length + 1) (rest.drop 1)
      else if rest.head? = some 'e' ∨ rest.head? = some 'E' then
        readExponent negative (gather 0 digits).1 (gather 0 digits).2.length
          (taken + digits.length + 1) (offset + digits.length + 1) (rest.drop 1)
      else if (gather 0 digits).2.isEmpty then
        .ok ⟨wholeNumber negative (gather 0 digits).1, taken + digits.length,
          offset + digits.length⟩
      else
        finishReal negative (gather 0 digits).1 (gather 0 digits).2.length
          (taken + digits.length) (offset + digits.length) := by
  have hlead := leadingDigits_append hdigits hrest
  simp only [readNumber, hlead, List.drop_left]
  cases digits <;> rfl

/-- A number is read off its own characters. -/
theorem readNumber_local (negative : Bool) (taken : Nat) :
    LocalReader taken (readNumber negative taken) := by
  intro offset cs e h
  obtain ⟨digits, rest, rfl, hdigits, hrest⟩ := exists_digits cs
  have hsome : ¬ digits.isEmpty := by
    intro hempty
    rw [readNumber_append hdigits hrest, if_pos hempty] at h
    split at h <;> contradiction
  have hzero : ¬ (digits.head? = some '0' ∧ 1 < digits.length) := by
    intro hzero
    rw [readNumber_append hdigits hrest, if_neg hsome, if_pos hzero] at h
    contradiction
  have hchars : ∀ c ∈ digits, isWordChar c := fun c hc => isWordChar_of_isDigit (hdigits c hc)
  have hpoint (rest : List Char) (h : startsWord rest = false) : rest.head? ≠ some '.' :=
    head?_ne_of_not_startsWord (by decide) h
  by_cases hfraction : rest.head? = some '.'
  · cases rest with
    | nil => simp at hfraction
    | cons point rest =>
      obtain rfl := Option.some.inj hfraction
      rw [List.append_cons] at h ⊢
      refine LocalReader.through
        (readFraction_local negative (gather 0 digits).1 (gather 0 digits).2.length _)
        (isWordChar_digits hdigits (by decide)) ?_ h
      intro offset rest
      refine ⟨offset + digits.length + 1, ?_⟩
      have hnone : NoDigit ('.' :: rest) := NoDigit.cons (by decide) rest
      rw [List.append_assoc, List.singleton_append, readNumber_append hdigits hnone, if_neg hsome,
        if_neg hzero, if_pos (by rfl), List.length_append]
      rfl
  · by_cases hhead : rest.head? = some 'e' ∨ rest.head? = some 'E'
    · obtain ⟨letter, rest, rfl, hletter⟩ := exists_letter hhead
      rw [List.append_cons] at h ⊢
      refine LocalReader.through
        (readExponent_local negative (gather 0 digits).1 (gather 0 digits).2.length _)
        (isWordChar_digits hdigits (by rcases hletter with rfl | rfl <;> rfl)) ?_ h
      intro offset rest
      refine ⟨offset + digits.length + 1, ?_⟩
      have hnone : NoDigit (letter :: rest) := NoDigit.cons (hrest letter rfl) rest
      rw [List.append_assoc, List.singleton_append, readNumber_append hdigits hnone, if_neg hsome,
        if_neg hzero, if_neg (by simpa using hfraction), if_pos (by simpa using hletter),
        List.length_append]
      rfl
    · refine ⟨digits, rest, rfl, ?_⟩
      rw [readNumber_append hdigits hrest, if_neg hsome, if_neg hzero, if_neg hfraction,
        if_neg hhead] at h
      have hagain (offset : Nat) (rest : List Char) (hrest : startsWord rest = false) :=
        readNumber_append hdigits (NoDigit.of_not_startsWord hrest) negative taken offset
      by_cases hwhole : (gather 0 digits).2.isEmpty
      · rw [if_pos hwhole] at h
        obtain rfl := Except.ok.inj h
        refine ⟨rfl, hchars, fun offset rest hrest => ⟨offset + digits.length, ?_⟩⟩
        rw [hagain offset rest hrest, if_neg hsome, if_neg hzero, if_neg (hpoint rest hrest),
          if_neg (not_letter_of_not_startsWord hrest), if_pos hwhole]
      · rw [if_neg hwhole] at h
        refine Takes.finish hchars (fun offset rest hrest => ⟨offset + digits.length, ?_⟩) h
        rw [hagain offset rest hrest, if_neg hsome, if_neg hzero, if_neg (hpoint rest hrest),
          if_neg (not_letter_of_not_startsWord hrest), if_neg hwhole]

/-! ## Words -/

/-- The rest of a word is read off its own letters. -/
theorem readWord_local {offset next : Nat} {letters cs : List Char}
    (h : readWord offset letters cs = .ok next) :
    ∃ rest, cs = letters ++ rest ∧
      ∀ offset' rest', ∃ next', readWord offset' letters (letters ++ rest') = .ok next' := by
  induction letters generalizing offset cs with
  | nil => exact ⟨cs, rfl, fun offset' rest' => ⟨offset', rfl⟩⟩
  | cons letter letters ih =>
    cases cs with
    | nil => contradiction
    | cons c cs =>
      rw [readWord] at h
      split at h
      · next hc =>
        obtain ⟨rest, rfl, hagain⟩ := ih h
        refine ⟨rest, by rw [hc]; rfl, fun offset' rest' => ?_⟩
        obtain ⟨next', heq⟩ := hagain (offset' + 1) rest'
        exact ⟨next', by rw [List.cons_append, readWord, if_pos rfl, heq]⟩
      · contradiction

/-! ## Strings -/

/-- The rest of a string is read off `w`, whatever is before it in the string and behind it in the
text. -/
structure TakesString (before : List Char) (taken : Nat) (w : List Char) (e : Extent String) :
    Prop where
  count : e.taken = taken + w.length
  closes : Comment.Closes w
  again : ∀ offset rest, ∃ next,
    readString before taken offset (w ++ rest) = .ok ⟨e.value, e.taken, next⟩

/-- Read the characters `spelling` for `c`, then the rest of the string. -/
theorem TakesString.behind (spelling : List Char) {before w : List Char} {c : Char} {taken : Nat}
    {e : Extent String}
    (hread : ∀ offset rest, ∃ offset', readString before taken offset (spelling ++ rest) =
      readString (c :: before) (taken + spelling.length) offset' rest)
    (hcloses : Comment.Closes w → Comment.Closes (spelling ++ w))
    (h : TakesString (c :: before) (taken + spelling.length) w e) :
    TakesString before taken (spelling ++ w) e := by
  refine ⟨by rw [h.count, List.length_append, Nat.add_assoc], hcloses h.closes, ?_⟩
  intro offset rest
  obtain ⟨offset', heq⟩ := hread offset (w ++ rest)
  obtain ⟨next, hagain⟩ := h.again offset' rest
  exact ⟨next, by rw [List.append_assoc, heq, hagain]⟩

/-- Hexadecimal digits end no string. -/
theorem closes_hexWord {a b c d : Char} {n : Nat} {w : List Char} (h : hexWord? a b c d = some n)
    (hw : Comment.Closes w) : Comment.Closes ('\\' :: 'u' :: a :: b :: c :: d :: w) := by
  have hdigits : [a, b, c, d].all (Text.isDigitOf 16) := by
    rw [hexWord?] at h
    split at h
    · assumption
    · contradiction
  have hplain (x : Char) (hx : Text.isDigitOf 16 x) : x ≠ '"' ∧ x ≠ '\\' := by
    constructor <;> (rintro rfl; exact absurd hx (by decide))
  simp only [List.all_cons, List.all_nil, Bool.and_true, Bool.and_eq_true] at hdigits
  obtain ⟨ha, hb, hc, hd⟩ := hdigits
  exact .escape 'u' (.cons (hplain a ha).1 (hplain a ha).2 (.cons (hplain b hb).1 (hplain b hb).2
    (.cons (hplain c hc).1 (hplain c hc).2 (.cons (hplain d hd).1 (hplain d hd).2 hw))))

theorem readString_local {before cs : List Char} {taken offset : Nat} {e : Extent String}
    (h : readString before taken offset cs = .ok e) :
    ∃ w rest, cs = w ++ rest ∧ TakesString before taken w e := by
  fun_induction readString before taken offset cs with
  | case2 before taken offset rest =>
    obtain rfl := Except.ok.inj h
    exact ⟨['"'], rest, rfl, rfl, .quote, fun offset rest => ⟨offset + 1, rfl⟩⟩
  | case7 before taken offset a b c d n hn htrailing hleading a' b' c' d' rest m hm hpair ih =>
    obtain ⟨w, rest, rfl, htakes⟩ := ih h
    refine ⟨_, rest, rfl, .behind ['\\', 'u', a, b, c, d, '\\', 'u', a', b', c', d']
      (fun offset rest => ⟨offset + 12, ?_⟩) (fun hw => closes_hexWord hn (closes_hexWord hm hw))
      htakes⟩
    simp only [List.cons_append, List.nil_append, readString, hn, hm, if_neg htrailing,
      if_pos hleading, if_pos hpair]
    rfl
  | case14 before taken offset a b c d rest n hn htrailing hleading ih =>
    obtain ⟨w, rest, rfl, htakes⟩ := ih h
    refine ⟨_, rest, rfl, .behind ['\\', 'u', a, b, c, d]
      (fun offset rest => ⟨offset + 6, ?_⟩) (closes_hexWord hn) htakes⟩
    simp only [List.cons_append, List.nil_append, readString, hn, if_neg htrailing, if_neg hleading]
    rfl
  | case16 before taken offset letter rest _ hword c hc ih =>
    obtain ⟨w, rest, rfl, htakes⟩ := ih h
    refine ⟨_, rest, rfl, .behind ['\\', letter]
      (fun offset rest => ⟨offset + 2, ?_⟩) (.escape letter) htakes⟩
    rw [List.cons_append, List.cons_append, List.nil_append, readString]
    · rw [hc]
      rfl
    · exact fun _ _ _ _ _ hu _ => hword hu
    · exact hword
  | case19 before taken offset c rest hquote hlast _ _ hescape hcontrol ih =>
    have hslash : c ≠ '\\' := by
      intro hc
      cases rest with
      | nil => exact hlast hc rfl
      | cons d rest => exact hescape d rest hc rfl
    obtain ⟨w, rest, rfl, htakes⟩ := ih h
    refine ⟨_, rest, rfl, .behind [c] (fun offset rest => ⟨offset + c.utf8Size, ?_⟩)
      (.cons hquote hslash) htakes⟩
    rw [List.singleton_append, readString, if_neg hcontrol]
    · rfl
    · exact hquote
    · exact fun hc => absurd hc hslash
    · exact fun _ _ _ _ _ hc => absurd hc hslash
    · exact fun _ hc => absurd hc hslash
    · exact fun _ _ hc => absurd hc hslash
  | _ => contradiction

end ScenePack.Json
