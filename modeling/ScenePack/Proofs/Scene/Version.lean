import Mathlib.Data.List.TakeWhile
import ScenePack.Proofs.Text.Digits
import ScenePack.Scene.Version

/-!
# The texts of versions

A version is written as one number, as two with a point between them, or as two and anything behind
a second point; blanks around it do not count. The numbers are of 32 bits, in any number of digits.
What stands between the blanks is unique, and so is the version that it writes.

* `Text.Trims`: a text without the blanks at its ends.
* `SchemaVersion.Written`: the texts of a version, without blanks around them.

Results:
* `Text.trims_iff`: the text between the blanks.
* **`SchemaVersion.parse_iff_written`**: the texts that are read are the ones that write a version,
  its own text is one of them, and the layout goes by the first number alone.
-/

namespace ScenePack

/-! ## Blanks -/

namespace Text

/-- `core` is `text` without the blanks at its ends. -/
structure Trims (text core : List Char) : Prop where
  split : ∃ before after, text = before ++ core ++ after ∧ (∀ c ∈ before, isBlank c) ∧
    ∀ c ∈ after, isBlank c
  head : ∀ c, core.head? = some c → isBlank c = false
  last : ∀ c, core.getLast? = some c → isBlank c = false

variable {text core : List Char}

/-- Blanks in front are left out, up to the first character that is none. -/
theorem dropWhile_isBlank_append {before rest : List Char} (hbefore : ∀ c ∈ before, isBlank c)
    (hrest : ∀ c, rest.head? = some c → isBlank c = false) :
    (before ++ rest).dropWhile isBlank = rest := by
  rw [List.dropWhile_append_of_pos hbefore]
  cases rest with
  | nil => rfl
  | cons c rest => rw [List.dropWhile_cons, hrest c rfl]; rfl

theorem isBlank_head?_dropWhile (text : List Char) {c : Char} (h : (text.dropWhile isBlank).head? = some c) :
    isBlank c = false := by
  have hnot := List.head?_dropWhile_not isBlank text
  rw [h] at hnot
  simpa using hnot

theorem trims_trim (text : List Char) : Trims text (trim text) := by
  have hfront : text.takeWhile isBlank ++ text.dropWhile isBlank = text :=
    List.takeWhile_append_dropWhile
  have hback : ((text.dropWhile isBlank).reverse.dropWhile isBlank).reverse ++
      ((text.dropWhile isBlank).reverse.takeWhile isBlank).reverse = text.dropWhile isBlank := by
    rw [← List.reverse_append, List.takeWhile_append_dropWhile, List.reverse_reverse]
  refine ⟨⟨text.takeWhile isBlank, ((text.dropWhile isBlank).reverse.takeWhile isBlank).reverse,
    ?_, fun c => List.mem_takeWhile_imp, ?_⟩, ?_, ?_⟩
  · unfold trim
    rw [List.append_assoc, hback, hfront]
  · intro c hc
    exact List.mem_takeWhile_imp (List.mem_reverse.mp hc)
  · intro c hc
    refine isBlank_head?_dropWhile text ?_
    unfold trim at hc
    rw [← hback, List.head?_append, hc]
    rfl
  · intro c hc
    refine isBlank_head?_dropWhile (text.dropWhile isBlank).reverse ?_
    rw [← List.getLast?_reverse]
    exact hc

/-- **There is one text between the blanks.** -/
theorem trims_iff : Trims text core ↔ trim text = core := by
  constructor
  · rintro ⟨⟨before, after, rfl, hbefore, hafter⟩, hhead, hlast⟩
    have hafter : ∀ c ∈ after.reverse, isBlank c := fun c hc => hafter c (List.mem_reverse.mp hc)
    have hlast : ∀ c, core.reverse.head? = some c → isBlank c = false := fun c hc =>
      hlast c (by rwa [← List.head?_reverse])
    unfold trim
    rw [List.append_assoc, List.dropWhile_append_of_pos hbefore]
    cases core with
    | nil =>
      have hnil : after.dropWhile isBlank = [] :=
        List.dropWhile_eq_nil_iff.mpr fun c hc => hafter c (List.mem_reverse.mpr hc)
      rw [List.nil_append, hnil]
      rfl
    | cons c core =>
      have hkeep : (c :: core ++ after).dropWhile isBlank = c :: core ++ after :=
        List.dropWhile_cons_of_neg (by rw [hhead c rfl]; decide)
      rw [hkeep, List.reverse_append, dropWhile_isBlank_append hafter hlast, List.reverse_reverse]
  · rintro rfl
    exact trims_trim text

end Text

/-! ## Versions -/

namespace SchemaVersion

open Text

/-- The texts of a version, without blanks around them. -/
inductive Written : SchemaVersion → List Char → Prop
  /-- One number; the minor number is zero. -/
  | major {a : UInt32} {A : List Char} : SpellsCount a A → Written ⟨a, 0⟩ A
  | minor {a b : UInt32} {A B : List Char} : SpellsCount a A → SpellsCount b B →
      Written ⟨a, b⟩ (A ++ '.' :: B)
  /-- Behind a second point may stand anything. -/
  | rest {a b : UInt32} {A B : List Char} (C : List Char) : SpellsCount a A → SpellsCount b B →
      Written ⟨a, b⟩ (A ++ '.' :: (B ++ '.' :: C))

/-- Whether a text ends or goes on with a point. -/
def EndsPart (tail : List Char) : Prop := tail = [] ∨ tail.head? = some '.'

variable {text A tail : List Char} {a b : UInt32} {v : SchemaVersion}

theorem endsPart_point (rest : List Char) : EndsPart ('.' :: rest) := .inr rfl

/-- A text is what stands before its first point, and the rest. -/
theorem exists_part (text : List Char) : ∃ A tail, text = A ++ tail ∧ '.' ∉ A ∧ EndsPart tail := by
  refine ⟨text.takeWhile (· ≠ '.'), text.dropWhile (· ≠ '.'),
    List.takeWhile_append_dropWhile.symm, ?_, ?_⟩
  · intro hmem
    simpa using List.mem_takeWhile_imp hmem
  · have hnot := List.head?_dropWhile_not (fun c => decide (c ≠ '.')) text
    unfold EndsPart
    cases htail : text.dropWhile (fun c => decide (c ≠ '.')) with
    | nil => exact .inl rfl
    | cons c tail =>
      rw [htail] at hnot
      exact .inr (by simpa using hnot)

theorem takeWhile_part (hA : '.' ∉ A) (htail : EndsPart tail) :
    (A ++ tail).takeWhile (· ≠ '.') = A ∧ (A ++ tail).dropWhile (· ≠ '.') = tail := by
  have hpos : ∀ c ∈ A, decide (c ≠ '.') = true := by
    intro c hc
    rw [decide_eq_true_eq]
    rintro rfl
    exact hA hc
  rw [List.takeWhile_append_of_pos hpos, List.dropWhile_append_of_pos hpos]
  rcases htail with rfl | hpoint
  · simp
  · obtain ⟨rest, rfl⟩ := List.head?_eq_some_iff.mp hpoint
    simp

/-- What a version's parser makes of a text without blanks around it. -/
theorem parse?_eq (text : String) (hA : '.' ∉ A) (htail : EndsPart tail)
    (htext : trim text.toList = A ++ tail) :
    parse? text = (count32? A).bind fun major =>
      if tail = [] then some ⟨major, 0⟩
      else (count32? ((tail.drop 1).takeWhile (· ≠ '.'))).map (⟨major, ·⟩) := by
  obtain ⟨htake, hdrop⟩ := takeWhile_part hA htail
  unfold parse?
  rw [htext]
  show ((count32? ((A ++ tail).takeWhile _)).bind _) = _
  rw [htake, hdrop]
  congr 1
  funext major
  cases tail with
  | nil => rfl
  | cons c rest =>
    rw [if_neg (List.cons_ne_nil c rest), Option.map_eq_bind]
    rfl

/-- A version is written by its first number alone, or by two and what may follow them. -/
theorem written_iff (hA : '.' ∉ A) (htail : EndsPart tail) : Written v (A ++ tail) ↔
    SpellsCount v.major A ∧
      if tail = [] then v.minor = 0
      else SpellsCount v.minor ((tail.drop 1).takeWhile (· ≠ '.')) := by
  obtain ⟨htake, hdrop⟩ := takeWhile_part hA htail
  constructor
  · generalize hcs : A ++ tail = cs at *
    intro h
    cases h with
    | major h =>
      have hpart := takeWhile_part h.not_mem_point (.inl rfl)
      rw [List.append_nil] at hpart
      rw [← htake, ← hdrop, hpart.1, hpart.2, if_pos rfl]
      exact ⟨h, rfl⟩
    | @minor a b _ B h hB =>
      have hpart := takeWhile_part h.not_mem_point (endsPart_point B)
      have hsecond := takeWhile_part hB.not_mem_point (.inl rfl)
      rw [List.append_nil] at hsecond
      rw [← htake, ← hdrop, hpart.1, hpart.2, if_neg (List.cons_ne_nil _ _), List.drop_one,
        List.tail_cons, hsecond.1]
      exact ⟨h, hB⟩
    | @rest a b _ B C h hB =>
      have hpart := takeWhile_part h.not_mem_point (endsPart_point (B ++ '.' :: C))
      have hsecond := takeWhile_part hB.not_mem_point (endsPart_point C)
      rw [← htake, ← hdrop, hpart.1, hpart.2, if_neg (List.cons_ne_nil _ _), List.drop_one,
        List.tail_cons, hsecond.1]
      exact ⟨h, hB⟩
  · obtain ⟨a, b⟩ := v
    rintro ⟨h, hminor⟩
    rcases htail with rfl | hpoint
    · rw [if_pos rfl] at hminor
      obtain rfl : b = 0 := hminor
      rw [List.append_nil]
      exact .major h
    · obtain ⟨rest, rfl⟩ := List.head?_eq_some_iff.mp hpoint
      obtain ⟨B, tail, rfl, hB, htail⟩ := exists_part rest
      rw [if_neg (List.cons_ne_nil _ _), List.drop_one, List.tail_cons,
        (takeWhile_part hB htail).1] at hminor
      rcases htail with rfl | hpoint
      · rw [List.append_nil]
        exact .minor h hminor
      · obtain ⟨C, rfl⟩ := List.head?_eq_some_iff.mp hpoint
        exact .rest C h hminor

/-- **A text is read as a version exactly if it writes it**, blanks around it aside. -/
theorem parse?_eq_some_iff (text : String) :
    parse? text = some v ↔ Written v (trim text.toList) := by
  obtain ⟨A, tail, htext, hA, htail⟩ := exists_part (trim text.toList)
  rw [parse?_eq text hA htail htext, htext, written_iff hA htail, ← count32?_eq_some_iff]
  obtain ⟨a, b⟩ := v
  cases count32? A with
  | none => simp
  | some major =>
    rw [Option.bind_some, Option.some_inj]
    by_cases hnil : tail = []
    · simp [hnil, eq_comm]
    · rw [if_neg hnil, if_neg hnil, ← count32?_eq_some_iff, Option.map_eq_some_iff]
      constructor
      · rintro ⟨minor, hminor, heq⟩
        obtain ⟨rfl, rfl⟩ := SchemaVersion.mk.inj heq
        exact ⟨rfl, hminor⟩
      · rintro ⟨rfl, hminor⟩
        exact ⟨b, hminor, rfl⟩

/-- The text of a version has no blanks at its ends. -/
theorem trim_text (v : SchemaVersion) : trim v.text.toList =
    Nat.toDigits 10 v.major.toNat ++ '.' :: Nat.toDigits 10 v.minor.toNat := by
  have hblank (c : Char) (hc : c.isDigit) : isBlank c = false := by
    simp only [Char.isDigit, Bool.and_eq_true, decide_eq_true_eq, UInt32.le_iff_toNat_le] at hc
    have hlow : 48 ≤ c.toNat := hc.1
    have hhigh : c.toNat ≤ 57 := hc.2
    simp only [isBlank, Bool.or_eq_false_iff, Bool.and_eq_false_iff, decide_eq_false_iff_not]
    omega
  obtain ⟨hmajor, hmajorDigits⟩ := digits_toDigits v.major.toNat
  obtain ⟨hminor, hminorDigits⟩ := digits_toDigits v.minor.toNat
  refine trims_iff.mp ⟨⟨[], [], ?_, by simp, by simp⟩, ?_, ?_⟩
  · simp [text]
  · intro c hc
    rw [List.head?_append, Option.or_of_isSome (List.isSome_head?.mpr hmajor)] at hc
    exact hblank c (hmajorDigits c (List.mem_of_mem_head? hc))
  · intro c hc
    rw [List.getLast?_append, List.getLast?_cons, Option.some_or,
      List.getLast?_eq_some_getLast hminor, Option.getD_some] at hc
    rw [← Option.some.inj hc]
    exact hblank _ (hminorDigits _ (List.getLast_mem hminor))

/-- **The texts of versions**: a text is read exactly if, blanks around it aside, it writes a version;
the text of a version is read as that version; and the layout goes by the first number alone, in
whatever way it is spelled. -/
theorem parse_iff_written :
    (∀ (text : String) (v : SchemaVersion),
      parse? text = some v ↔ ∃ core, Trims text.toList core ∧ Written v core) ∧
    (∀ v : SchemaVersion, parse? v.text = some v) ∧
    ∀ (text : String) (A tail : List Char) (a : UInt32) (v : SchemaVersion),
      Trims text.toList (A ++ tail) → EndsPart tail → SpellsCount a A → parse? text = some v →
        v.layout = if a = 0 then .legacy else .generic := by
  refine ⟨fun text v => ?_, fun v => ?_, fun text A tail a v htext htail ha hv => ?_⟩
  · rw [parse?_eq_some_iff]
    simp only [trims_iff]
    constructor
    · exact fun h => ⟨_, rfl, h⟩
    · rintro ⟨core, rfl, h⟩
      exact h
  · rw [parse?_eq_some_iff, trim_text]
    exact .minor (spellsCount_toDigits _) (spellsCount_toDigits _)
  · rw [parse?_eq_some_iff, trims_iff.mp htext, written_iff ha.not_mem_point htail,
      ← count32?_eq_some_iff, count32?_eq_some_iff.mpr ha] at hv
    rw [layout, ← Option.some.inj hv.1]

/-- A first number in many digits behind a sign and a blank, and something behind a second point. -/
theorem parse_iff_written_padded :
    parse? " +000.07.x\n" = some ⟨0, 7⟩ ∧ (⟨0, 7⟩ : SchemaVersion).layout = .legacy := by
  have hzeros : Digits "000".toList := by decide
  have hA : SpellsCount 0 "+000".toList := .plus hzeros (by decide)
  have hB : SpellsCount 7 "07".toList := .plain (by decide) (by decide)
  have htext : Trims " +000.07.x\n".toList ("+000".toList ++ '.' :: "07.x".toList) :=
    trims_iff.mpr (by decide)
  obtain ⟨hread, -, hlayout⟩ := parse_iff_written
  have hv : parse? " +000.07.x\n" = some ⟨0, 7⟩ :=
    (hread _ _).mpr ⟨_, htext, .rest ['x'] hA hB⟩
  exact ⟨hv, hlayout _ _ _ _ _ htext (.inr rfl) hA hv⟩

/-- An empty second number, a blank between the parts and a number beyond 32 bits. -/
example : [" 1.", "1 .0", "4294967296"].all (fun s => (parse? s).isNone) = true := by decide

end SchemaVersion

end ScenePack
