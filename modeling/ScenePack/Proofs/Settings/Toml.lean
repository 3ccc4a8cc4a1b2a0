import ScenePack.Proofs.Binary.Widen
import ScenePack.Proofs.Decimal.Plain
import ScenePack.Proofs.Settings.Assignment
import ScenePack.Proofs.Toml.Lines
import ScenePack.Proofs.Toml.Word
import ScenePack.Settings.Toml

/-!
# Settings in TOML, there and back

* `Assignment.TomlSpells`: the words that stand for a setting's value in TOML.
* `TomlAssigns`: the texts of documents that assign some settings.

Results:
* **`ofToml?_of_assigns`**: such a document is read as its assignments.
* `tomlSpells_tomlValue?`: what is written of a value stands for it, a NaN for some NaN.
* **`toToml?_assigns`**: what is written of settings assigns them all.
* **`toToml?_eq_none_iff`**: settings cannot be written exactly if a limit has more than 63 bits.
-/

namespace ScenePack

open Toml (Document SpellsFloat SpellsNatural SpellsLine Value)
open Text (SpellsSign)

/-- The words that stand for a setting's value in TOML. -/
inductive Assignment.TomlSpells : Assignment → List Char → Prop
  | on : TomlSpells (.templateFallback true) ['t', 'r', 'u', 'e']
  | off : TomlSpells (.templateFallback false) ['f', 'a', 'l', 's', 'e']
  | epsilon {x : Double} {word : List Char} : SpellsFloat x word →
      TomlSpells (.planeNormalEpsilon x.toSingle) word
  | objects {n : UInt64} {word : List Char} : SpellsNatural n.toNat word →
      n.toNat < 0x8000000000000000 → TomlSpells (.maxObjects n) word
  | materials {n : UInt64} {word : List Char} : SpellsNatural n.toNat word →
      n.toNat < 0x8000000000000000 → TomlSpells (.maxMaterials n) word
  | lights {n : UInt64} {word : List Char} : SpellsNatural n.toNat word →
      n.toNat < 0x8000000000000000 → TomlSpells (.maxLights n) word

/-- The text of a document that assigns some settings in this order, in lines `key = word`. -/
def TomlAssigns (as : List Assignment) (text : String) : Prop :=
  ∃ lines : List (Assignment × List Char), lines.map (·.1) = as ∧
    (∀ line ∈ lines, line.1.TomlSpells line.2) ∧
    Document (lines.map fun line => (line.1.name.key, line.2)) text.toList

/-! ## Reading -/

namespace Assignment

variable {a : Assignment} {word : List Char}

/-- The value that a word is read as. -/
def tomlRead (word : List Char) : Value := (Value.ofWord? word).getD .moment

/-- **A word that stands for a value is read as the assignment.** -/
theorem TomlSpells.ofToml? (h : a.TomlSpells word) : Value.ofWord? word = some (tomlRead word) ∧
    a.name.ofToml? (tomlRead word) = some a := by
  unfold tomlRead
  cases h with
  | on => exact ⟨rfl, rfl⟩
  | off => exact ⟨rfl, rfl⟩
  | epsilon h =>
    rw [Toml.ofWord?_of_spellsFloat h]
    exact ⟨rfl, rfl⟩
  | objects h hn | materials h hn | lights h hn =>
    rw [Toml.ofWord?_of_spellsNatural h hn]
    refine ⟨rfl, ?_⟩
    simp [name, SettingName.ofToml?]

end Assignment

namespace Settings

variable {as : List Assignment} {text : String}

/-- Entries that are kept, every one of them, are kept in their order. -/
theorem filterMapM_map_of_some {α β γ : Type} {f : β → Option (Option γ)} {entry : α → β}
    {kept : α → γ} {items : List α} (h : ∀ item ∈ items, f (entry item) = some (some (kept item))) :
    (items.map entry).filterMapM f = some (items.map kept) := by
  induction items with
  | nil => rfl
  | cons item items ih =>
    rw [List.forall_mem_cons] at h
    rw [List.map_cons, List.filterMapM_cons, h.1, ih h.2]
    rfl

/-- **A document that assigns different settings is read as its assignments.** -/
theorem ofToml?_of_assigns (h : TomlAssigns as text) (hnodup : (as.map (·.name)).Nodup) :
    ofToml? text = ofAssignments? as := by
  obtain ⟨lines, rfl, hspells, hdocument⟩ := h
  have hread : ∀ entry ∈ lines.map fun line => (line.1.name.key, line.2),
      Value.ofWord? entry.2 = some (Assignment.tomlRead entry.2) := by
    rw [List.forall_mem_map]
    exact fun line hline => (hspells line hline).ofToml?.1
  have hkeys : ((lines.map fun line => (line.1.name.key, line.2)).map (·.1)).Nodup := by
    have h := hnodup.map SettingName.key_injective
    simpa [Function.comp_def] using h
  unfold ofToml?
  rw [hdocument.parse?_eq hread hkeys, Option.bind_eq_bind, Option.bind_some, List.map_map,
    filterMapM_map_of_some fun line hline => ?_]
  · rfl
  · simp [(hspells line hline).ofToml?.2]

end Settings

/-! ## Writing -/

theorem Toml.IsNumberChar.isWordChar {c : Char} (h : Toml.IsNumberChar c) :
    Toml.isWordChar c = true := by
  rcases h with h | h
  · simp [Toml.isWordChar, Toml.isKeyChar, Char.isAlphanum, h]
  · have hothers : ['+', '-', '.', 'i', 'n', 'f', 'a'].all Toml.isWordChar = true := rfl
    exact List.all_eq_true.mp hothers c h

namespace Assignment

variable {a : Assignment} {word : List Char} {text : String}

/-- What stands for a value is a word. -/
theorem TomlSpells.isWord (h : a.TomlSpells word) :
    word ≠ [] ∧ ∀ c ∈ word, Toml.isWordChar c = true := by
  cases h with
  | on => exact ⟨nofun, List.all_eq_true.mp rfl⟩
  | off => exact ⟨nofun, List.all_eq_true.mp rfl⟩
  | epsilon h =>
    refine ⟨?_, fun c hc => (h.isNumberChar c hc).isWordChar⟩
    cases h <;> simp
  | objects h | materials h | lights h =>
    refine ⟨?_, fun c hc => (h.isNumberChar c hc).isWordChar⟩
    obtain ⟨-, hds, -⟩ := h
    simp [hds.digits.1]

theorem isPlain_tomlStyle : tomlStyle.IsPlain := ⟨rfl, rfl⟩

/-- What is written of a double spells it, up to the kind of a NaN. -/
theorem spellsFloat_render (x : Double) : ∃ y : Double,
    SpellsFloat y (tomlStyle.render .double x.number).toList ∧
      (y = x ∨ BinaryFormat.double.isNaN x.number = true ∧ y = .ofNumber BinaryFormat.double.nan) := by
  have hself : Double.ofNumber x.number = x := Double.ofNumber_number x
  have hrendered := DecimalStyle.rendered_render (F := .double) isPlain_tomlStyle (by decide)
    (by decide) x.number
  generalize (tomlStyle.render .double x.number).toList = text at hrendered ⊢
  cases hrendered with
  | finite hfinite hwhole hfraction hread =>
    refine ⟨x, .decimal (Text.spellsSign_minus _) hwhole hfraction ?_ fun hinf => ?_, .inl rfl⟩
    · rw [Double.ofDecimal, hread, hself]
    · simp only [Double.isInfinite, BinaryFormat.isInfinite, BinaryFormat.isFinite,
        decide_eq_true_eq] at hinf hfinite
      omega
  | infinite hnumber =>
    exact ⟨_, .infinity (Text.spellsSign_minus _), .inl (hnumber ▸ hself)⟩
  | nan hnan => exact ⟨_, .nan .none, .inr ⟨hnan, rfl⟩⟩

theorem spellsNatural_toString (n : Nat) : SpellsNatural n (toString n).toList := by
  rw [Nat.toString_eq_ofList_toDigits, String.toList_ofList]
  exact .mk .none (Text.plainDigits_toDigits n) (Text.ofDigits_toDigits n)

theorem tomlLimit?_eq_some {n : UInt64} : tomlLimit? n = some text ↔
    n.toNat < 0x8000000000000000 ∧ toString n.toNat = text := by
  unfold tomlLimit?
  split <;> simp_all

/-- **What is written of a value stands for it**; what is written of a NaN stands for a NaN. -/
theorem tomlSpells_tomlValue? (h : a.tomlValue? = some text) :
    ∃ b : Assignment, b.Same a ∧ b.TomlSpells text.toList := by
  cases a with
  | templateFallback on =>
    obtain rfl : (if on then "true" else "false") = text := Option.some.inj h
    refine ⟨_, Same.refl _, ?_⟩
    cases on
    · exact .off
    · exact .on
  | planeNormalEpsilon x =>
    obtain rfl : tomlStyle.render .double x.toDouble.number = text := Option.some.inj h
    obtain ⟨y, hspells, hy⟩ := spellsFloat_render x.toDouble
    refine ⟨.planeNormalEpsilon y.toSingle, ?_, .epsilon hspells⟩
    cases hnan : x.isNaN with
    | false =>
      have hnumber : BinaryFormat.double.isNaN x.toDouble.number = false :=
        decide_eq_false (Nat.not_lt.mpr (Single.number_toDouble hnan).1)
      rcases hy with rfl | ⟨hy, -⟩
      · exact .inl (Single.toSingle_toDouble hnan)
      · exact absurd hy (by simp [hnumber])
    | true =>
      have hnumber : x.toDouble = .ofNumber BinaryFormat.double.nan := by
        rw [← Single.toDouble_of_nan hnan, Double.ofNumber_number]
      have hy : y = .ofNumber BinaryFormat.double.nan := by
        rcases hy with rfl | ⟨-, rfl⟩
        · exact hnumber
        · rfl
      exact .inr ⟨by rw [hy]; decide, hnan⟩
  | maxObjects n | maxMaterials n | maxLights n =>
    obtain ⟨hn, rfl⟩ := tomlLimit?_eq_some.mp h
    refine ⟨_, Same.refl _, ?_⟩
    constructor
    · exact spellsNatural_toString _
    · exact hn

/-- A key and a word with one space on both sides of the equals sign are a line. -/
theorem spellsLine_of_isWord (name : SettingName) (hne : word ≠ [])
    (hchars : ∀ c ∈ word, Toml.isWordChar c = true) :
    SpellsLine name.key word (name.key.toList ++ (' ' :: '=' :: ' ' :: word)) := by
  have hkey : name.key.toList ≠ [] ∧ ∀ c ∈ name.key.toList, Toml.isKeyChar c = true := by
    cases name <;> exact ⟨nofun, List.all_eq_true.mp rfl⟩
  have hnone : ∀ c ∈ [], Toml.isBlank c = true := List.forall_mem_nil _
  have hblank : ∀ c ∈ [' '], Toml.isBlank c = true := List.forall_mem_singleton.mpr rfl
  have hline := SpellsLine.mk hnone hblank hblank hkey.1 hkey.2 hne hchars (.bare hnone)
  simpa using hline

end Assignment

namespace Settings

variable {s : Settings} {text : String}

/-- The lines of some settings are a document that assigns them. -/
theorem assigns_of_mapM {names : List SettingName} {lines : List String}
    (h : names.mapM (fun name => (s.get name).tomlLine?) = some lines) :
    ∃ words : List (Assignment × List Char), words.map (·.1.name) = names ∧
      (∀ w ∈ words, w.1.TomlSpells w.2 ∧ w.1.Same (s.get w.1.name)) ∧
      Document (words.map fun w => (w.1.name.key, w.2)) (lines.flatMap String.toList) := by
  induction names generalizing lines with
  | nil =>
    obtain rfl : [] = lines := Option.some.inj h
    exact ⟨[], rfl, by simp, .nil (.bare (by simp))⟩
  | cons name names ih =>
    rw [List.mapM_cons, Option.bind_eq_bind, Option.bind_eq_some_iff] at h
    obtain ⟨line, hline, h⟩ := h
    rw [Option.bind_eq_bind, Option.bind_eq_some_iff] at h
    obtain ⟨more, hmore, hlines⟩ := h
    obtain rfl : line :: more = lines := Option.some.inj hlines
    obtain ⟨words, rfl, hwords, hdocument⟩ := ih hmore
    obtain ⟨text, htext, rfl⟩ := Option.map_eq_some_iff.mp hline
    obtain ⟨a, hsame, hspells⟩ := Assignment.tomlSpells_tomlValue? htext
    have hname : a.name = name := by rw [hsame.name_eq, name_get]
    refine ⟨(a, text.toList) :: words, by simp [hname], ?_, ?_⟩
    · rw [List.forall_mem_cons]
      refine ⟨⟨hspells, ?_⟩, hwords⟩
      rw [hname]
      exact hsame
    · have hword := Assignment.spellsLine_of_isWord name hspells.isWord.1 hspells.isWord.2
      have hcons := Document.cons hword .lf hdocument
      simpa [hname, name_get] using hcons

/-- The joined lines of some settings assign them. -/
theorem tomlAssigns_join {names : List SettingName} {lines : List String}
    (h : names.mapM (fun name => (s.get name).tomlLine?) = some lines) :
    ∃ as, TomlAssigns as (String.join lines) ∧ as.map (·.name) = names ∧
      ∀ a ∈ as, a.Same (s.get a.name) := by
  obtain ⟨words, hnames, hwords, hdocument⟩ := assigns_of_mapM h
  refine ⟨words.map (·.1), ⟨words, rfl, fun w hw => (hwords w hw).1, ?_⟩, ?_, ?_⟩
  · rwa [String.toList_join]
  · rw [List.map_map]
    exact hnames
  · rw [List.forall_mem_map]
    exact fun w hw => (hwords w hw).2

/-- **What is written of settings assigns them all**, a NaN as some NaN. -/
theorem toToml?_assigns (h : s.toToml? = some text) : ∃ as, TomlAssigns as text ∧
    as.map (·.name) = SettingName.all ∧ ∀ a ∈ as, a.Same (s.get a.name) := by
  obtain ⟨lines, hlines, htext⟩ := Option.bind_eq_some_iff.mp h
  obtain rfl : String.join lines = text := Option.some.inj htext
  exact tomlAssigns_join hlines

theorem tomlLimit?_eq_none_iff {n : UInt64} :
    Assignment.tomlLimit? n = none ↔ 0x8000000000000000 ≤ n.toNat := by
  unfold Assignment.tomlLimit?
  split <;> simp_all

/-- Where no limit is too large, some settings are assigned in any order. -/
theorem exists_tomlAssigns (names : List SettingName)
    (h : ∀ n ∈ [s.maxObjects, s.maxMaterials, s.maxLights], n.toNat < 0x8000000000000000) :
    ∃ as text, TomlAssigns as text ∧ as.map (·.name) = names ∧ ∀ a ∈ as, a.Same (s.get a.name) := by
  have hlimit {n : UInt64} (hn : n.toNat < 0x8000000000000000) :
      Assignment.tomlLimit? n = some (toString n.toNat) := if_pos hn
  have hline (name : SettingName) : ∃ line, (s.get name).tomlLine? = some line := by
    cases name <;> simp_all [get, Assignment.tomlLine?, Assignment.tomlValue?]
  have hlines : ∃ lines, names.mapM (fun name => (s.get name).tomlLine?) = some lines := by
    induction names with
    | nil => exact ⟨[], rfl⟩
    | cons name names ih =>
      obtain ⟨line, hline⟩ := hline name
      obtain ⟨lines, hlines⟩ := ih
      exact ⟨line :: lines, by simp [List.mapM_cons, hline, hlines]⟩
  obtain ⟨lines, hlines⟩ := hlines
  obtain ⟨as, has⟩ := tomlAssigns_join hlines
  exact ⟨as, String.join lines, has⟩

/-- **Settings cannot be written exactly if a limit has more than 63 bits.** -/
theorem toToml?_eq_none_iff : s.toToml? = none ↔
    ∃ n ∈ [s.maxObjects, s.maxMaterials, s.maxLights], 0x8000000000000000 ≤ n.toNat := by
  simp only [toToml?, SettingName.all, get, Assignment.tomlLine?, Assignment.tomlValue?,
    List.mapM_cons, List.mapM_nil, List.exists_mem_cons_iff, List.not_mem_nil, false_and,
    exists_false, or_false, ← tomlLimit?_eq_none_iff]
  cases Assignment.tomlLimit? s.maxObjects <;> cases Assignment.tomlLimit? s.maxMaterials <;>
    cases Assignment.tomlLimit? s.maxLights <;> simp

end Settings

end ScenePack
