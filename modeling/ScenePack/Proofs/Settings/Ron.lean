import ScenePack.Proofs.Binary.Widen
import ScenePack.Proofs.Decimal.Plain
import ScenePack.Proofs.Ron.Structure
import ScenePack.Proofs.Settings.Assignment
import ScenePack.Settings.Ron

/-!
# Settings in RON, there and back

* `Assignment.RonSpells`: the words that stand for a setting's value in RON.
* `RonAssigns`: the texts of documents that assign some settings.

Results:
* **`ofRon?_of_assigns`**: such a document is read as its assignments.
* `exists_ronSpells`: what is written of a value stands for it, a NaN for some NaN.
* **`toRon_assigns`**: what is written of settings assigns them all.
-/

namespace ScenePack

open Ron (SpellsField SpellsFields SpellsGap SpellsSingle SpellsStructure)
open Text (Digits Parser Stops)

/-- The words that stand for a setting's value in RON. -/
inductive Assignment.RonSpells : Assignment → List Char → Prop
  | on : RonSpells (.templateFallback true) ['t', 'r', 'u', 'e']
  | off : RonSpells (.templateFallback false) ['f', 'a', 'l', 's', 'e']
  | epsilon {x : Single} {word : List Char} : SpellsSingle x word →
      RonSpells (.planeNormalEpsilon x) word
  | objects {n : UInt64} {word : List Char} : Digits word → Text.ofDigits word = n.toNat →
      RonSpells (.maxObjects n) word
  | materials {n : UInt64} {word : List Char} : Digits word → Text.ofDigits word = n.toNat →
      RonSpells (.maxMaterials n) word
  | lights {n : UInt64} {word : List Char} : Digits word → Text.ofDigits word = n.toNat →
      RonSpells (.maxLights n) word

/-- The text of a document that assigns some settings in this order, in fields `key: word`. -/
def RonAssigns (as : List Assignment) (text : String) : Prop :=
  ∃ fields : List (Assignment × List Char), fields.map (·.1) = as ∧
    (∀ field ∈ fields, field.1.RonSpells field.2) ∧
    SpellsStructure "CompilerConfig" (fields.map fun field => (field.1.name.key, field.2)) text.toList

/-! ## Reading -/

namespace Assignment

variable {a : Assignment} {word rest : List Char}

/-- **A word that stands for a value is read as the assignment.** -/
theorem RonSpells.reads (h : a.RonSpells word) (hrest : Stops Ron.isRawChar rest) :
    a.name.ronValue.Reads word a rest := by
  have hname : Stops Ron.isNameChar rest := hrest.mono fun c hc => Ron.isRawChar_of_isNameChar hc
  cases h with
  | on => exact (Ron.reads_true hname).map
  | off => exact (Ron.reads_false hname).map
  | epsilon h => exact (h.reads hrest).map
  | objects h hn | materials h hn | lights h hn => exact (Ron.reads_natural64 h hn hname).map

/-- Digits do not begin like a gap. -/
theorem head_of_digits (h : Digits word) (more : List Char) :
    ∃ c ∈ (word ++ more).head?, Ron.isBlank c = false ∧ c ≠ '/' := by
  obtain ⟨c, cs, rfl⟩ := List.exists_cons_of_ne_nil h.1
  refine ⟨c, rfl, Bool.eq_false_iff.mpr fun hblank => ?_, ?_⟩
  · have hnone : [' ', '\t', '\n', '\r'].any Char.isDigit = false := rfl
    exact List.any_eq_false.mp hnone c (Ron.isBlank_cases hblank) (h.2 c (by simp))
  · rintro rfl
    exact absurd (h.2 '/' (by simp)) (by decide)

/-- A word does not begin like a gap. -/
theorem RonSpells.head (h : a.RonSpells word) :
    ∃ c ∈ word.head?, Ron.isBlank c = false ∧ c ≠ '/' := by
  cases h with
  | on => exact ⟨'t', rfl, by decide⟩
  | off => exact ⟨'f', rfl, by decide⟩
  | epsilon h =>
    cases h with
    | decimal hsign hwhole =>
      cases hsign with
      | none =>
        rw [List.nil_append]
        exact head_of_digits hwhole _
      | plus => exact ⟨'+', rfl, by decide⟩
      | minus => exact ⟨'-', rfl, by decide⟩
    | infinity hsign | nan hsign => cases hsign <;> exact ⟨_, rfl, by decide⟩
  | objects h | materials h | lights h =>
    have hhead := head_of_digits h []
    rwa [List.append_nil] at hhead

theorem isName_key (name : SettingName) : Ron.IsName name.key := by
  cases name <;> exact ⟨⟨_, rfl, by decide⟩, List.all_eq_true.mp rfl⟩

/-- What a field is read as. -/
def ronRead (field : String × List Char) : Option Assignment :=
  (SettingName.ofKey? field.1).bind fun name => name.ronValue.run field.2

theorem RonSpells.ronRead_eq (h : a.RonSpells word) : ronRead (a.name.key, word) = some a := by
  unfold ronRead
  rw [SettingName.ofKey?_key, Option.bind_some, (h.reads Stops.nil).run]

theorem RonSpells.readsField (h : a.RonSpells word) :
    Ron.ReadsField SettingName.ronField ronRead (a.name.key, word) := by
  refine ⟨isName_key _, h.head, fun rest hrest => ?_⟩
  unfold SettingName.ronField
  rw [SettingName.ofKey?_key, h.ronRead_eq]
  exact (h.reads hrest).map

end Assignment

namespace Settings

variable {as : List Assignment} {text : String}

theorem isName_structName : Ron.IsName "CompilerConfig" :=
  ⟨⟨'C', rfl, by decide⟩, List.all_eq_true.mp rfl⟩

/-- **A document that assigns some settings is read as its assignments.** -/
theorem ofRon?_of_assigns (h : RonAssigns as text) : ofRon? text = ofAssignments? as := by
  obtain ⟨fields, rfl, hspells, hstructure⟩ := h
  have hfields : ∀ entry ∈ fields.map fun field => (field.1.name.key, field.2),
      Ron.ReadsField SettingName.ronField Assignment.ronRead entry := by
    rw [List.forall_mem_map]
    exact fun field hfield => (hspells field hfield).readsField
  have hall : (fields.map fun field => (field.1.name.key, field.2)).map Assignment.ronRead =
      fields.map fun field => some field.1 := by
    rw [List.map_map]
    exact List.map_congr_left fun field hfield => (hspells field hfield).ronRead_eq
  unfold ofRon?
  rw [hstructure.fields_eq isName_structName hfields, hall, Option.bind_eq_bind, Option.bind_some]
  simp [List.filterMap_map]

end Settings

/-! ## Writing -/

namespace Assignment

theorem isPlain_ronStyle : ronStyle.IsPlain := ⟨rfl, rfl⟩

/-- What is written of a single spells it, up to the kind of a NaN. -/
theorem spellsSingle_render (x : Single) : ∃ y : Single,
    SpellsSingle y (ronStyle.render .single x.number).toList ∧
      (y = x ∨ y.isNaN = true ∧ x.isNaN = true) := by
  have hself : Single.ofNumber x.number = x := Single.ofNumber_number x
  have hrendered := DecimalStyle.rendered_render (F := .single) isPlain_ronStyle (by decide)
    (by decide) x.number
  generalize (ronStyle.render .single x.number).toList = text at hrendered ⊢
  cases hrendered with
  | finite hfinite hwhole hfraction hread =>
    refine ⟨_, .decimal (Text.spellsSign_minus _) hwhole.digits hfraction, .inl ?_⟩
    rw [Single.ofDecimal, hread, hself]
  | infinite hnumber =>
    exact ⟨_, .infinity (Text.spellsSign_minus _), .inl (hnumber ▸ hself)⟩
  | nan hnan => exact ⟨_, .nan .none, .inr ⟨by decide, hnan⟩⟩

/-- **What is written of a value stands for it**; what is written of a NaN stands for a NaN. -/
theorem exists_ronSpells (a : Assignment) :
    ∃ b : Assignment, b.Same a ∧ b.RonSpells a.ronText.toList := by
  cases a with
  | templateFallback on =>
    refine ⟨_, Same.refl _, ?_⟩
    cases on
    · exact .off
    · exact .on
  | planeNormalEpsilon x =>
    obtain ⟨y, hspells, hy⟩ := spellsSingle_render x
    exact ⟨.planeNormalEpsilon y, hy, .epsilon hspells⟩
  | maxObjects n | maxMaterials n | maxLights n =>
    have htext : (toString n.toNat).toList = Nat.toDigits 10 n.toNat := by
      rw [Nat.toString_eq_ofList_toDigits, String.toList_ofList]
    refine ⟨_, Same.refl _, ?_⟩
    constructor
    · rw [ronText, htext]
      exact Text.digits_toDigits _
    · rw [ronText, htext]
      exact Text.ofDigits_toDigits _

end Assignment

namespace Settings

variable {s : Settings}

/-- Four spaces, with which every line is indented. -/
def indent : List Char := [' ', ' ', ' ', ' ']

theorem spellsGap_of_forall {cs : List Char} (h : ∀ c ∈ cs, Ron.isBlank c = true) : SpellsGap cs := by
  induction cs with
  | nil => exact .nil
  | cons c cs ih =>
    rw [List.forall_mem_cons] at h
    exact .blank h.1 (ih h.2)

/-- A key and a word behind a colon and a space are a field. -/
theorem spellsField_space (key : String) (word : List Char) :
    SpellsField key word (key.toList ++ (':' :: ' ' :: word)) := by
  have hspace : SpellsGap [' '] := .blank rfl .nil
  have hfield : SpellsField key word _ := .mk .nil hspace .nil
  simpa using hfield

/-- The lines of some settings are indented fields that assign them. -/
theorem fields_of_map (s : Settings) {names : List SettingName} (hne : names ≠ []) :
    ∃ words : List (Assignment × List Char), words.map (·.1.name) = names ∧
      (∀ w ∈ words, w.1.RonSpells w.2 ∧ w.1.Same (s.get w.1.name)) ∧
      ∃ body, (names.map fun name => (s.get name).ronLine).flatMap String.toList = indent ++ body ∧
        SpellsFields (words.map fun w => (w.1.name.key, w.2)) body := by
  induction names with
  | nil => exact absurd rfl hne
  | cons name names ih =>
    obtain ⟨a, hsame, hspells⟩ := Assignment.exists_ronSpells (s.get name)
    have hname : a.name = name := by rw [hsame.name_eq, name_get]
    have hline : (s.get name).ronLine.toList =
        indent ++ (name.key.toList ++ (':' :: ' ' :: (s.get name).ronText.toList) ++ [',', '\n']) := by
      simp [Assignment.ronLine, indent]
    have hsame : a.Same (s.get a.name) := by rwa [hname]
    generalize (s.get name).ronText.toList = word at hspells hline
    have hfield := spellsField_space name.key word
    generalize name.key.toList ++ (':' :: ' ' :: word) = field at hline hfield
    rcases eq_or_ne names [] with rfl | hmore
    · have hcomma := SpellsFields.comma hfield (.blank (c := '\n') rfl .nil)
      exact ⟨[(a, word)], by simp [hname], by simp [hspells, hsame], field ++ [',', '\n'],
        by simp [hline], by simpa [hname] using hcomma⟩
    · obtain ⟨words, rfl, hwords, body, htext, hbody⟩ := ih hmore
      have hblanks : SpellsGap ('\n' :: indent) := spellsGap_of_forall (List.all_eq_true.mp rfl)
      have hcons := SpellsFields.cons hfield hblanks hbody
      refine ⟨(a, word) :: words, by simp [hname], ?_, field ++ ',' :: ('\n' :: indent ++ body), ?_, ?_⟩
      · exact List.forall_mem_cons.mpr ⟨⟨hspells, hsame⟩, hwords⟩
      · rw [List.map_cons, List.flatMap_cons, hline, htext]
        simp
      · simpa [hname] using hcons

/-- Some settings are assigned in any order. -/
theorem exists_ronAssigns (s : Settings) (names : List SettingName) :
    ∃ as text, RonAssigns as text ∧ as.map (·.name) = names ∧ ∀ a ∈ as, a.Same (s.get a.name) := by
  rcases eq_or_ne names [] with rfl | hne
  · exact ⟨[], "()", ⟨[], rfl, by simp, .bare .nil .bare .nil .nil⟩, rfl, by simp⟩
  · obtain ⟨words, hnames, hwords, body, -, hbody⟩ := fields_of_map s hne
    have hstructure : SpellsStructure "CompilerConfig" _ _ := .full .nil .bare .nil hbody .nil
    refine ⟨words.map (·.1), String.ofList ('(' :: (body ++ [')'])),
      ⟨words, rfl, fun w hw => (hwords w hw).1, ?_⟩, ?_, ?_⟩
    · rw [String.toList_ofList]
      exact hstructure
    · rw [List.map_map]
      exact hnames
    · rw [List.forall_mem_map]
      exact fun w hw => (hwords w hw).2

/-- **What is written of settings assigns them all**, a NaN as some NaN. -/
theorem toRon_assigns (s : Settings) : ∃ as, RonAssigns as s.toRon ∧
    as.map (·.name) = SettingName.all ∧ ∀ a ∈ as, a.Same (s.get a.name) := by
  obtain ⟨words, hnames, hwords, body, htext, hbody⟩ := fields_of_map s (by decide : SettingName.all ≠ [])
  refine ⟨words.map (·.1), ⟨words, rfl, fun w hw => (hwords w hw).1, ?_⟩, ?_, ?_⟩
  · have hinner : SpellsGap ('\n' :: indent) := spellsGap_of_forall (List.all_eq_true.mp rfl)
    have hstructure : SpellsStructure "CompilerConfig" _ _ := .full .nil .bare hinner hbody .nil
    have htoList : s.toRon.toList = '(' :: '\n' :: (indent ++ body ++ [')']) := by
      simp [toRon, String.toList_join, ← htext]
    rw [htoList]
    simpa using hstructure
  · rw [List.map_map]
    exact hnames
  · rw [List.forall_mem_map]
    exact fun w hw => (hwords w hw).2

end Settings

end ScenePack
