import ScenePack.Proofs.Scene.FirstFault

/-!
# Types of what is read

Where a scene is looked at and nothing offends, there stands a value of a declared type: sections
and entries are objects, lists are arrays, scalars are of their own type and not of another that
could stand for it. Two forms go beyond the declared types. Bloom settings may be an array, whose
items are then typed by position. And a name may be the one key of an object, with `null` behind it.

* `FieldType.Declared` is the declared type of a field, `FieldType.Takes` what a field takes.
* `SceneTyped` says of a whole scene that its fields are what they should be, `ScenePlain` that the
  two forms do not occur.

Results:
* `FieldType.takes_of_fits`: what fits a field is what it takes.
* `Schema.takes_of_clear`, `Bloom.taken_of_clear`: fields in which nothing offends.
* `SceneReading.part_of_clear`, `list_of_clear`: sections and lists in which nothing offends.
* `declared_iff_plain`: what a scene takes is of declared types iff the two forms do not occur.
* **`typed_of_parse`**: every scene that is read is typed, and is of declared types iff it is plain.
  What is not typed is an error.
-/

namespace ScenePack

open Json (Value Fields)
open ScenePlace (Clear clear_append clear_cons clear_relocate)

/-! ## Types -/

namespace Json

/-- The types of JSON values. -/
inductive Kind where
  | null
  | bool
  | number
  | string
  | array
  | object
  deriving DecidableEq, Repr

def Value.kind : Value → Kind
  | null => .null
  | bool _ => .bool
  | number _ => .number
  | string _ => .string
  | array _ => .array
  | object _ => .object

end Json

namespace FieldType

/-- The types that a field is declared with. -/
def kinds : FieldType → List Json.Kind
  | vector => [.null, .bool, .number, .string, .array, .object]
  | single | count => [.number]
  | truth => [.bool]
  | text => [.string]
  | version => [.string, .number]
  | template | name _ => [.string]
  | nullable t => .null :: t.kinds

/-- The names that a field of names knows. -/
def knows : FieldType → String → Bool
  | template, tag => (MaterialTemplate.ofTag? tag).isSome
  | name known, tag => known tag
  | nullable t, tag => t.knows tag
  | _, _ => false

/-- A value is of a declared type. -/
def Declared (t : FieldType) (v : Value) : Prop := v.kind ∈ t.kinds

/-- A value is of a declared type, or a known name as the one key of an object. -/
def Takes (t : FieldType) (v : Value) : Prop :=
  t.Declared v ∨ ∃ tag, t.knows tag = true ∧ v = .object [(tag, .null)]

/-- An object that fits a template is a known tag with `null` behind it. -/
theorem knows_of_template_fits {fields : Fields} (h : template.fits (.object fields) = true) :
    ∃ tag, template.knows tag = true ∧ fields = [(tag, .null)] := by
  rcases fields with _ | ⟨⟨tag, inner⟩, _ | ⟨field, fields⟩⟩
  · exact absurd h Bool.false_ne_true
  · cases inner with
    | null => exact ⟨tag, h, rfl⟩
    | _ => exact absurd h Bool.false_ne_true
  · cases inner <;> exact absurd h Bool.false_ne_true

/-- An object that fits a name is a known one with `null` behind it. -/
theorem knows_of_name_fits {known : String → Bool} {fields : Fields}
    (h : (name known).fits (.object fields) = true) :
    ∃ tag, (name known).knows tag = true ∧ fields = [(tag, .null)] := by
  rcases fields with _ | ⟨⟨tag, inner⟩, _ | ⟨field, fields⟩⟩
  · exact absurd h Bool.false_ne_true
  · obtain ⟨hknown, hnull⟩ := Bool.and_eq_true_iff.mp h
    cases inner with
    | null => exact ⟨tag, hknown, rfl⟩
    | _ => exact absurd hnull Bool.false_ne_true
  · exact absurd h Bool.false_ne_true

theorem takes_of_fits {t : FieldType} {v : Value} (h : t.fits v = true) : t.Takes v := by
  induction t with
  | vector => cases v <;> simp [Takes, Declared, kinds, Value.kind]
  | single | count | truth | text | version =>
    revert h
    cases v <;> simp [fits, Takes, Declared, kinds, Value.kind]
  | template =>
    cases v with
    | string s => simp [Takes, Declared, kinds, Value.kind]
    | object fields =>
      obtain ⟨tag, htag, rfl⟩ := knows_of_template_fits h
      exact .inr ⟨tag, htag, rfl⟩
    | _ => exact absurd h Bool.false_ne_true
  | name known =>
    cases v with
    | string s => simp [Takes, Declared, kinds, Value.kind]
    | object fields =>
      obtain ⟨tag, htag, rfl⟩ := knows_of_name_fits h
      exact .inr ⟨tag, htag, rfl⟩
    | _ => exact absurd h Bool.false_ne_true
  | nullable t ih =>
    cases v with
    | null => exact .inl List.mem_cons_self
    | _ =>
      rcases ih h with hkind | htag
      · exact .inl (List.mem_cons_of_mem _ hkind)
      · exact .inr htag

/-- Whether a field wants a name. -/
def isName : FieldType → Bool
  | template | name _ => true
  | nullable t => t.isName
  | _ => false

theorem isName_of_knows {t : FieldType} {tag : String} (h : t.knows tag = true) :
    t.isName = true := by
  induction t with
  | template | name known => rfl
  | nullable t ih => exact ih h
  | _ => exact absurd h nofun

/-- What is taken without being of a declared type is a name that is written as a key. -/
theorem declared_of_takes {t : FieldType} {v : Value} (h : t.Takes v)
    (hplain : t.isName = true → ∀ inner, v ≠ .object inner) : t.Declared v := by
  rcases h with hkind | ⟨tag, htag, hv⟩
  · exact hkind
  · exact absurd hv (hplain (isName_of_knows htag) _)

end FieldType

/-! ## Fields in which nothing offends -/

section Clear

variable {fields : Fields} {P : Fields → Prop} {places : Fields → List FieldPlace}

/-- What is found where nothing offends is what its field takes. -/
theorem FieldType.takes_of_clear {t : FieldType} {step : PathStep} {found : Option Value} {v : Value}
    (h : Clear (t.placesAt step found)) (hv : found = some v) : t.Takes v := by
  subst hv
  have hfits : (!t.fits v) = false := (clear_cons.mp h).1
  exact takes_of_fits (by simpa using hfits)

/-- The rows of a schema, from any row on. -/
theorem takes_of_clear_rowPlaces {rows : List (String × FieldType)}
    (h : Clear (rowPlaces fields rows)) :
    ∀ row ∈ rows, ∀ v, fields.get? row.1 = some v → row.2.Takes v := by
  induction rows with
  | nil => exact fun row hrow => absurd hrow List.not_mem_nil
  | cons first rows ih =>
    obtain ⟨hfirst, hrest⟩ := clear_append.mp h
    intro row hrow v hv
    rcases List.mem_cons.mp hrow with rfl | hrow
    · exact FieldType.takes_of_clear hfirst hv
    · exact ih hrest row hrow v hv

/-- Every field of a schema is what it should be, if it is there. -/
def Schema.Holds (P : FieldType → Value → Prop) (s : Schema) (fields : Fields) : Prop :=
  ∀ row ∈ s.fields, ∀ v, fields.get? row.1 = some v → P row.2 v

namespace Schema

variable {s : Schema}

theorem takes_of_clear (h : Clear (s.places fields)) : s.Holds FieldType.Takes fields :=
  takes_of_clear_rowPlaces h

/-- Fields of which no name is written as a key are of declared types. -/
theorem declared_of_takes (h : s.Holds FieldType.Takes fields)
    (hplain : ∀ row ∈ s.fields, row.2.isName = true → ∀ inner,
      fields.get? row.1 ≠ some (.object inner)) : s.Holds FieldType.Declared fields := by
  intro row hrow v hv
  refine FieldType.declared_of_takes (h row hrow v hv) fun hname inner hinner => ?_
  exact hplain row hrow hname inner (hv.trans (congrArg some hinner))

/-- A schema without names. -/
theorem declared_of_noNames (h : s.Holds FieldType.Takes fields)
    (hnames : ∀ row ∈ s.fields, row.2.isName = false) : s.Holds FieldType.Declared fields := by
  refine declared_of_takes h fun row hrow hname => ?_
  rw [hnames row hrow] at hname
  exact absurd hname nofun

/-- A field of a declared type is no object unless one is declared. -/
theorem ne_object_of_declared (h : s.Holds FieldType.Declared fields) {key : String} {t : FieldType}
    (hrow : (key, t) ∈ s.fields) (hkinds : Json.Kind.object ∉ t.kinds) (inner : Fields) :
    fields.get? key ≠ some (.object inner) :=
  fun hget => hkinds (h (key, t) hrow _ hget)

end Schema

/-! ## Sections and lists in which nothing offends -/

namespace Bloom

/-- Bloom settings by name. -/
def Declared (v : Value) : Prop :=
  ∃ fields, v = .object fields ∧ schema.Holds FieldType.Declared fields

/-- Bloom settings by name, or by position in a list. -/
inductive Taken : Value → Prop
  | object {fields : Fields} (h : schema.Holds FieldType.Takes fields) : Taken (.object fields)
  | array {items : List Value} (hlen : items.length ≤ 6)
      (h : ∀ (i : Nat) (t : FieldType) (v : Value), itemTypes[i]? = some t → items[i]? = some v →
        t.Takes v) : Taken (.array items)

/-- The items of a list from position `i` on. -/
theorem takes_of_clear_itemPlaces {items : List Value} {ts : List FieldType} {i : Nat}
    (h : Clear (itemPlaces items i ts)) {k : Nat} {t : FieldType} {v : Value}
    (ht : ts[k]? = some t) (hv : items[i + k]? = some v) : t.Takes v := by
  induction ts generalizing i k with
  | nil => exact absurd ht nofun
  | cons first ts ih =>
    obtain ⟨hfirst, hrest⟩ := clear_append.mp h
    cases k with
    | zero =>
      obtain rfl := Option.some.inj ht
      exact FieldType.takes_of_clear hfirst hv
    | succ k =>
      rw [← Nat.add_assoc, Nat.add_right_comm] at hv
      exact ih hrest ht hv

theorem taken_of_clear {v : Value} (h : Clear (Bloom.places v)) : Taken v := by
  cases v with
  | object fields => exact .object (Schema.takes_of_clear h)
  | array items =>
    obtain ⟨hitems, hlen⟩ := clear_append.mp h
    have hle : ¬ 6 < items.length := of_decide_eq_false (clear_cons.mp hlen).1
    refine .array (Nat.le_of_not_lt hle) fun i t v ht hv => ?_
    exact takes_of_clear_itemPlaces hitems ht (by rwa [Nat.zero_add])
  | _ => exact absurd (clear_cons.mp h).1 nofun

end Bloom

/-- Render settings and the bloom settings among them. -/
def RenderSettings.Holds (P : FieldType → Value → Prop) (bloom : Value → Prop) (fields : Fields) :
    Prop := (∀ v, fields.get? "bloom" = some v → bloom v) ∧ schema.Holds P fields

theorem RenderSettings.taken_of_clear (h : Clear (RenderSettings.places fields)) :
    RenderSettings.Holds FieldType.Takes Bloom.Taken fields := by
  obtain ⟨hbloom, hfields⟩ := clear_append.mp h
  refine ⟨fun v hv => ?_, Schema.takes_of_clear hfields⟩
  rw [hv] at hbloom
  exact Bloom.taken_of_clear (clear_relocate.mp hbloom)

/-- A material's header and overrides. -/
def Material.Holds (P : FieldType → Value → Prop) (fields : Fields) : Prop :=
  MaterialHeader.schema.Holds P fields ∧ MaterialOverrides.schema.Holds P fields

theorem Material.taken_of_clear {fallback : Bool} (h : Clear (Material.places fallback fields)) :
    Material.Holds FieldType.Takes fields := by
  obtain ⟨hheader, htemplate⟩ := clear_append.mp h
  exact ⟨Schema.takes_of_clear hheader, Schema.takes_of_clear (clear_cons.mp htemplate).2⟩

/-- What an object is, and its geometry. -/
def SceneObject.Holds (P : FieldType → Value → Prop) (fields : Fields) : Prop :=
  SceneObject.schema.Holds P fields ∧ Geometry.schema.Holds P fields

theorem SceneObject.taken_of_clear (h : Clear (SceneObject.places fields)) :
    SceneObject.Holds FieldType.Takes fields := by
  obtain ⟨hkind, hgeometry⟩ := clear_append.mp h
  exact ⟨Schema.takes_of_clear hkind, Schema.takes_of_clear hgeometry⟩

namespace SceneReading

variable {root : Fields} {key : String} {path : List PathStep} {v : Value}

/-- A section is missing, `null` or an object. -/
def Part (P : Fields → Prop) (found : Option Value) : Prop :=
  found = none ∨ found = some .null ∨ ∃ fields, found = some (.object fields) ∧ P fields

/-- A list is missing, `null` or an array of objects. -/
def Entries (P : Fields → Prop) (found : Option Value) : Prop :=
  found = none ∨ found = some .null ∨
    ∃ entries : List Fields, found = some (.array (entries.map .object)) ∧ ∀ e ∈ entries, P e

variable {Q : Fields → Prop} {found : Option Value}

theorem Part.imp (h : Part P found)
    (hPQ : ∀ fields, found = some (.object fields) → P fields → Q fields) : Part Q found := by
  rcases h with hnone | hnull | ⟨fields, hfound, hP⟩
  · exact .inl hnone
  · exact .inr (.inl hnull)
  · exact .inr (.inr ⟨fields, hfound, hPQ fields hfound hP⟩)

theorem Part.of_object (h : Part P found) (hfound : found = some (.object fields)) : P fields := by
  subst hfound
  rcases h with hnone | hnull | ⟨fields', hfields, hP⟩
  · exact absurd hnone nofun
  · exact absurd hnull nofun
  · rwa [Value.object.inj (Option.some.inj hfields)]

theorem Entries.imp (h : Entries P found)
    (hPQ : ∀ entries : List Fields, found = some (.array (entries.map .object)) →
      ∀ e ∈ entries, P e → Q e) : Entries Q found := by
  rcases h with hnone | hnull | ⟨entries, hfound, hP⟩
  · exact .inl hnone
  · exact .inr (.inl hnull)
  · exact .inr (.inr ⟨entries, hfound, fun e he => hPQ entries hfound e he (hP e he)⟩)

theorem Entries.of_array {entries : List Fields} (h : Entries P found)
    (hfound : found = some (.array (entries.map .object))) : ∀ e ∈ entries, P e := by
  subst hfound
  rcases h with hnone | hnull | ⟨entries', hentries, hP⟩
  · exact absurd hnone nofun
  · exact absurd hnull nofun
  · have hsame := Value.array.inj (Option.some.inj hentries)
    rwa [(List.map_inj_right fun _ _ => Value.object.inj).mp hsame]

theorem object_of_clear (h : Clear (objectPlaces places path v)) :
    ∃ fields, v = .object fields ∧ Clear (places fields) := by
  obtain ⟨hobject, hfields⟩ := clear_cons.mp h
  cases v with
  | object fields => exact ⟨fields, rfl, clear_relocate.mp hfields⟩
  | _ => exact absurd hobject nofun

variable (hP : ∀ fields, Clear (places fields) → P fields)

include hP

theorem part_of_clear (h : Clear (partPlaces root key places)) : Part P (root.get? key) := by
  unfold partPlaces at h
  cases hget : root.get? key with
  | none => exact .inl rfl
  | some v =>
    rw [hget] at h
    by_cases hnull : v = .null
    · exact .inr (.inl (congrArg some hnull))
    obtain ⟨fields, rfl, hfields⟩ : ∃ fields, v = .object fields ∧ Clear (places fields) := by
      cases v with
      | null => exact absurd rfl hnull
      | _ => exact object_of_clear h
    exact .inr (.inr ⟨fields, rfl, hP fields hfields⟩)

theorem entries_of_clear {i : Nat} {vs : List Value} (h : Clear (entriesPlaces key places i vs)) :
    ∃ entries : List Fields, vs = entries.map .object ∧ ∀ e ∈ entries, P e := by
  induction vs generalizing i with
  | nil => exact ⟨[], rfl, fun e he => absurd he List.not_mem_nil⟩
  | cons v vs ih =>
    obtain ⟨hv, hvs⟩ := clear_append.mp h
    obtain ⟨fields, rfl, hfields⟩ := object_of_clear hv
    obtain ⟨entries, rfl, hentries⟩ := ih hvs
    exact ⟨fields :: entries, rfl, List.forall_mem_cons.mpr ⟨hP fields hfields, hentries⟩⟩

theorem list_of_clear (h : Clear (listPlaces root key places)) : Entries P (root.get? key) := by
  obtain ⟨hitems, hentries⟩ := clear_append.mp h
  unfold itemsPlaces at hitems
  cases hget : root.get? key with
  | none => exact .inl rfl
  | some v =>
    rw [hget] at hitems hentries
    cases v with
    | null => exact .inr (.inl rfl)
    | array vs =>
      obtain ⟨entries, rfl, hP⟩ := entries_of_clear hP hentries
      exact .inr (.inr ⟨entries, rfl, hP⟩)
    | _ => exact absurd (clear_cons.mp hitems).1 nofun

end SceneReading

end Clear

/-! ## Scenes -/

open SceneReading in
/-- **Every field of a scene is what it should be.** -/
structure SceneTyped (P : FieldType → Value → Prop) (bloom : Value → Prop) (root : Fields) :
    Prop where
  scene : Part (SceneHeader.schema.Holds P) (root.get? "scene")
  camera : Part (Camera.schema.Holds P) (root.get? "camera")
  sky : Part (Sky.schema.Holds P) (root.get? "sky")
  render : Part (RenderSettings.Holds P bloom) (root.get? "render")
  materials : Entries (Material.Holds P) (root.get? "materials")
  objects : Entries (SceneObject.Holds P) (root.get? "objects")

/-- Bloom settings are no list, and no name is written as a key. -/
structure ScenePlain (root : Fields) : Prop where
  bloom : ∀ fields : Fields, root.get? "render" = some (.object fields) →
    ∀ items, fields.get? "bloom" ≠ some (.array items)
  template : ∀ entries : List Fields, root.get? "materials" = some (.array (entries.map .object)) →
    ∀ e ∈ entries, ∀ inner, e.get? "template" ≠ some (.object inner)
  emissionMode : ∀ entries : List Fields,
    root.get? "materials" = some (.array (entries.map .object)) →
    ∀ e ∈ entries, ∀ inner, e.get? "emissionMode" ≠ some (.object inner)
  type : ∀ entries : List Fields, root.get? "objects" = some (.array (entries.map .object)) →
    ∀ e ∈ entries, ∀ inner, e.get? "type" ≠ some (.object inner)

namespace Bloom

/-- Bloom settings that are no list are of declared types. -/
theorem declared_of_taken {v : Value} (h : Taken v) (hplain : ∀ items, v ≠ .array items) :
    Bloom.Declared v := by
  cases h with
  | @object fields hfields =>
    exact ⟨fields, rfl, Schema.declared_of_noNames hfields (by decide)⟩
  | @array items _ _ => exact absurd rfl (hplain items)

end Bloom

namespace SceneTyped

variable {root : Fields}

/-- What is of declared types has bloom settings by name, and names that are strings. -/
theorem plain_of_declared (h : SceneTyped FieldType.Declared Bloom.Declared root) :
    ScenePlain root where
  bloom fields hfields items hitems := by
    obtain ⟨bloom, hbloom, -⟩ := (h.render.of_object hfields).1 _ hitems
    exact absurd hbloom nofun
  template entries hentries e he :=
    Schema.ne_object_of_declared (h.materials.of_array hentries e he).1
      (List.mem_cons_of_mem _ List.mem_cons_self) (by decide)
  emissionMode entries hentries e he :=
    Schema.ne_object_of_declared (h.materials.of_array hentries e he).2
      (List.mem_of_getElem? (show MaterialOverrides.schema.fields[5]? = some _ from rfl))
      (by simp [FieldType.kinds])
  type entries hentries e he :=
    Schema.ne_object_of_declared (h.objects.of_array hentries e he).1
      (List.mem_of_getElem? (show SceneObject.schema.fields[2]? = some _ from rfl))
      (by simp [FieldType.kinds])

/-- What a plain scene takes is of declared types. -/
theorem declared_of_plain (h : SceneTyped FieldType.Takes Bloom.Taken root)
    (hplain : ScenePlain root) : SceneTyped FieldType.Declared Bloom.Declared root where
  scene := h.scene.imp fun _ _ hP => Schema.declared_of_noNames hP (by decide)
  camera := h.camera.imp fun _ _ hP => Schema.declared_of_noNames hP (by decide)
  sky := h.sky.imp fun _ _ hP => Schema.declared_of_noNames hP (by decide)
  render := h.render.imp fun fields hfields hP =>
    ⟨fun v hv => Bloom.declared_of_taken (hP.1 v hv) fun items hitems =>
      hplain.bloom fields hfields items (hitems ▸ hv),
    Schema.declared_of_noNames hP.2 (by decide)⟩
  materials := h.materials.imp fun entries hentries e he hP => by
    have hheader : ∀ row ∈ MaterialHeader.schema.fields,
        row.2.isName = true → row.1 = "template" := by decide
    have hoverrides : ∀ row ∈ MaterialOverrides.schema.fields,
        row.2.isName = true → row.1 = "emissionMode" := by decide
    refine ⟨Schema.declared_of_takes hP.1 fun row hrow hname => ?_,
      Schema.declared_of_takes hP.2 fun row hrow hname => ?_⟩
    · rw [hheader row hrow hname]
      exact hplain.template entries hentries e he
    · rw [hoverrides row hrow hname]
      exact hplain.emissionMode entries hentries e he
  objects := h.objects.imp fun entries hentries e he hP => by
    have hkind : ∀ row ∈ SceneObject.schema.fields,
        row.2.isName = true → row.1 = "type" := by decide
    refine ⟨Schema.declared_of_takes hP.1 fun row hrow hname => ?_,
      Schema.declared_of_noNames hP.2 (by decide)⟩
    rw [hkind row hrow hname]
    exact hplain.type entries hentries e he

/-- **What a scene takes is of declared types iff the scene is plain.** -/
theorem declared_iff_plain (h : SceneTyped FieldType.Takes Bloom.Taken root) :
    SceneTyped FieldType.Declared Bloom.Declared root ↔ ScenePlain root :=
  ⟨plain_of_declared, declared_of_plain h⟩

end SceneTyped

namespace SceneDescription

open SceneReading

theorem taken_of_clear {fallback : Bool} {root : Fields} (h : Clear (rootVisits fallback root)) :
    SceneTyped FieldType.Takes Bloom.Taken root := by
  obtain ⟨hscene, h⟩ := clear_append.mp h
  obtain ⟨-, h⟩ := clear_cons.mp h
  obtain ⟨hcamera, h⟩ := clear_append.mp h
  obtain ⟨hsky, h⟩ := clear_append.mp h
  obtain ⟨hrender, h⟩ := clear_append.mp h
  obtain ⟨hmaterials, hobjects⟩ := clear_append.mp h
  exact
    { scene := part_of_clear (fun _ => Schema.takes_of_clear) hscene
      camera := part_of_clear (fun _ => Schema.takes_of_clear) hcamera
      sky := part_of_clear (fun _ => Schema.takes_of_clear) hsky
      render := part_of_clear (fun _ => RenderSettings.taken_of_clear) hrender
      materials := list_of_clear (fun _ => Material.taken_of_clear) hmaterials
      objects := list_of_clear (fun _ => SceneObject.taken_of_clear) hobjects }

/-- **What is read is typed**, with fallback or without: it is what the schema takes, and of the
declared types iff it is plain. A text that is JSON but not what the schema takes is an error. -/
theorem typed_of_parse (fallback : Bool) (text : String) :
    (∀ d, (parse fallback text).result = .ok d → ∃ root,
      Json.parse (Comment.strip text.toList) = .ok (.object root) ∧
        SceneTyped FieldType.Takes Bloom.Taken root ∧
        (SceneTyped FieldType.Declared Bloom.Declared root ↔ ScenePlain root)) ∧
    ∀ v, Json.parse (Comment.strip text.toList) = .ok v →
      (∀ root, v = .object root → ¬ SceneTyped FieldType.Takes Bloom.Taken root) →
      ∃ fault, (parse fallback text).result = .error fault := by
  have htaken : ∀ d, (parse fallback text).result = .ok d → ∃ root,
      Json.parse (Comment.strip text.toList) = .ok (.object root) ∧
        SceneTyped FieldType.Takes Bloom.Taken root := by
    intro d hd
    obtain ⟨root, hroot, hread⟩ := parse_eq_ok_iff.mp hd
    have hok : (ofRoot fallback root).result.isOk = true :=
      Outcome.isOk_iff.mpr ⟨d, ofRoot_eq_ok_iff.mpr hread⟩
    exact ⟨root, hroot, taken_of_clear ((ofRoot_visits fallback root).isOk_iff.mp hok)⟩
  refine ⟨fun d hd => ?_, fun v hv hnot => ?_⟩
  · obtain ⟨root, hroot, htyped⟩ := htaken d hd
    exact ⟨root, hroot, htyped, htyped.declared_iff_plain⟩
  · cases hresult : (parse fallback text).result with
    | error fault => exact ⟨fault, rfl⟩
    | ok d =>
      obtain ⟨root, hroot, htyped⟩ := htaken d hresult
      exact absurd htyped (hnot root (Except.ok.inj (hv.symm.trans hroot)))

/-- The text of a scene with bloom settings by position and a shape that is named by a key. -/
def looseText : String :=
  "\x7b\"render\":\x7b\"bloom\":[true]\x7d,
\"objects\":[\x7b\"type\":\x7b\"cone\":null\x7d\x7d]\x7d"

/-- The fields of that scene. -/
def looseRoot : Fields :=
  [("objects", .array [.object [("type", .object [("cone", .null)])]]),
   ("render", .object [("bloom", .array [.bool true])])]

theorem typed_of_parse_loose :
    (∃ d, (parse false looseText).result = .ok d) ∧
    SceneTyped FieldType.Takes Bloom.Taken looseRoot ∧
    ∃ fault, (parse false "7").result = .error fault := by
  have htree : Json.parse (Comment.strip looseText.toList) = .ok (.object looseRoot) := rfl
  obtain ⟨d, hd⟩ := Outcome.isOk_iff.mp
    (show (parse false looseText).result.isOk = true by decide)
  obtain ⟨root, hroot, htyped, -⟩ := (typed_of_parse false looseText).1 d hd
  obtain rfl : looseRoot = root := Value.object.inj (Except.ok.inj (htree.symm.trans hroot))
  exact ⟨⟨d, hd⟩, htyped, (typed_of_parse false "7").2 (.number (.integer 7)) rfl nofun⟩

/-- Not all that is read is of the declared types. -/
theorem loose_is_read : (∃ d, (parse false looseText).result = .ok d) ∧
    Json.parse (Comment.strip looseText.toList) = .ok (.object looseRoot) ∧
    ¬ SceneTyped FieldType.Declared Bloom.Declared looseRoot := by
  refine ⟨Outcome.isOk_iff.mp (by decide), rfl, fun h => ?_⟩
  exact h.plain_of_declared.bloom [("bloom", .array [.bool true])] rfl [.bool true] rfl

end SceneDescription

end ScenePack
