import Mathlib.Data.List.Forall2
import ScenePack.Proofs.Scene.Section

/-!
# Scenes that agree

Two scenes agree when, wherever a reader looks, it finds what it takes to be the same: the same
keys with the same values, but for the items of a vector behind its third. Nothing else of a tree
reaches the description, a fault or the log.

* `FieldType.core` is what a field takes of a value.
* `RowsAgree`: two lists of fields agree on the rows of a schema.
* `Alike`, `ArrayAlike`: values that are objects, or arrays of objects, that agree.
* `SceneSection.Alike`, `SceneAlike`: whole scenes.

Results:
* `ReadsBy.row`, `ReadsBy.bind`: a reader that looks at rows one after another depends on no more
  than these.
* `Camera.ofFields_readsBy` and its like: the readers of sections and entries do.
* **`ofJson_alike`**: scenes that agree are read the same, log and faults included.
-/

namespace ScenePack

open Json (Value Fields)

/-! ## What a field takes -/

namespace FieldType

/-- What a field takes of a value: of a vector no more than three items. -/
def core : FieldType → Value → Value
  | vector, .array (.number x :: .number y :: .number z :: _) =>
    .array [.number x, .number y, .number z]
  | _, v => v

theorem vec3?_core (v : Value) : Field.vec3? (vector.core v) = Field.vec3? v := by
  unfold core
  split <;> rfl

/-- A value that is no vector is taken as it is. -/
theorem core_of_vec3?_eq_none {v : Value} (h : Field.vec3? v = none) : vector.core v = v := by
  unfold core
  split
  · exact absurd h (Option.some_ne_none _)
  · rfl

end FieldType

/-- Two lists of fields are the same to the rows of a schema. -/
def RowsAgree (rows : List (String × FieldType)) (fields fields' : Fields) : Prop :=
  ∀ row ∈ rows, (fields'.get? row.1).map row.2.core = (fields.get? row.1).map row.2.core

/-- Fields with the same values at the keys of some rows are the same to the rows. -/
theorem RowsAgree.of_keys {rows : List (String × FieldType)} {fields fields' : Fields}
    (h : ∀ key ∈ rows.map (·.1), fields'.get? key = fields.get? key) :
    RowsAgree rows fields fields' := by
  intro row hrow
  rw [h row.1 (List.mem_map_of_mem hrow)]

/-- The same value twice, or two objects whose fields have something in common. -/
inductive Alike (R : Fields → Fields → Prop) : Value → Value → Prop
  | same (v : Value) : Alike R v v
  | object {fields fields' : Fields} (h : R fields fields') :
    Alike R (.object fields) (.object fields')

/-- The same value twice, or two arrays of values that are alike one by one. -/
inductive ArrayAlike (R : Fields → Fields → Prop) : Value → Value → Prop
  | same (v : Value) : ArrayAlike R v v
  | array {vs vs' : List Value} (h : List.Forall₂ (Alike R) vs vs') :
    ArrayAlike R (.array vs) (.array vs')

/-- Render settings agree on the bloom settings, too. -/
structure RenderAgree (fields fields' : Fields) : Prop where
  bloom : Option.Rel (Alike (RowsAgree Bloom.schema.fields)) (fields.get? "bloom")
    (fields'.get? "bloom")
  rows : RowsAgree RenderSettings.schema.fields fields fields'

/-- What two values of a section have in common when they are read the same. -/
def SceneSection.Alike : SceneSection → Value → Value → Prop
  | render => ScenePack.Alike RenderAgree
  | materials => ArrayAlike (RowsAgree materials.rows)
  | objects => ArrayAlike (RowsAgree objects.rows)
  | s => ScenePack.Alike (RowsAgree s.rows)

/-- Two roots agree in every section. -/
def SceneAlike (root root' : Fields) : Prop :=
  ∀ s : SceneSection, Option.Rel s.Alike (root.get? s.key) (root'.get? s.key)

variable {α β : Type} {rows rows' : List (String × FieldType)} {R : Fields → Fields → Prop}

theorem SceneSection.alike_refl (s : SceneSection) (v : Value) : s.Alike v v := by
  cases s <;> constructor

theorem rel_refl {r : Value → Value → Prop} (h : ∀ v, r v v) (found : Option Value) :
    Option.Rel r found found := by
  cases found with
  | none => exact .none
  | some v => exact .some (h v)

theorem Alike.mapObject {f : Fields → Fields} (h : ∀ fields, R fields (f fields)) (v : Value) :
    Alike R v (v.mapObject f) := by
  cases v with
  | object fields => exact .object (h fields)
  | _ => exact .same _

namespace ArrayAlike

theorem mapItems {f : Fields → Fields} (h : ∀ fields, R fields (f fields)) (v : Value) :
    ArrayAlike R v (v.mapItems (Value.mapObject f)) := by
  cases v with
  | array items =>
    refine .array (List.forall₂_map_right_iff.mpr ?_)
    exact List.forall₂_same.mpr fun item _ => Alike.mapObject h item
  | _ => exact .same _

theorem mapItem {f : Fields → Fields} (h : ∀ fields, R fields (f fields)) (i : Nat) (v : Value) :
    ArrayAlike R v (v.mapItem i (Value.mapObject f)) := by
  cases v with
  | array items =>
    refine .array ?_
    induction items generalizing i with
    | nil =>
      rw [List.modify_nil]
      exact .nil
    | cons item items ih =>
      cases i with
      | zero => exact .cons (Alike.mapObject h item) (List.forall₂_same.mpr fun v _ => .same v)
      | succ i => exact .cons (.same item) (ih i)
  | _ => exact .same _

end ArrayAlike

/-! ## Readers that depend on rows -/

/-- A reader that depends on nothing but what fields have in common. -/
def ReadsBy (R : Fields → Fields → Prop) (read : Fields → Reading α) : Prop :=
  ∀ fields fields', R fields fields' → read fields' = read fields

namespace Field

variable {t : FieldType} {read : Value → Reading α} {fields fields' : Fields} {key : String}

theorem lookup_agree {absent : α} (hread : ∀ v, read (t.core v) = read v)
    (h : (fields'.get? key).map t.core = (fields.get? key).map t.core) :
    lookup fields' key absent read = lookup fields key absent read := by
  unfold lookup
  cases hget : fields.get? key with
  | none =>
    rw [hget, Option.map_none, Option.map_eq_none_iff] at h
    rw [h]
  | some v =>
    rw [hget, Option.map_some, Option.map_eq_some_iff] at h
    obtain ⟨v', hget', hcore⟩ := h
    have hsame : read v' = read v := by rw [← hread v', ← hread v, hcore]
    simp only [hget', hsame]

theorem sparseVec3_core (v : Value) : sparseVec3 (FieldType.vector.core v) = sparseVec3 v := by
  cases h : vec3? v with
  | none => rw [FieldType.core_of_vec3?_eq_none h]
  | some u =>
    unfold sparseVec3
    rw [FieldType.vec3?_core, h]

theorem vec3_core (fallback v) : vec3 fallback (FieldType.vector.core v) = vec3 fallback v := by
  unfold vec3
  rw [sparseVec3_core]

end Field

namespace ReadsBy

theorem pure {a : α} : ReadsBy R fun _ => (Pure.pure a : Reading α) := fun _ _ _ => rfl

/-- What is done before a reader looks at anything does not matter. -/
theorem after {x : Reading α} {next : α → Fields → Reading β} (hnext : ∀ a, ReadsBy R (next a)) :
    ReadsBy R fun fields => x >>= fun a => next a fields := by
  intro fields fields' h
  have hsame : ∀ a, next a fields' = next a fields := fun a => hnext a fields fields' h
  simp only [hsame]

/-- A reader that is only rounded off. -/
theorem bind_pure {read : Fields → Reading α} {g : α → β} (hread : ReadsBy R read) :
    ReadsBy R fun fields => read fields >>= fun a => Pure.pure (g a) := by
  intro fields fields' h
  simp only [hread fields fields' h]

/-- A reader that looks at rows, then at more of them. -/
theorem bind {read : Fields → Reading α} {next : α → Fields → Reading β}
    (hread : ReadsBy (RowsAgree rows) read) (hnext : ∀ a, ReadsBy (RowsAgree rows') (next a)) :
    ReadsBy (RowsAgree (rows ++ rows')) fun fields => read fields >>= fun a => next a fields := by
  intro fields fields' h
  obtain ⟨hrows, hrows'⟩ := List.forall_mem_append.mp h
  have hsame : ∀ a, next a fields' = next a fields := fun a => hnext a fields fields' hrows'
  simp only [hread fields fields' hrows, hsame]

/-- **A row is looked at**, then the rows behind it. -/
theorem row {key : String} {t : FieldType} {absent : α} {read : Value → Reading α}
    {next : α → Fields → Reading β} (hread : ∀ v, read (t.core v) = read v)
    (hnext : ∀ a, ReadsBy (RowsAgree rows) (next a)) :
    ReadsBy (RowsAgree ((key, t) :: rows)) fun fields =>
      Field.lookup fields key absent read >>= fun a => next a fields := by
  intro fields fields' h
  obtain ⟨hrow, hrows⟩ := List.forall_mem_cons.mp h
  have hsame : ∀ a, next a fields' = next a fields := fun a => hnext a fields fields' hrows
  simp only [Field.lookup_agree hread hrow, hsame]

end ReadsBy

open ScenePack.Field

/-! ## Sections -/

theorem SceneHeader.ofFields_readsBy : ReadsBy (RowsAgree schema.fields) ofFields :=
  .row (fun _ => rfl) fun _ => .row (fun _ => rfl) fun _ => .pure

theorem Camera.ofFields_readsBy : ReadsBy (RowsAgree schema.fields) ofFields :=
  .row (fun _ => rfl) fun _ => .row (fun _ => rfl) fun _ => .row (fun _ => rfl) fun _ =>
    .row (vec3_core _) fun _ => .row (vec3_core _) fun _ => .pure

theorem Sky.ofFields_readsBy : ReadsBy (RowsAgree schema.fields) ofFields :=
  .row (vec3_core _) fun _ => .row (vec3_core _) fun _ => .pure

namespace Bloom

theorem ofFields_readsBy : ReadsBy (RowsAgree schema.fields) ofFields :=
  .row (fun _ => rfl) fun _ => .row (fun _ => rfl) fun _ => .row (fun _ => rfl) fun _ =>
    .row (fun _ => rfl) fun _ => .row (fun _ => rfl) fun _ => .row (fun _ => rfl) fun _ => .pure

theorem ofValue_alike {v v' : Value} (h : Alike (RowsAgree schema.fields) v v') :
    ofValue v' = ofValue v := by
  cases h with
  | same => rfl
  | object h => exact ofFields_readsBy _ _ h

end Bloom

theorem RenderSettings.ofFields_readsBy : ReadsBy RenderAgree ofFields := by
  intro fields fields' h
  have hbloom : lookup fields' "bloom" default.bloom Bloom.ofValue =
      lookup fields "bloom" default.bloom Bloom.ofValue := by
    have hrel := h.bloom
    unfold lookup
    generalize fields.get? "bloom" = found at hrel ⊢
    generalize fields'.get? "bloom" = found' at hrel ⊢
    cases hrel with
    | none => rfl
    | some halike => simp only [Bloom.ofValue_alike halike]
  have hrows (bloom : Bloom) : ReadsBy (RowsAgree schema.fields) fun fields => do
      let height ← lookup fields "height" default.height count
      let maxBounces ← lookup fields "maxBounces" default.maxBounces count
      let maxSamples ← lookup fields "maxSamples" default.maxSamples count
      let samplesPerFrame ← lookup fields "samplesPerFrame" default.samplesPerFrame count
      let width ← lookup fields "width" default.width count
      return ({ width, height, samplesPerFrame, maxSamples, maxBounces, bloom } : RenderSettings) :=
    .row (fun _ => rfl) fun _ => .row (fun _ => rfl) fun _ => .row (fun _ => rfl) fun _ =>
      .row (fun _ => rfl) fun _ => .row (fun _ => rfl) fun _ => .pure
  have hsame (bloom : Bloom) := hrows bloom fields fields' h.rows
  unfold ofFields
  simp only [hbloom, hsame]

/-! ## Materials and objects -/

theorem MaterialHeader.ofFields_readsBy : ReadsBy (RowsAgree schema.fields) ofFields :=
  .row (fun _ => rfl) fun _ => .row (fun _ => rfl) fun _ => .pure

theorem MaterialOverrides.ofFields_readsBy : ReadsBy (RowsAgree schema.fields) ofFields :=
  .row sparseVec3_core fun _ => .row sparseVec3_core fun _ => .row (fun _ => rfl) fun _ =>
    .row (fun _ => rfl) fun _ => .row sparseVec3_core fun _ => .row (fun _ => rfl) fun _ =>
    .row (fun _ => rfl) fun _ => .row (fun _ => rfl) fun _ => .row (fun _ => rfl) fun _ =>
    .row (fun _ => rfl) fun _ => .row (fun _ => rfl) fun _ => .row (fun _ => rfl) fun _ =>
    .row (fun _ => rfl) fun _ => .row sparseVec3_core fun _ => .row (fun _ => rfl) fun _ =>
    .row (fun _ => rfl) fun _ => .row (fun _ => rfl) fun _ => .pure

theorem Material.ofFields_readsBy (fallback : Bool) :
    ReadsBy (RowsAgree SceneSection.materials.rows) (ofFields fallback) :=
  .bind MaterialHeader.ofFields_readsBy fun _ =>
    .after fun _ => .bind_pure MaterialOverrides.ofFields_readsBy

theorem Geometry.ofFields_readsBy : ReadsBy (RowsAgree schema.fields) ofFields :=
  .row (vec3_core _) fun _ => .row (fun _ => rfl) fun _ => .row (fun _ => rfl) fun _ =>
    .row (vec3_core _) fun _ => .row (fun _ => rfl) fun _ => .row (vec3_core _) fun _ =>
    .row (vec3_core _) fun _ => .pure

theorem SceneObject.ofFields_readsBy :
    ReadsBy (RowsAgree SceneSection.objects.rows) ofFields :=
  .row (fun _ => rfl) fun _ => .row (fun _ => rfl) fun _ => .row (fun _ => rfl) fun _ =>
    .bind_pure Geometry.ofFields_readsBy

/-! ## Scenes -/

namespace SceneReading

variable {read : Fields → Reading α} {path : List PathStep} {root root' : Fields} {key : String}

theorem object_alike (hread : ReadsBy R read) {v v' : Value} (h : Alike R v v') :
    object path read v' = object path read v := by
  cases h with
  | same => rfl
  | object h => simp only [object, hread _ _ h]

theorem part_alike (hread : ReadsBy R read) {absent : α}
    (h : Option.Rel (Alike R) (root.get? key) (root'.get? key)) :
    part root' key absent read = part root key absent read := by
  unfold part
  generalize root.get? key = found at h
  generalize root'.get? key = found' at h
  cases h with
  | none => rfl
  | some halike =>
    cases halike with
    | same => rfl
    | object h => exact object_alike hread (.object h)

theorem entries_alike (hread : ReadsBy R read) {vs vs' : List Value}
    (h : List.Forall₂ (Alike R) vs vs') (i : Nat) :
    entries key read i vs' = entries key read i vs := by
  induction h generalizing i with
  | nil => rfl
  | cons hv _ ih =>
    unfold entries
    rw [object_alike hread hv, ih (i + 1)]

/-- A list is found, then read entry by entry. -/
theorem list_alike (hread : ReadsBy R read) {next : List α → SceneReading β}
    (h : Option.Rel (ArrayAlike R) (root.get? key) (root'.get? key)) :
    (items root' key >>= fun vs => entries key read 0 vs >>= next) =
      items root key >>= fun vs => entries key read 0 vs >>= next := by
  unfold items
  generalize root.get? key = found at h
  generalize root'.get? key = found' at h
  cases h with
  | none => rfl
  | some halike =>
    cases halike with
    | same => rfl
    | @array vs vs' h =>
      have hentries : entries key read 0 vs' = entries key read 0 vs := entries_alike hread h 0
      show Outcome.bind (Outcome.pure _) _ = Outcome.bind (Outcome.pure _) _
      simp only [Outcome.bind, Outcome.pure, hentries]

end SceneReading

namespace SceneDescription

open SceneReading

theorem ofRoot_alike (fallback : Bool) {root root' : Fields} (h : SceneAlike root root') :
    ofRoot fallback root' = ofRoot fallback root := by
  have hscene : part root' "scene" .blank SceneHeader.ofFields =
      part root "scene" .blank SceneHeader.ofFields :=
    part_alike SceneHeader.ofFields_readsBy (h .scene)
  have hcamera : part root' "camera" .default Camera.ofFields =
      part root "camera" .default Camera.ofFields := part_alike Camera.ofFields_readsBy (h .camera)
  have hsky : part root' "sky" .default Sky.ofFields = part root "sky" .default Sky.ofFields :=
    part_alike Sky.ofFields_readsBy (h .sky)
  have hrender : part root' "render" .default RenderSettings.ofFields =
      part root "render" .default RenderSettings.ofFields :=
    part_alike RenderSettings.ofFields_readsBy (h .render)
  have hmaterials {β : Type} (next : List Material → SceneReading β) :
      (items root' "materials" >>= fun vs =>
        entries "materials" (Material.ofFields fallback) 0 vs >>= next) =
      items root "materials" >>= fun vs =>
        entries "materials" (Material.ofFields fallback) 0 vs >>= next :=
    list_alike (Material.ofFields_readsBy fallback) (h .materials)
  have hobjects {β : Type} (next : List SceneObject → SceneReading β) :
      (items root' "objects" >>= fun vs => entries "objects" SceneObject.ofFields 0 vs >>= next) =
      items root "objects" >>= fun vs => entries "objects" SceneObject.ofFields 0 vs >>= next :=
    list_alike SceneObject.ofFields_readsBy (h .objects)
  unfold ofRoot
  simp only [hscene, hcamera, hsky, hrender, hmaterials, hobjects]

/-- **Scenes that agree are read the same**: the same description or the same fault, and the same
log. -/
theorem ofJson_alike (fallback : Bool) {v v' : Value} (h : Alike SceneAlike v v') :
    ofJson fallback v' = ofJson fallback v := by
  cases h with
  | same => rfl
  | object h => exact ofRoot_alike fallback h

end SceneDescription

end ScenePack
