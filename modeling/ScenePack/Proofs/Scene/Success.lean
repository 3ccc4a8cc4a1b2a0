import ScenePack.Proofs.Outcome
import ScenePack.Scene.Reader

/-!
# Scenes that are read

When reading succeeds, and with what: for the readers of fields, of sections and lists, and of whole
scenes. The log does not matter here, nor which of several problems is reported.

Results:
* `lookup_eq_ok_iff`, `nullable_eq_ok_iff`: fields that may be missing or `null`.
* `lookup_sparse_of_ok`: a field that nothing stands in for has what its value means.
* `items_eq_ok_iff`, `entries_eq_ok_iff`: lists of entries are read entry by entry.
* **`ofRoot_eq_ok_iff`**, **`parse_eq_ok_iff`**: a description is read iff each of its parts is.
-/

namespace ScenePack

open Json (Value Fields)
open Outcome

variable {α : Type} {fields : Fields} {key : String} {v : Value}

/-! ## Fields -/

namespace Reading

variable {x : Reading α} {a : α}

theorem problem_ne_ok {p : Problem} : (problem p : Reading α).result ≠ .ok a := nofun

theorem within_eq_ok_iff {step : PathStep} : (within step x).result = .ok a ↔ x.result = .ok a :=
  mapError_eq_ok_iff

end Reading

namespace Field

open Reading

variable {read : Value → Reading α} {absent a : α}

theorem lookup_eq_ok_iff : (lookup fields key absent read).result = .ok a ↔
    (fields.get? key = none ∧ absent = a) ∨
      ∃ v, fields.get? key = some v ∧ (read v).result = .ok a := by
  unfold lookup
  cases fields.get? key with
  | none => simp [pure_eq_ok_iff]
  | some v => simp [within_eq_ok_iff]

theorem nullable_eq_ok_iff {b : Option α} : (nullable read v).result = .ok b ↔
    (v = .null ∧ b = none) ∨ (v ≠ .null ∧ ∃ a, (read v).result = .ok a ∧ some a = b) := by
  unfold nullable
  cases v with
  | null =>
    rw [pure_eq_ok_iff]
    simp [eq_comm]
  | _ => simp [map_eq_ok_iff]

/-- A field that nothing stands in for has what its value means, if it has a meaning. -/
theorem lookup_sparse_of_ok {read : Value → Reading (Option α)} {meaning : Value → Option α}
    (hread : ∀ v b, (read v).result = .ok b → b = meaning v) {b : Option α}
    (h : (lookup fields key none read).result = .ok b) : b = (fields.get? key).bind meaning := by
  rcases lookup_eq_ok_iff.mp h with ⟨hnone, rfl⟩ | ⟨v, hsome, hv⟩
  · rw [hnone, Option.bind_none]
  · rw [hsome, Option.bind_some]
    exact hread v b hv

/-- A `null` means nothing, and any other value what it is read as. -/
theorem nullable_of_ok {meaning : Value → Option α} (hnull : meaning .null = none)
    (hread : ∀ v a, (read v).result = .ok a → meaning v = some a) (v : Value) (b : Option α)
    (h : (nullable read v).result = .ok b) : b = meaning v := by
  rcases nullable_eq_ok_iff.mp h with ⟨rfl, rfl⟩ | ⟨-, a, ha, rfl⟩
  · exact hnull.symm
  · exact (hread v a ha).symm

theorem sparseVec3_result : (sparseVec3 v).result = .ok (vec3? v) := by
  unfold sparseVec3
  cases vec3? v with
  | some u => rfl
  | none => cases v <;> rfl

/-- One of several names is its string, or an object with it as the one key and `null` behind. -/
theorem variant_eq_ok_iff {known : List String} {ofName? : String → Option α} :
    (variant known ofName? v).result = .ok a ↔
      ∃ name, (v = .string name ∨ v = .object [(name, .null)]) ∧ ofName? name = some a := by
  cases v with
  | string name =>
    simp only [variant]
    cases h : ofName? name <;> simp [problem_ne_ok, pure_eq_ok_iff, h]
  | object fields =>
    rcases fields with _ | ⟨⟨name, inner⟩, _ | ⟨field, fields⟩⟩
    · simp [variant, problem_ne_ok]
    · simp only [variant]
      cases h : ofName? name with
      | none => simp +contextual [problem_ne_ok, h]
      | some b =>
        cases inner <;> simp [Value.isNull, within_eq_ok_iff, problem_ne_ok, pure_eq_ok_iff, h]
    · simp [variant, problem_ne_ok]
  | _ => simp [variant, problem_ne_ok]

end Field

/-! ## Sections and lists -/

namespace SceneReading

variable {path : List PathStep} {read : Fields → Reading α} {root : Fields} {a : α}

theorem object_eq_ok_iff : (object path read v).result = .ok a ↔
    ∃ fields, v = .object fields ∧ (read fields).result = .ok a := by
  unfold object
  cases v with
  | object fields => simp [mapError_eq_ok_iff]
  | _ => simp [problem, fail_ne_ok]

theorem items_eq_ok_iff {vs : List Value} : (items root key).result = .ok vs ↔
    root.get? key = some (.array vs) ∨
      (root.get? key = none ∨ root.get? key = some .null) ∧ vs = [] := by
  unfold items
  cases root.get? key with
  | none =>
    rw [pure_eq_ok_iff]
    simp [eq_comm]
  | some v =>
    cases v with
    | null =>
      rw [pure_eq_ok_iff]
      simp [eq_comm]
    | array us =>
      rw [pure_eq_ok_iff]
      simp
    | _ => simp [problem, fail_ne_ok]

/-- **A list is read entry by entry**, and every entry has to be an object. -/
theorem entries_eq_ok_iff : ∀ {vs : List Value} {i : Nat} {as : List α},
    (entries key read i vs).result = .ok as ↔ ∃ entries : List Fields,
      vs = entries.map .object ∧ entries.map (fun e => (read e).result) = as.map .ok
  | [], i, as => by
    rw [entries, pure_eq_ok_iff]
    constructor
    · rintro rfl
      exact ⟨[], rfl, rfl⟩
    · rintro ⟨entries, hvs, has⟩
      rw [List.map_eq_nil_iff.mp hvs.symm] at has
      exact (List.map_eq_nil_iff.mp has.symm).symm
  | v :: vs, i, as => by
    simp only [entries, bind_eq_ok_iff, pure_eq_ok_iff, object_eq_ok_iff, entries_eq_ok_iff]
    constructor
    · rintro ⟨a, ⟨e, rfl, ha⟩, as, ⟨es, rfl, has⟩, rfl⟩
      exact ⟨e :: es, rfl, by rw [List.map_cons, List.map_cons, ha, has]⟩
    · rintro ⟨es, hvs, has⟩
      obtain ⟨e, es, rfl, rfl, rfl⟩ := List.map_eq_cons_iff.mp hvs.symm
      obtain ⟨a, as, rfl, ha, has⟩ := List.map_eq_cons_iff.mp has.symm
      exact ⟨a, ⟨e, rfl, ha.symm⟩, as, ⟨es, rfl, has.symm⟩, rfl⟩

end SceneReading

/-! ## Scenes -/

namespace SceneDescription

open SceneReading

variable {fallback : Bool} {root : Fields} {d : SceneDescription} {text : String}

/-- Every part of a description is what the fields of a root say. -/
structure ReadFrom (d : SceneDescription) (fallback : Bool) (root : Fields) : Prop where
  info : ∃ header, (part root "scene" .blank SceneHeader.ofFields).result = .ok header ∧
    (SceneInfo.ofHeader header).result = .ok d.info
  camera : (part root "camera" .default Camera.ofFields).result = .ok d.camera
  sky : (part root "sky" .default Sky.ofFields).result = .ok d.sky
  render : (part root "render" .default RenderSettings.ofFields).result = .ok d.render
  materials : ∃ vs, (items root "materials").result = .ok vs ∧
    (entries "materials" (Material.ofFields fallback) 0 vs).result = .ok d.materials
  objects : ∃ vs, (items root "objects").result = .ok vs ∧
    (entries "objects" SceneObject.ofFields 0 vs).result = .ok d.objects

/-- **A description is read iff each of its parts is.** -/
theorem ofRoot_eq_ok_iff : (ofRoot fallback root).result = .ok d ↔ d.ReadFrom fallback root := by
  unfold ofRoot
  simp only [bind_eq_ok_iff, pure_eq_ok_iff]
  constructor
  · rintro ⟨header, hh, info, hi, camera, hc, sky, hs, render, hr, ms, hms, materials, hm, os, hos,
      objects, ho, -, -, rfl⟩
    exact ⟨⟨header, hh, hi⟩, hc, hs, hr, ⟨ms, hms, hm⟩, ⟨os, hos, ho⟩⟩
  · rintro ⟨⟨header, hh, hi⟩, hc, hs, hr, ⟨ms, hms, hm⟩, ⟨os, hos, ho⟩⟩
    exact ⟨header, hh, _, hi, _, hc, _, hs, _, hr, ms, hms, _, hm, os, hos, _, ho, (), rfl, rfl⟩

/-- **A text is read iff it is JSON**, its comments aside, whose root is read. -/
theorem parse_eq_ok_iff : (parse fallback text).result = .ok d ↔
    ∃ root, Json.parse (Comment.strip text.toList) = .ok (.object root) ∧
      d.ReadFrom fallback root := by
  unfold parse ofStripped
  cases Json.parse (Comment.strip text.toList) with
  | error fault => simp [fail_ne_ok]
  | ok v =>
    cases v with
    | object root => simp [ofJson, ofRoot_eq_ok_iff]
    | _ => simp [ofJson, fail_ne_ok]

end SceneDescription

end ScenePack
