import ScenePack.Proofs.Scene.Fallback
import ScenePack.Proofs.Scene.Visit

/-!
# The first fault

The readers visit what `SceneDescription.visits` lists, in that order, and report the first place
that offends.

Results:
* `Field.single_visits` and its like: a reader of fields looks at its value.
* `Field.lookup_visits`: fields are looked at row by row.
* `Camera.ofFields_visits` and its like: sections and entries look at the places of their schemas.
* `entries_visits`: lists are looked at entry by entry.
* **`ofJson_visits`**: a tree is looked at as `visits` says.
* **`parse_reports_first_place`**: so a text is read iff nothing in it offends, and else the error
  is where the first place offends.
-/

namespace ScenePack

open Json (Value Fields)
open Outcome (FailsFirst)

/-- Reading looks at some places in order. -/
abbrev Reading.Visits {α : Type} (x : Reading α) (places : List FieldPlace) : Prop :=
  FailsFirst FieldFault.path x places

/-- Reading from the root looks at some places in order. -/
abbrev SceneReading.Visits {α : Type} (x : SceneReading α) (places : List (ScenePlace Location)) :
    Prop := FailsFirst SceneFault.location x places

variable {α β : Type} {fields : Fields} {key : String}

/-- A value one step further in is looked at there. -/
theorem Reading.within_visits {x : Reading α} {places : List FieldPlace} (step : PathStep)
    (h : x.Visits places) : (within step x).Visits (places.map (.within step)) := by
  have hmoved : FailsFirst FieldFault.path (within step x) (places.map (.relocate (step :: ·))) :=
    .mapError (fun _ => rfl) h
  exact hmoved

/-! ## Fields -/

namespace FieldType

variable {t : FieldType} {v : Value}

/-- A value that fits is passed. -/
theorem pure_visits {a : α} (h : t.fits v = true) :
    (pure a : Reading α).Visits [t.place v] := .pass (by simp [place, h]) .pure

/-- A value that does not fit is reported where it is at fault. -/
theorem fail_visits {fault : FieldFault} (h : t.fits v = false)
    (hpath : fault.path = t.faultPath v) :
    Reading.Visits (Outcome.fail fault : Reading α) [t.place v] := .fail (by simp [place, h]) hpath

end FieldType

namespace Field

open FieldType

theorem single_visits (v : Value) : (single v).Visits [FieldType.single.place v] := by
  cases v <;> rfl

theorem count_visits (v : Value) : (count v).Visits [FieldType.count.place v] := by
  cases v with
  | number n =>
    cases h : n.toDouble.toCount? with
    | some c =>
      simp only [count, h]
      exact pure_visits (by simp [fits, h])
    | none =>
      simp only [count, h]
      exact fail_visits (by simp [fits, h]) rfl
  | _ => rfl

theorem bool_visits (v : Value) : (bool v).Visits [FieldType.truth.place v] := by cases v <;> rfl

theorem string_visits (v : Value) : (string v).Visits [FieldType.text.place v] := by cases v <;> rfl

theorem nullable_visits {t : FieldType} {read : Value → Reading α}
    (h : ∀ v, (read v).Visits [t.place v]) (v : Value) :
    (nullable read v).Visits [(FieldType.nullable t).place v] := by
  cases v with
  | null => rfl
  | _ => exact .map (h _)

theorem sparseVec3_visits (v : Value) : (sparseVec3 v).Visits [FieldType.vector.place v] := by
  unfold Reading.Visits FailsFirst Outcome.failure?
  rw [sparseVec3_result]
  rfl

theorem vec3_visits (fallback : Vec3) (v : Value) :
    (vec3 fallback v).Visits [FieldType.vector.place v] := .map (sparseVec3_visits v)

theorem variant_visits (known : List String) (ofName? : String → Option α) (v : Value) :
    (variant known ofName? v).Visits [(FieldType.name fun s => (ofName? s).isSome).place v] := by
  cases v with
  | string s =>
    cases h : ofName? s with
    | some a =>
      simp only [variant, h]
      exact pure_visits (by simp [fits, h])
    | none =>
      simp only [variant, h]
      exact fail_visits (by simp [fits, h]) rfl
  | object fields =>
    rcases fields with _ | ⟨⟨s, inner⟩, _ | ⟨field, fields⟩⟩
    · rfl
    · cases h : ofName? s with
      | none =>
        simp only [variant, h]
        exact fail_visits (by simp [fits, h]) (by simp [faultPath, h])
      | some a =>
        simp only [variant, h]
        split
        · rename_i hnull
          exact pure_visits (by simp [fits, h, hnull])
        · rename_i hnull
          exact fail_visits (by simp [fits, hnull]) (by simp [faultPath, h])
    · rfl
  | _ => rfl

variable {t : FieldType} {rows : List (String × FieldType)} {read : Value → Reading α} {absent : α}

/-- A field is looked at if it is there. -/
theorem lookup_visits (h : ∀ v, (read v).Visits [t.place v]) :
    (lookup fields key absent read).Visits (t.placesAt (.key key) (fields.get? key)) := by
  unfold lookup
  cases fields.get? key with
  | none => exact .pure
  | some v => exact Reading.within_visits _ (h v)

theorem rowPlaces_append (rows rows' : List (String × FieldType)) :
    rowPlaces fields (rows ++ rows') = rowPlaces fields rows ++ rowPlaces fields rows' := by
  induction rows with
  | nil => rfl
  | cons row rows ih =>
    rw [List.cons_append, rowPlaces, rowPlaces, ih, List.append_assoc]

/-- **Fields are looked at row by row.** -/
theorem row_visits (h : ∀ v, (read v).Visits [t.place v]) {f : α → Reading β}
    (hf : ∀ a, (f a).Visits (rowPlaces fields rows)) :
    (lookup fields key absent read >>= f).Visits (rowPlaces fields ((key, t) :: rows)) :=
  .bind (lookup_visits h) fun a _ => hf a

end Field

open ScenePack.Field

theorem SceneHeader.versionText_visits (v : Value) :
    (versionText v).Visits [FieldType.version.place v] := by
  cases v <;> rfl

theorem TemplateName.ofValue_visits (v : Value) :
    (ofValue v).Visits [FieldType.template.place v] := by
  cases v with
  | object fields =>
    rcases fields with _ | ⟨⟨tag, inner⟩, _ | ⟨field, fields⟩⟩
    · rfl
    · cases inner with
      | null =>
        cases h : MaterialTemplate.ofTag? tag with
        | some known =>
          simp only [ofValue, h]
          exact FieldType.pure_visits (by simp [FieldType.fits, h])
        | none =>
          simp only [ofValue, h]
          exact FieldType.fail_visits (by simp [FieldType.fits, h]) rfl
      | _ => rfl
    · cases inner <;> rfl
  | _ => rfl

/-! ## Sections -/

theorem SceneHeader.ofFields_visits : (SceneHeader.ofFields fields).Visits (schema.places fields) :=
  row_visits (nullable_visits string_visits) fun _ =>
    row_visits (nullable_visits versionText_visits) fun _ => .pure

theorem Camera.ofFields_visits : (Camera.ofFields fields).Visits (schema.places fields) :=
  row_visits single_visits fun _ => row_visits single_visits fun _ =>
    row_visits single_visits fun _ => row_visits (vec3_visits _) fun _ =>
    row_visits (vec3_visits _) fun _ => .pure

theorem Sky.ofFields_visits : (Sky.ofFields fields).Visits (schema.places fields) :=
  row_visits (vec3_visits _) fun _ => row_visits (vec3_visits _) fun _ => .pure

namespace Bloom

theorem ofFields_visits : (ofFields fields).Visits (schema.places fields) :=
  row_visits single_visits fun _ => row_visits bool_visits fun _ =>
    row_visits single_visits fun _ => row_visits count_visits fun _ =>
    row_visits single_visits fun _ => row_visits single_visits fun _ => .pure

variable {items : List Value}

theorem item_visits {t : FieldType} {read : Value → Reading α} {absent : α} {i : Nat}
    (h : ∀ v, (read v).Visits [t.place v]) :
    (item items i absent read).Visits (t.placesAt (.index i) items[i]?) := by
  unfold item
  cases items[i]? with
  | none => exact .pure
  | some v => exact Reading.within_visits _ (h v)

/-- Items are looked at one by one. -/
theorem items_visits {t : FieldType} {ts : List FieldType} {read : Value → Reading α} {absent : α}
    {i : Nat} {rest : List FieldPlace} (h : ∀ v, (read v).Visits [t.place v]) {f : α → Reading β}
    (hf : ∀ a, (f a).Visits (itemPlaces items (i + 1) ts ++ rest)) :
    (item items i absent read >>= f).Visits (itemPlaces items i (t :: ts) ++ rest) := by
  rw [itemPlaces, List.append_assoc]
  exact .bind (item_visits h) fun a _ => hf a

theorem ofItems_visits : (ofItems items).Visits
    (itemPlaces items 0 itemTypes ++ [⟨[], decide (6 < items.length)⟩]) := by
  refine items_visits bool_visits fun _ => items_visits single_visits fun _ =>
    items_visits single_visits fun _ => items_visits single_visits fun _ =>
    items_visits count_visits fun _ => items_visits single_visits fun _ => ?_
  -- the length is asked for only at the end
  by_cases h : 6 < items.length
  · simp only [if_pos h]
    exact .fail (decide_eq_true h) rfl
  · simp only [if_neg h]
    exact .pass (decide_eq_false h) .pure

theorem ofValue_visits (v : Value) : (ofValue v).Visits (places v) := by
  cases v with
  | object fields => exact ofFields_visits
  | array items => exact ofItems_visits
  | _ => rfl

end Bloom

theorem RenderSettings.ofFields_visits :
    (RenderSettings.ofFields fields).Visits (places fields) := by
  refine .bind ?_ fun _ _ => row_visits count_visits fun _ =>
    row_visits count_visits fun _ => row_visits count_visits fun _ =>
    row_visits count_visits fun _ => row_visits count_visits fun _ => .pure
  unfold lookup
  cases fields.get? "bloom" with
  | none => exact .pure
  | some v => exact Reading.within_visits _ (Bloom.ofValue_visits v)

/-! ## Materials and objects -/

namespace MaterialHeader

theorem ofFields_visits : (ofFields fields).Visits (schema.places fields) :=
  row_visits (nullable_visits string_visits) fun _ =>
    row_visits (nullable_visits TemplateName.ofValue_visits) fun _ => .pure

/-- An unknown template is a fault at its key, unless there is fallback. -/
theorem resolve_visits {header : MaterialHeader} (h : (ofFields fields).result = .ok header)
    (fallback : Bool) : (header.resolve fallback).Visits
      [⟨[.key "template"], !fallback && writesUnknown fields⟩] := by
  have hwrites : writesUnknown fields = true ↔ ∃ tag, header.template = some (.unknown tag) := by
    rw [writesUnknown_iff]
    exact exists_congr fun _ => (template_eq_unknown_iff h).symm
  unfold resolve
  split
  · rename_i hnone
    have hknown : writesUnknown fields = false := by
      rw [← Bool.not_eq_true, hwrites, hnone]
      nofun
    exact .pass (by rw [hknown, Bool.and_false]) .pure
  · rename_i t ht
    have hknown : writesUnknown fields = false := by
      rw [← Bool.not_eq_true, hwrites, ht]
      nofun
    exact .pass (by rw [hknown, Bool.and_false]) .pure
  · rename_i tag htag
    cases fallback with
    | true => exact .pass rfl (.bind .emit fun _ _ => .pure)
    | false => exact .fail (hwrites.mpr ⟨tag, htag⟩) rfl

end MaterialHeader

theorem MaterialOverrides.ofFields_visits : (ofFields fields).Visits (schema.places fields) := by
  have vector {key : String} {rows : List (String × FieldType)}
      {f : Option Vec3 → Reading MaterialOverrides}
      (hf : ∀ a, (f a).Visits (rowPlaces fields rows)) :
      (lookup fields key .none sparseVec3 >>= f).Visits
        (rowPlaces fields ((key, .vector) :: rows)) :=
    row_visits sparseVec3_visits hf
  have scalar {key : String} {rows : List (String × FieldType)}
      {f : Option Single → Reading MaterialOverrides}
      (hf : ∀ a, (f a).Visits (rowPlaces fields rows)) :
      (lookup fields key .none (nullable single) >>= f).Visits
        (rowPlaces fields ((key, .nullable .single) :: rows)) :=
    row_visits (nullable_visits single_visits) hf
  exact vector fun _ => vector fun _ => scalar fun _ => scalar fun _ => vector fun _ =>
    row_visits (nullable_visits (variant_visits _ _)) fun _ => scalar fun _ => scalar fun _ =>
    scalar fun _ => scalar fun _ => scalar fun _ => scalar fun _ => scalar fun _ => vector fun _ =>
    scalar fun _ => scalar fun _ => scalar fun _ => .pure

theorem Material.ofFields_visits (fallback : Bool) (fields : Fields) :
    (Material.ofFields fallback fields).Visits (places fallback fields) :=
  .bind MaterialHeader.ofFields_visits fun _ hheader =>
    .bind (MaterialHeader.resolve_visits hheader fallback) fun _ _ =>
    .bind_pure MaterialOverrides.ofFields_visits

theorem Geometry.ofFields_visits : (Geometry.ofFields fields).Visits (schema.places fields) :=
  row_visits (vec3_visits _) fun _ => row_visits single_visits fun _ =>
    row_visits single_visits fun _ => row_visits (vec3_visits _) fun _ =>
    row_visits single_visits fun _ => row_visits (vec3_visits _) fun _ =>
    row_visits (vec3_visits _) fun _ => .pure

theorem SceneObject.ofFields_visits (fields : Fields) :
    (SceneObject.ofFields fields).Visits (places fields) := by
  unfold places Schema.places
  rw [← rowPlaces_append]
  exact row_visits bool_visits fun _ => row_visits string_visits fun _ =>
    row_visits (variant_visits _ _) fun _ => .bind_pure Geometry.ofFields_visits

/-! ## Scenes -/

namespace SceneReading

variable {read : Fields → Reading α} {places : Fields → List FieldPlace} {root : Fields}
  {absent : α}

theorem object_visits (h : ∀ fields, (read fields).Visits (places fields)) (path : List PathStep)
    (v : Value) : (object path read v).Visits (objectPlaces places path v) := by
  unfold object objectPlaces
  cases v with
  | object fields => exact .pass rfl (.mapError (fun _ => rfl) (h fields))
  | _ => exact .fail rfl rfl

theorem part_visits (h : ∀ fields, (read fields).Visits (places fields)) :
    (part root key absent read).Visits (partPlaces root key places) := by
  unfold part partPlaces
  cases root.get? key with
  | none => exact .pure
  | some v =>
    cases v with
    | null => exact .pure
    | _ => exact object_visits h _ _

theorem items_visits : (items root key).Visits (itemsPlaces root key) := by
  unfold items itemsPlaces
  cases root.get? key with
  | none => exact .pure
  | some v => cases v <;> rfl

/-- **A list is looked at entry by entry.** -/
theorem entries_visits (h : ∀ fields, (read fields).Visits (places fields)) :
    ∀ (i : Nat) (vs : List Value), (entries key read i vs).Visits (entriesPlaces key places i vs)
  | _, [] => .pure
  | i, v :: vs => .bind (object_visits h _ v) fun _ _ => .bind_pure (entries_visits h (i + 1) vs)

theorem list_visits (h : ∀ fields, (read fields).Visits (places fields))
    {rest : List (ScenePlace Location)} {f : List α → SceneReading β}
    (hf : ∀ as, (f as).Visits rest) :
    (items root key >>= fun vs => entries key read 0 vs >>= f).Visits
      (listPlaces root key places ++ rest) := by
  rw [listPlaces, List.append_assoc]
  refine .bind items_visits fun vs hvs => ?_
  have hitems : ((root.get? key).map (·.itemsOf)).getD [] = vs := by
    rcases items_eq_ok_iff.mp hvs with hget | ⟨hget | hget, rfl⟩
    all_goals
      rw [hget]
      rfl
  rw [hitems]
  exact .bind (entries_visits h 0 vs) fun as _ => hf as

end SceneReading

theorem SceneHeader.version_of_ok {header : SceneHeader}
    (h : (SceneHeader.ofFields fields).result = .ok header) :
    header.version = (fields.get? "version").bind versionText? := by
  simp only [SceneHeader.ofFields, Outcome.bind_eq_ok_iff, Outcome.pure_eq_ok_iff] at h
  obtain ⟨name, -, version, hversion, rfl⟩ := h
  refine lookup_sparse_of_ok (nullable_of_ok rfl fun v text hv => ?_) hversion
  cases v with
  | string s => exact congrArg some (Outcome.pure_eq_ok_iff.mp hv)
  | number n => exact congrArg some (Outcome.pure_eq_ok_iff.mp hv)
  | _ => exact absurd hv nofun

namespace SceneInfo

variable {root : Fields} {header : SceneHeader}

/-- The version of a header is the one that its root writes. -/
theorem version_of_ok
    (h : (SceneReading.part root "scene" .blank SceneHeader.ofFields).result = .ok header) :
    header.version = versionText? root := by
  unfold SceneReading.part at h
  unfold versionText?
  cases hscene : root.get? "scene" with
  | none =>
    rw [hscene] at h
    rw [← Outcome.pure_eq_ok_iff.mp h]
    rfl
  | some scene =>
    rw [hscene] at h
    cases scene with
    | null =>
      rw [← Outcome.pure_eq_ok_iff.mp h]
      rfl
    | object fields => exact SceneHeader.version_of_ok (Outcome.mapError_eq_ok_iff.mp h)
    | _ => exact absurd h nofun

theorem ofHeader_visits
    (h : (SceneReading.part root "scene" .blank SceneHeader.ofFields).result = .ok header) :
    (ofHeader header).Visits [versionPlace root] := by
  have hdefault : (SchemaVersion.parse? default.version).isNone = false := by decide
  have hoffends : (versionPlace root).offends =
      (SchemaVersion.parse? (header.version.getD default.version)).isNone := by
    rw [version_of_ok h, versionPlace]
    cases versionText? root with
    | none => exact hdefault.symm
    | some text => rfl
  unfold ofHeader
  dsimp only
  cases hparse : SchemaVersion.parse? (header.version.getD default.version) with
  | some schema => exact .pass (by rw [hoffends, hparse]; rfl) .pure
  | none => exact .fail (by rw [hoffends, hparse]; rfl) rfl

end SceneInfo

namespace SceneDescription

open SceneReading

theorem ofRoot_visits (fallback : Bool) (root : Fields) :
    (ofRoot fallback root).Visits (rootVisits fallback root) := by
  refine .bind (part_visits fun _ => SceneHeader.ofFields_visits) fun header hheader => ?_
  refine .bind (SceneInfo.ofHeader_visits hheader) fun info _ => ?_
  refine .bind (part_visits fun _ => Camera.ofFields_visits) fun camera _ => ?_
  refine .bind (part_visits fun _ => Sky.ofFields_visits) fun sky _ => ?_
  refine .bind (part_visits fun _ => RenderSettings.ofFields_visits) fun render _ => ?_
  refine list_visits (Material.ofFields_visits fallback) fun materials => ?_
  rw [← List.append_nil (listPlaces root "objects" SceneObject.places)]
  exact list_visits SceneObject.ofFields_visits fun objects => .bind .emit fun _ _ => .pure

/-- **A tree is looked at as `visits` says.** -/
theorem ofJson_visits (fallback : Bool) (v : Value) :
    (ofJson fallback v).Visits (visits fallback v) := by
  cases v with
  | object root => exact .pass rfl (ofRoot_visits fallback root)
  | _ => exact .fail rfl rfl

/-- **The error of a text is at the first place that offends.** A text that is JSON, its comments
aside, is read iff nothing in its tree offends. Else the error is located where something does, and
nothing that is visited before offends. -/
theorem parse_reports_first_place (fallback : Bool) (text : String) (v : Value)
    (htext : Json.parse (Comment.strip text.toList) = .ok v) :
    ((parse fallback text).result.isOk = true ↔ ∀ p ∈ visits fallback v, p.offends = false) ∧
    ∀ fault, (parse fallback text).result = .error fault →
      ∃ before place after, visits fallback v = before ++ place :: after ∧
        (∀ p ∈ before, p.offends = false) ∧ place.offends = true ∧
        place.location = fault.location := by
  have hvisits : (parse fallback text).Visits (visits fallback v) := by
    unfold parse ofStripped
    rw [htext]
    exact ofJson_visits fallback v
  exact ⟨hvisits.isOk_iff, fun fault h => hvisits.first_of_error h⟩

/-- The text of a scene with three faults, of which the one in the middle is visited first. -/
def faultyText : String :=
  "\x7b\"objects\":[7],\"materials\":[\x7b\"roughness\":\"low\",\"name\":1\x7d]\x7d"

/-- The tree of that text. -/
def faultyTree : Value :=
  .object
    [("materials", .array [.object [("name", .number (.integer 1)), ("roughness", .string "low")]]),
     ("objects", .array [.number (.integer 7)])]

theorem parse_reports_first_place_faulty :
    Json.parse (Comment.strip faultyText.toList) = .ok faultyTree ∧
    ∃ fault, (parse false faultyText).result = .error fault ∧
      fault.location = .field [.key "materials", .index 0, .key "name"] := by
  have htree : Json.parse (Comment.strip faultyText.toList) = .ok faultyTree := rfl
  obtain ⟨hok, herror⟩ := parse_reports_first_place false faultyText faultyTree htree
  have hfirst : ScenePlace.firstOffending (visits false faultyTree) =
      some (.field [.key "materials", .index 0, .key "name"]) := by decide
  refine ⟨htree, ?_⟩
  cases hresult : (parse false faultyText).result with
  | ok d =>
    have hnone := ScenePlace.firstOffending_eq_none_iff.mpr (hok.mp (by rw [hresult]; rfl))
    rw [hfirst] at hnone
    exact absurd hnone nofun
  | error fault =>
    have hlocation := ScenePlace.firstOffending_eq_some_iff.mpr (herror fault hresult)
    rw [hfirst] at hlocation
    exact ⟨fault, rfl, (Option.some.inj hlocation).symm⟩

end SceneDescription

end ScenePack
