import ScenePack.Proofs.Json.Edit
import ScenePack.Proofs.Scene.Agreement
import ScenePack.Proofs.Scene.Success

/-!
# Unknown templates

A template that nobody knows is a fault to the strict reader. With fallback it stands for the
default one, and so does no template at all: reading with fallback is reading strictly after the
unknown templates have been taken out of the entries. What the strict reader accepts has none.

* `MaterialHeader.dropUnknown` takes the unknown template out of an entry,
  `Value.withoutUnknownTemplates` out of every material of a tree.

Results:
* `Material.ofFields_fallback`, `ofRoot_fallback`: the entry, and the root around it.
* **`ofJson_fallback`**: fallback is strictness on the tree without unknown templates, for every
  tree, faults and their locations included.
* `ReadFrom.of_le`, **`parse_of_le`**: what is read strictly is read the same with fallback.
-/

namespace ScenePack

open Json (Value Fields)
open Outcome

variable {α : Type} {fields fields' : Fields} {key : String}

/-! ## Taking unknown templates out -/

namespace MaterialHeader

/-- An entry without its template, if that is unknown. -/
def dropUnknown (fields : Fields) : Fields :=
  if writesUnknown fields then fields.erase "template" else fields

theorem get?_dropUnknown_of_ne (h : key ≠ "template") :
    (dropUnknown fields).get? key = fields.get? key := by
  unfold dropUnknown
  split
  · exact Json.Fields.get?_erase_of_ne h
  · rfl

end MaterialHeader

/-- The root of a scene, without the unknown templates of its materials. -/
def Json.Fields.withoutUnknownTemplates : Fields → Fields :=
  mapAt "materials" (Value.mapItems (Value.mapObject MaterialHeader.dropUnknown))

/-- A scene without the unknown templates of its materials. -/
def Json.Value.withoutUnknownTemplates : Value → Value := mapObject Fields.withoutUnknownTemplates

/-! ## Reading off equal fields -/

namespace Field

theorem lookup_congr {absent : α} {read : Value → Reading α}
    (h : fields'.get? key = fields.get? key) :
    lookup fields' key absent read = lookup fields key absent read := by
  unfold lookup
  rw [h]

end Field

namespace SceneReading

variable {root root' : Fields} {absent : α} {path : List PathStep} {read read' : Fields → Reading α}
  {g : Fields → Fields}

theorem part_congr (h : root'.get? key = root.get? key) :
    part root' key absent read = part root key absent read := by
  unfold part
  rw [h]

theorem items_congr (h : root'.get? key = root.get? key) : items root' key = items root key := by
  unfold items
  rw [h]

/-- A list of which every item is changed. -/
theorem items_mapAt {f : Value → Value} :
    (items (root.mapAt key (Value.mapItems f)) key).result =
      (items root key).result.map (List.map f) := by
  unfold items
  rw [Json.Fields.get?_mapAt_self]
  cases root.get? key with
  | none => rfl
  | some v => cases v <;> rfl

theorem object_mapObject (h : ∀ fields, (read' (g fields)).result = (read fields).result)
    (v : Value) : (object path read' (v.mapObject g)).result = (object path read v).result := by
  unfold object Value.mapObject
  cases v with
  | object fields =>
    show (read' (g fields)).result.mapError _ = (read fields).result.mapError _
    rw [h fields]
  | _ => rfl

/-- Entries that are read the same after a change of each are read the same as a list. -/
theorem entries_mapObject (h : ∀ fields, (read' (g fields)).result = (read fields).result) :
    ∀ (i : Nat) (vs : List Value),
      (entries key read' i (vs.map (Value.mapObject g))).result = (entries key read i vs).result
  | _, [] => rfl
  | i, v :: vs => by
    refine result_bind_congr (object_mapObject h v) fun a _ => ?_
    exact result_bind_congr (entries_mapObject h (i + 1) vs) fun _ _ => rfl

end SceneReading

/-! ## Entries with an unknown template -/

theorem TemplateName.ofValue_eq_unknown_iff {v : Value} {tag : String} :
    (ofValue v).result = .ok (unknown tag) ↔
      v = .string tag ∧ MaterialTemplate.ofTag? tag = none := by
  unfold ofValue
  split
  · rename_i s
    rw [pure_eq_ok_iff]
    cases hs : MaterialTemplate.ofTag? s with
    | none => simp +contextual [eq_comm, hs]
    | some t =>
      simp only [reduceCtorEq, Value.string.injEq, false_iff, not_and]
      rintro rfl
      simp [hs]
  · split
    · exact ⟨nofun, nofun⟩
    · exact ⟨nofun, nofun⟩
  · rename_i hstring hobject
    exact ⟨nofun, fun h => absurd h.1 (hstring tag)⟩

namespace MaterialHeader

variable {tag : String}

/-- A header has an unknown template iff its entry writes one. -/
theorem template_eq_unknown_iff {header : MaterialHeader}
    (h : (ofFields fields).result = .ok header) : header.template = some (.unknown tag) ↔
      fields.get? "template" = some (.string tag) ∧ MaterialTemplate.ofTag? tag = none := by
  simp only [ofFields, bind_eq_ok_iff, pure_eq_ok_iff] at h
  obtain ⟨name, -, template, htemplate, rfl⟩ := h
  rcases Field.lookup_eq_ok_iff.mp htemplate with ⟨hnone, rfl⟩ | ⟨v, hv, hread⟩
  · simp [hnone]
  rcases Field.nullable_eq_ok_iff.mp hread with ⟨rfl, rfl⟩ | ⟨-, t, ht, rfl⟩
  · simp [hv]
  · rw [hv, Option.some.injEq, Option.some.injEq, ← TemplateName.ofValue_eq_unknown_iff, ht,
      Except.ok.injEq]

theorem writesUnknown_iff : writesUnknown fields = true ↔
    ∃ tag, fields.get? "template" = some (.string tag) ∧ MaterialTemplate.ofTag? tag = none := by
  unfold writesUnknown
  split
  · rename_i tag h
    simp [h]
  · rename_i h
    simp only [Bool.false_eq_true, false_iff]
    rintro ⟨tag, htag, -⟩
    exact h tag htag

/-- Without its unknown template, an entry has the same header but for the template. -/
theorem ofFields_erase (htag : MaterialTemplate.ofTag? tag = none)
    (hget : fields.get? "template" = some (.string tag)) :
    (ofFields (fields.erase "template")).result =
      (ofFields fields).result.map fun header => { header with template := none } := by
  have hname : (fields.erase "template").get? "name" = fields.get? "name" :=
    Json.Fields.get?_erase_of_ne (by decide)
  have hbefore : (Field.lookup fields "template" none
      (Field.nullable TemplateName.ofValue)).result = .ok (some (.unknown tag)) :=
    Field.lookup_eq_ok_iff.mpr (.inr ⟨_, hget, Field.nullable_eq_ok_iff.mpr (.inr ⟨nofun, _,
      TemplateName.ofValue_eq_unknown_iff.mpr ⟨rfl, htag⟩, rfl⟩)⟩)
  have hafter : (Field.lookup (fields.erase "template") "template" none
      (Field.nullable TemplateName.ofValue)).result = .ok none :=
    Field.lookup_eq_ok_iff.mpr (.inl ⟨Json.Fields.get?_erase_self, rfl⟩)
  unfold ofFields
  rw [Field.lookup_congr hname]
  cases hread : (Field.lookup fields "name" none (Field.nullable Field.string)).result with
  | error e =>
    rw [result_bind_of_error hread, result_bind_of_error hread]
    rfl
  | ok name =>
    rw [result_bind_of_ok hread, result_bind_of_ok hread, result_bind_of_ok hbefore,
      result_bind_of_ok hafter]
    rfl

end MaterialHeader

/-! ## Fallback as strictness -/

/-- **An entry read with fallback is the entry without its unknown template read strictly.** -/
theorem Material.ofFields_fallback (fields : Fields) :
    (ofFields false (MaterialHeader.dropUnknown fields)).result =
      (ofFields true fields).result := by
  have hoverrides : MaterialOverrides.ofFields (MaterialHeader.dropUnknown fields) =
      MaterialOverrides.ofFields fields := by
    refine MaterialOverrides.ofFields_readsBy _ _ (.of_keys fun key hkey => ?_)
    refine MaterialHeader.get?_dropUnknown_of_ne ?_
    rintro rfl
    exact absurd hkey (by decide)
  unfold ofFields
  rw [hoverrides]
  cases hu : MaterialHeader.writesUnknown fields with
  | true =>
    -- the header loses its template, and with fallback it is resolved as if it had none
    obtain ⟨tag, hget, htag⟩ := MaterialHeader.writesUnknown_iff.mp hu
    rw [MaterialHeader.dropUnknown, if_pos hu]
    have hheaders := MaterialHeader.ofFields_erase htag hget
    refine result_bind_congr_map _ hheaders fun header hheader => ?_
    have hunknown := (MaterialHeader.template_eq_unknown_iff hheader).mpr ⟨hget, htag⟩
    refine result_bind_congr ?_ fun _ _ => rfl
    simp only [MaterialHeader.resolve, hunknown]
    rfl
  | false =>
    -- no unknown template is met, so fallback is not asked for
    rw [MaterialHeader.dropUnknown, if_neg (by rw [hu]; nofun)]
    refine result_bind_congr rfl fun header hheader => ?_
    refine result_bind_congr ?_ fun _ _ => rfl
    unfold MaterialHeader.resolve
    split
    · rfl
    · rfl
    · rename_i tag hunknown
      have hwrites := (MaterialHeader.template_eq_unknown_iff hheader).mp hunknown
      rw [MaterialHeader.writesUnknown_iff.mpr ⟨tag, hwrites⟩] at hu
      exact absurd hu nofun

namespace SceneDescription

open SceneReading

theorem ofRoot_fallback (root : Fields) :
    (ofRoot false root.withoutUnknownTemplates).result = (ofRoot true root).result := by
  have hget {key : String} (hkey : key ≠ "materials") :
      root.withoutUnknownTemplates.get? key = root.get? key := Json.Fields.get?_mapAt_of_ne hkey
  have hobjects : items root.withoutUnknownTemplates "objects" = items root "objects" :=
    items_congr (hget (by decide))
  unfold ofRoot
  rw [part_congr (hget (by decide)), part_congr (hget (by decide)), part_congr (hget (by decide)),
    part_congr (hget (by decide)), hobjects]
  refine result_bind_congr rfl fun header _ => ?_
  refine result_bind_congr rfl fun info _ => ?_
  refine result_bind_congr rfl fun camera _ => ?_
  refine result_bind_congr rfl fun sky _ => ?_
  refine result_bind_congr rfl fun render _ => ?_
  -- the items of the list are changed, and read the same
  refine result_bind_congr_map _ items_mapAt fun vs _ => ?_
  exact result_bind_congr (entries_mapObject Material.ofFields_fallback 0 vs) fun _ _ => rfl

/-- **Reading with fallback is reading strictly without the unknown templates**, for every tree: the
same description comes of it, or the same fault at the same place. -/
theorem ofJson_fallback (v : Value) :
    (ofJson true v).result = (ofJson false v.withoutUnknownTemplates).result := by
  cases v with
  | object root => exact (ofRoot_fallback root).symm
  | _ => rfl

end SceneDescription

/-! ## Strictness under fallback -/

section Lenient

variable {fallback fallback' : Bool}

theorem MaterialHeader.resolve_of_le (hle : fallback ≤ fallback') {header : MaterialHeader}
    {t : MaterialTemplate} (h : (header.resolve fallback).result = .ok t) :
    (header.resolve fallback').result = .ok t := by
  unfold resolve at h ⊢
  split at h
  · exact h
  · exact h
  · cases fallback with
    | true =>
      rw [hle rfl]
      exact h
    | false => exact absurd h nofun

theorem Material.ofFields_of_le (hle : fallback ≤ fallback') {m : Material}
    (h : (ofFields fallback fields).result = .ok m) :
    (ofFields fallback' fields).result = .ok m := by
  simp only [ofFields, bind_eq_ok_iff] at h ⊢
  obtain ⟨header, hheader, t, ht, h⟩ := h
  exact ⟨header, hheader, t, MaterialHeader.resolve_of_le hle ht, h⟩

/-- Entries that another reader reads the same way are read the same as a list. -/
theorem SceneReading.entries_of_forall {read read' : Fields → Reading α}
    (hread : ∀ fields a, (read fields).result = .ok a → (read' fields).result = .ok a) {i : Nat}
    {vs : List Value} {as : List α} (h : (entries key read i vs).result = .ok as) :
    (entries key read' i vs).result = .ok as := by
  obtain ⟨es, rfl, has⟩ := entries_eq_ok_iff.mp h
  refine entries_eq_ok_iff.mpr ⟨es, rfl, ?_⟩
  clear h
  induction es generalizing as with
  | nil => exact has
  | cons e es ih =>
    obtain ⟨a, as, rfl, ha, has⟩ := List.map_eq_cons_iff.mp has.symm
    rw [List.map_cons, List.map_cons, hread e a ha.symm, ih has.symm]

namespace SceneDescription

variable {d : SceneDescription} {root : Fields} {text : String}

theorem ReadFrom.of_le (hle : fallback ≤ fallback') (h : d.ReadFrom fallback root) :
    d.ReadFrom fallback' root := by
  obtain ⟨vs, hvs, hmaterials⟩ := h.materials
  have hread := SceneReading.entries_of_forall (fun _ _ => Material.ofFields_of_le hle) hmaterials
  exact { h with materials := ⟨vs, hvs, hread⟩ }

/-- **What is read strictly is read the same with fallback.** -/
theorem parse_of_le (hle : fallback ≤ fallback') (h : (parse fallback text).result = .ok d) :
    (parse fallback' text).result = .ok d := by
  obtain ⟨root, hroot, hread⟩ := parse_eq_ok_iff.mp h
  exact parse_eq_ok_iff.mpr ⟨root, hroot, hread.of_le hle⟩

end SceneDescription

end Lenient

end ScenePack
