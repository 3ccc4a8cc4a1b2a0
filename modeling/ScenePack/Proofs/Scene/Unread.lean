import ScenePack.Proofs.Scene.Agreement

/-!
# Keys that nobody reads

An object of a scene is looked at under the keys of its schema. Whatever is written there under
another key, or changed, is not seen: neither in the description, nor in a fault, nor in the log.
That goes for keys that another object of the scene does read, and for other spellings of a key.

* `ScenePart`: the objects of a scene; `ScenePart.keys`: the keys that are read in each.
* `ScenePart.edit`: change the fields of one object.
* `KeyEdit`: write a key of an object, whether it is there or not.

Results:
* `alike_edit`: an edit that leaves the keys of its object leaves a scene that agrees.
* `ofJson_apply`: a key that is not read may be written.
* **`unread_keys_inert`**: any number of them may, with the keys of other objects, other spellings
  and the names of what is no field among them.
-/

namespace ScenePack

open Json (Value Fields)

/-- The objects of a scene of which keys are read. -/
inductive ScenePart where
  | root
  | scene
  | camera
  | sky
  | render
  /-- The bloom settings among the render settings. -/
  | bloom
  /-- An entry of the list of materials. -/
  | material (i : Nat)
  /-- An entry of the list of objects. -/
  | object (i : Nat)
  deriving DecidableEq, Repr

namespace ScenePart

/-- The keys that are read in an object. -/
def keys : ScenePart → List String
  | root => SceneSection.all.map (·.key)
  | scene => SceneSection.scene.rows.map (·.1)
  | camera => SceneSection.camera.rows.map (·.1)
  | sky => SceneSection.sky.rows.map (·.1)
  | render => "bloom" :: SceneSection.render.rows.map (·.1)
  | bloom => Bloom.schema.keys
  | material _ => SceneSection.materials.rows.map (·.1)
  | object _ => SceneSection.objects.rows.map (·.1)

/-- Change the fields of an object, seen from the fields of the root. -/
def editRoot : ScenePart → (Fields → Fields) → Fields → Fields
  | root, f => f
  | scene, f => Fields.mapAt "scene" (Value.mapObject f)
  | camera, f => Fields.mapAt "camera" (Value.mapObject f)
  | sky, f => Fields.mapAt "sky" (Value.mapObject f)
  | render, f => Fields.mapAt "render" (Value.mapObject f)
  | bloom, f =>
    Fields.mapAt "render" (Value.mapObject (Fields.mapAt "bloom" (Value.mapObject f)))
  | material i, f => Fields.mapAt "materials" (Value.mapItem i (Value.mapObject f))
  | object i, f => Fields.mapAt "objects" (Value.mapItem i (Value.mapObject f))

/-- Change the fields of an object of a scene, if it is there. -/
def edit (part : ScenePart) (f : Fields → Fields) : Value → Value :=
  Value.mapObject (part.editRoot f)

end ScenePart

variable {rows : List (String × FieldType)} {R : Fields → Fields → Prop} {f : Fields → Fields}

/-! ## Edits that leave the keys of a schema -/

/-- An edit of fields that is not seen under some keys. -/
def Leaves (keys : List String) (f : Fields → Fields) : Prop :=
  ∀ fields, ∀ key ∈ keys, (f fields).get? key = fields.get? key

theorem leaves_insert {keys : List String} {key : String} {v : Value} (h : key ∉ keys) :
    Leaves keys (Fields.insert key v) := by
  intro fields k hk
  have hne : k ≠ key := fun heq => h (heq ▸ hk)
  exact Json.Fields.get?_insert_of_ne hne

namespace Leaves

/-- Fields that are not changed under the keys of rows agree on them. -/
theorem rowsAgree (h : Leaves (rows.map (·.1)) f) (fields : Fields) :
    RowsAgree rows fields (f fields) :=
  .of_keys (h fields)

end Leaves

/-- A root that is changed at one section agrees if that section does. -/
theorem sceneAlike_mapAt {s : SceneSection} {g : Value → Value} (h : ∀ v, s.Alike v (g v))
    (root : Fields) : SceneAlike root (root.mapAt s.key g) := by
  intro s'
  rw [Json.Fields.get?_mapAt]
  cases root.get? s'.key with
  | none => exact .none
  | some v =>
    refine .some ?_
    by_cases hs : s'.key = s.key
    · obtain rfl := SceneSection.key_inj hs
      simpa using h v
    · simpa [hs] using s'.alike_refl v

/-- **An edit that leaves the keys of its object leaves a scene that agrees.** -/
theorem ScenePart.alike_edit {part : ScenePart} (h : Leaves part.keys f) (v : Value) :
    ScenePack.Alike SceneAlike v (part.edit f v) := by
  refine Alike.mapObject (fun root => ?_) v
  cases part with
  | root =>
    intro s
    rw [editRoot, h root s.key (List.mem_map_of_mem s.mem_all)]
    exact rel_refl s.alike_refl _
  | scene => exact sceneAlike_mapAt (s := .scene) (Alike.mapObject h.rowsAgree) root
  | camera => exact sceneAlike_mapAt (s := .camera) (Alike.mapObject h.rowsAgree) root
  | sky => exact sceneAlike_mapAt (s := .sky) (Alike.mapObject h.rowsAgree) root
  | render =>
    refine sceneAlike_mapAt (s := .render) (Alike.mapObject fun fields => ?_) root
    have hbloom : (f fields).get? "bloom" = fields.get? "bloom" := h fields _ List.mem_cons_self
    have hrows : Leaves (SceneSection.render.rows.map (·.1)) f :=
      fun fields key hkey => h fields key (List.mem_cons_of_mem _ hkey)
    exact ⟨by rw [hbloom]; exact rel_refl .same _, hrows.rowsAgree fields⟩
  | bloom =>
    refine sceneAlike_mapAt (s := .render) (Alike.mapObject fun fields => ?_) root
    refine ⟨?_, fun row hrow => ?_⟩
    · rw [Json.Fields.get?_mapAt_self]
      cases fields.get? "bloom" with
      | none => exact .none
      | some v => exact .some (Alike.mapObject h.rowsAgree v)
    · have hne : row.1 ≠ "bloom" := by
        intro heq
        have hlt := RenderSettings.bloom_first row.1 (List.mem_map_of_mem hrow)
        rw [heq] at hlt
        exact absurd hlt (String.lt_irrefl _)
      rw [Json.Fields.get?_mapAt_of_ne hne]
  | material i => exact sceneAlike_mapAt (s := .materials) (ArrayAlike.mapItem h.rowsAgree i) root
  | object i => exact sceneAlike_mapAt (s := .objects) (ArrayAlike.mapItem h.rowsAgree i) root

/-! ## Keys that are written -/

/-- A key of an object of a scene, and what is written there. -/
structure KeyEdit where
  part : ScenePart
  key : String
  value : Value

namespace KeyEdit

/-- The key is none that is read in its object. -/
def Unread (e : KeyEdit) : Prop := e.key ∉ e.part.keys

/-- Write the key, in place of what stands there or anew. -/
def apply (e : KeyEdit) : Value → Value := e.part.edit (Fields.insert e.key e.value)

end KeyEdit

/-- The spelling of a key in small letters, with a stroke before what was a capital. -/
def snakeCase (key : String) : String :=
  String.ofList (key.toList.flatMap fun c => if c.isUpper then ['_', c.toLower] else [c])

theorem mem_snakeCase_of_ne {key : String} (h : snakeCase key ≠ key) :
    '_' ∈ (snakeCase key).toList := by
  unfold snakeCase at h ⊢
  rw [String.toList_ofList, List.mem_flatMap]
  by_contra hnone
  have hlower : ∀ c ∈ key.toList, c.isUpper = false := by
    intro c hc
    by_contra hcase
    have hupper : c.isUpper = true := by simpa using hcase
    refine hnone ⟨c, hc, ?_⟩
    rw [if_pos hupper]
    exact List.mem_cons_self
  have hflat : (key.toList.flatMap fun c => if c.isUpper then ['_', c.toLower] else [c]) =
      key.toList := by
    have hsingle : (key.toList.flatMap fun c => if c.isUpper then ['_', c.toLower] else [c]) =
        key.toList.flatMap fun c => [c] :=
      List.flatMap_congr fun c hc => by simp [hlower c hc]
    rw [hsingle, List.flatMap_singleton']
  rw [hflat, String.ofList_toList] at h
  exact h rfl

/-- No key that is read is spelled with a stroke. -/
theorem ScenePart.stroke_not_mem (part : ScenePart) : ∀ key ∈ part.keys, '_' ∉ key.toList := by
  cases part with
  | material i =>
    show ∀ key ∈ (material 0).keys, '_' ∉ key.toList
    decide
  | object i =>
    show ∀ key ∈ (object 0).keys, '_' ∉ key.toList
    decide
  | _ => decide

namespace SceneDescription

/-- **A key that is not read may be written.** -/
theorem ofJson_apply (fallback : Bool) {e : KeyEdit} (h : e.Unread) (v : Value) :
    ofJson fallback (e.apply v) = ofJson fallback v :=
  ofJson_alike fallback (ScenePart.alike_edit (leaves_insert h) v)

/-- **Keys that are not read are inert.** Write any number of them, in whatever objects and to
whatever values: the same description or the same fault comes of the scene, with the same log.
Among them are, in an object, the overrides of a material and the names of its own parts; in a
material, the fields of a geometry; and everywhere the spelling with strokes of a key that has
capitals. -/
theorem unread_keys_inert (fallback : Bool) (v : Value) :
    (∀ edits : List KeyEdit, (∀ e ∈ edits, e.Unread) →
      ofJson fallback (edits.foldl (fun v e => e.apply v) v) = ofJson fallback v) ∧
    (∀ i, ∀ key ∈ MaterialOverrides.schema.keys ++ ["geometry", "object_type"],
      key ∉ (ScenePart.object i).keys) ∧
    (∀ i, ∀ key ∈ Geometry.schema.keys, key ∉ (ScenePart.material i).keys) ∧
    ∀ part part' : ScenePart, ∀ key ∈ part.keys, snakeCase key ≠ key →
      snakeCase key ∉ part'.keys := by
  refine ⟨fun edits => ?_, fun i => ?_, fun i => ?_, fun part part' => ?_⟩
  · induction edits generalizing v with
    | nil => exact fun _ => rfl
    | cons e edits ih =>
      intro h
      obtain ⟨he, hedits⟩ := List.forall_mem_cons.mp h
      exact (ih (e.apply v) hedits).trans (ofJson_apply fallback he v)
  · show ∀ key ∈ MaterialOverrides.schema.keys ++ ["geometry", "object_type"],
      key ∉ (ScenePart.object 0).keys
    decide
  · show ∀ key ∈ Geometry.schema.keys, key ∉ (ScenePart.material 0).keys
    decide
  · intro key _ hne hmem
    exact part'.stroke_not_mem _ hmem (mem_snakeCase_of_ne hne)

/-- A scene with a camera and a cone. -/
def plainTree : Value :=
  .object
    [("camera", .object [("focusDist", .number (.integer 4))]),
     ("objects", .array [.object [("type", .string "cone")]])]

/-- An override on the cone, another spelling in the camera, and a section that nobody knows. -/
def strayEdits : List KeyEdit :=
  [⟨.object 0, "roughness", .string "rough"⟩, ⟨.camera, "focus_dist", .null⟩,
   ⟨.root, "postfx", .bool true⟩]

/-- The scene with all that. -/
def strayTree : Value :=
  .object
    [("camera", .object [("focusDist", .number (.integer 4)), ("focus_dist", .null)]),
     ("objects", .array [.object [("roughness", .string "rough"), ("type", .string "cone")]]),
     ("postfx", .bool true)]

theorem unread_keys_inert_strays :
    (∀ e ∈ strayEdits, e.Unread) ∧
    strayEdits.foldl (fun v e => e.apply v) plainTree = strayTree ∧
    ofJson false strayTree = ofJson false plainTree ∧
    "roughness" ∉ (ScenePart.object 0).keys ∧ "radius" ∉ (ScenePart.material 0).keys ∧
    snakeCase "focusDist" ≠ "focusDist" ∧ snakeCase "focusDist" ∉ ScenePart.camera.keys := by
  obtain ⟨hedits, hobject, hmaterial, hspelling⟩ := unread_keys_inert false plainTree
  have hunread : ∀ e ∈ strayEdits, e.Unread := by
    unfold KeyEdit.Unread
    decide
  have htree : strayEdits.foldl (fun v e => e.apply v) plainTree = strayTree := rfl
  have hne : snakeCase "focusDist" ≠ "focusDist" := by decide
  refine ⟨hunread, htree, ?_, hobject 0 _ (by decide), hmaterial 0 _ (by decide), hne,
    hspelling .camera .camera _ (by decide) hne⟩
  rw [← htree]
  exact hedits strayEdits hunread

end SceneDescription

end ScenePack
