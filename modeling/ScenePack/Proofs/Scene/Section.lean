import ScenePack.Proofs.Json.Edit
import ScenePack.Proofs.Scene.Schema

/-!
# The sections of a scene

What the root of a scene is asked for: four sections, which are objects, and two lists of entries,
which are objects each. Theorems that compare a scene with an edited one speak of all six alike.

* `SceneSection`, `SceneSection.key`: the sections, and where they stand.
* `SceneSection.rows`: the fields that are looked at in a section, or in every entry of it.
* `SceneSection.mapObjects`: change the object of a section, or every entry.
* `Fields.mapSections`: change the sections of a root.

Results:
* `ofKey?_key`, `key_inj`: a section is known by its key.
* `get?_mapSections`: what is found after a change.
-/

namespace ScenePack

open Json (Value Fields)

/-- The sections of a scene, in the order in which they are looked at. -/
inductive SceneSection where
  | scene
  | camera
  | sky
  | render
  | materials
  | objects
  deriving DecidableEq, Repr

namespace SceneSection

def all : List SceneSection := [scene, camera, sky, render, materials, objects]

/-- The key of a section in the root. -/
def key : SceneSection → String
  | scene => "scene"
  | camera => "camera"
  | sky => "sky"
  | render => "render"
  | materials => "materials"
  | objects => "objects"

/-- The section that a key stands for. -/
def ofKey? (key : String) : Option SceneSection := all.find? (·.key = key)

/-- The fields that are looked at in a section, or in every entry of it. The bloom settings among
the render settings have fields of their own. -/
def rows : SceneSection → List (String × FieldType)
  | scene => SceneHeader.schema.fields
  | camera => Camera.schema.fields
  | sky => Sky.schema.fields
  | render => RenderSettings.schema.fields
  | materials => MaterialHeader.schema.fields ++ MaterialOverrides.schema.fields
  | objects => SceneObject.schema.fields ++ Geometry.schema.fields

/-- Change the object of a section, or every entry of a list. -/
def mapObjects : SceneSection → (Fields → Fields) → Value → Value
  | materials, f | objects, f => Value.mapItems (Value.mapObject f)
  | _, f => Value.mapObject f

theorem mem_all (s : SceneSection) : s ∈ all := by
  cases s <;> decide

theorem ofKey?_key (s : SceneSection) : ofKey? s.key = some s := by
  cases s <;> decide

theorem key_inj {s s' : SceneSection} (h : s.key = s'.key) : s = s' := by
  have hfound := ofKey?_key s
  rw [h, ofKey?_key s'] at hfound
  exact (Option.some.inj hfound).symm

end SceneSection

namespace Json.Fields

/-- Change the sections of a root; other keys stay as they are. -/
def mapSections (f : SceneSection → Value → Value) (root : Fields) : Fields :=
  root.map fun field =>
    (field.1, match SceneSection.ofKey? field.1 with
      | some s => f s field.2
      | none => field.2)

theorem get?_mapSections {f : SceneSection → Value → Value} {root : Fields} {s : SceneSection} :
    (mapSections f root).get? s.key = (root.get? s.key).map (f s) := by
  unfold get? mapSections
  rw [List.find?_map, Option.map_map, Option.map_map]
  refine Option.map_congr fun field hfield => ?_
  have hkey : field.1 = s.key := by simpa using List.find?_some hfield
  simp [hkey, SceneSection.ofKey?_key]

end Json.Fields

end ScenePack
