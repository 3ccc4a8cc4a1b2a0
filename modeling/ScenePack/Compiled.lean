import ScenePack.Material.Preset
import ScenePack.NameTable
import ScenePack.Object.Array
import ScenePack.Scene.Description

/-!
# Compiled scenes

Model of `SceneBuilder`. A scene is compiled in two passes: the materials in order, which fills the
table of names, then the objects in order, each with the position of its material. An object whose
material is not in the table gets position 0; a valid scene has no such object.

* `nameMaterials` fills the table, `resolve` looks an object's material up.
* `assemble` packs the objects, `CompiledScene.ofDescription` does all.
* `objectBytes`, `materialBytes`, `lightBytes`: the arrays as they are uploaded, lowest byte first.
-/

namespace ScenePack

/-- The arrays of a scene that are uploaded, and the table behind the material positions. -/
structure CompiledScene where
  objects : ObjectArray
  materials : List MaterialRecord
  /-- The positions of the lights among the objects. -/
  lights : Array UInt32
  names : NameTable
  deriving BEq, Repr

/-- The bytes of a word, lowest first. -/
def wordBytes (w : UInt32) : List UInt8 :=
  [w.toUInt8, (w >>> 8).toUInt8, (w >>> 16).toUInt8, (w >>> 24).toUInt8]

namespace CompiledScene

/-- The table of a list of materials, whose first is at `position` (`build_materials`). -/
def nameMaterials (names : NameTable) (position : Nat) : List Material → NameTable
  | [] => names
  | m :: rest => nameMaterials (names.insert m.name (UInt32.ofNat position)) (position + 1) rest

/-- What placing materials logs, the first at `position`. -/
def placeLog (position : Nat) : List Material → List Event
  | [] => []
  | m :: rest =>
    .materialPlaced m.name m.template (UInt32.ofNat position) :: placeLog (position + 1) rest

/-- The position of an object's material (`resolve_material_index`). -/
def resolve (names : NameTable) (o : SceneObject) : UInt32 := (names.get? o.material).getD 0

/-- What looking up an object's material logs. -/
def resolveLog (names : NameTable) (o : SceneObject) : List Event :=
  match names.get? o.material with
  | some _ => []
  | none => [.materialMissing o.material]

/-- Pack objects one after another, and log on the way. -/
def assemble (names : NameTable) (a : ObjectAssembly) :
    List SceneObject → ObjectAssembly × List Event
  | [] => (a, [])
  | o :: rest =>
    let noted := resolveLog names o ++ a.pushLog o
    let (done, log) := assemble names (a.push o (resolve names o)) rest
    (done, noted ++ log)

/-- Compile a description, valid or not (`SceneBuilder::build`). -/
def ofDescription (d : SceneDescription) : CompiledScene × List Event :=
  let names := nameMaterials .empty 0 d.materials
  let layout := d.info.schema.layout
  let (assembly, log) := assemble names (.start layout) d.objects
  ({ objects := assembly.objects
     materials := d.materials.map (·.record)
     lights := assembly.lights
     names := names },
    .building d.info.name :: placeLog 0 d.materials ++ log
      ++ [.built layout assembly.objects.size d.materials.length assembly.lights.size])

/-- The bytes of the object array (`CompiledScene::objects_bytes`). -/
def objectBytes (c : CompiledScene) : List UInt8 := c.objects.words.flatten.flatMap wordBytes

/-- The bytes of the material array (`CompiledScene::materials_bytes`). -/
def materialBytes (c : CompiledScene) : List UInt8 :=
  (c.materials.flatMap (·.words)).flatMap wordBytes

/-- The bytes of the light list (`CompiledScene::lights_bytes`). -/
def lightBytes (c : CompiledScene) : List UInt8 := c.lights.toList.flatMap wordBytes

end CompiledScene

end ScenePack
