import ScenePack.Object.Shape
import ScenePack.Scene.Version

/-!
# Object records

An object is uploaded as four slots or, in legacy scenes, as two. `pack` makes the four-slot record:
centre and bounding radius, rotation and material, extents and shape, and a slot in reserve. A plane
has its normal and offset in the first slot and neither rotation nor extents. `packLegacy` makes
the two-slot record: centre and radius, or normal and offset, then material and shape.
-/

namespace ScenePack

/-- The four-slot record of an object (`CompiledObject`). -/
structure ObjectRecord where
  /-- Centre and bounding radius; of a plane, normal and offset. -/
  bounds : Slot
  /-- Rotation, and the position of the material. -/
  rotation : Slot
  /-- Extents, and the id of the shape. -/
  scale : Slot
  reserved : Slot
  deriving DecidableEq, BEq, Repr

/-- The two-slot record of an object (`LegacyObjectRecord`). -/
structure LegacyRecord where
  /-- Centre and radius; of a plane, normal and offset. -/
  bounds : Slot
  /-- The position of the material and the id of the shape. -/
  kind : Slot
  deriving DecidableEq, BEq, Repr

namespace ObjectRecord

/-- The words of a record in upload order. -/
def words (r : ObjectRecord) : List UInt32 :=
  r.bounds.words ++ r.rotation.words ++ r.scale.words ++ r.reserved.words

/-- The record of 16 words. -/
def ofWords? : List UInt32 → Option ObjectRecord
  | [b0, b1, b2, b3, r0, r1, r2, r3, s0, s1, s2, s3, v0, v1, v2, v3] =>
    some ⟨⟨⟨b0⟩, ⟨b1⟩, ⟨b2⟩, ⟨b3⟩⟩, ⟨⟨r0⟩, ⟨r1⟩, ⟨r2⟩, ⟨r3⟩⟩, ⟨⟨s0⟩, ⟨s1⟩, ⟨s2⟩, ⟨s3⟩⟩,
      ⟨⟨v0⟩, ⟨v1⟩, ⟨v2⟩, ⟨v3⟩⟩⟩
  | _ => none

/-- The position of the material, as the record's consumer reads it
(`CompiledObject::material_index`). -/
def materialIndex (r : ObjectRecord) : UInt32 := r.rotation.w.toUInt32

/-- The id of the shape, as the record's consumer reads it (`CompiledObject::type_id`). -/
def shapeId (r : ObjectRecord) : UInt32 := r.scale.w.toUInt32

end ObjectRecord

namespace LegacyRecord

/-- The words of a record in upload order. -/
def words (r : LegacyRecord) : List UInt32 := r.bounds.words ++ r.kind.words

end LegacyRecord

namespace Shape

/-- The extents of an object of a shape: half the size of a box, radius and height of a shape that
has both, else the radius all around (`ObjectCompiler::scale_for`). -/
def extents (shape : Shape) (g : Geometry) : Vec3 :=
  match shape with
  | box => g.size.scale 0.5
  | cylinder | cone | prism => ⟨g.radius, g.height, g.radius⟩
  | plane => .zero
  | sphere | pyramid | tetrahedron | dodecahedron | icosahedron => .replicate g.radius

/-- The radius of a sphere around the centre that holds an object of the given extents
(`ObjectCompiler::bounding_radius`). -/
def boundingRadius (shape : Shape) (extents : Vec3) : Single :=
  match shape with
  | sphere => extents.x
  | _ => extents.norm

end Shape

namespace SceneObject

/-- The four-slot record of an object whose material has the given position
(`ObjectCompiler::pack`). -/
def pack (o : SceneObject) (material : UInt32) : ObjectRecord :=
  let material := Single.ofNat material.toNat
  let id := Single.ofNat o.shape.id
  match o.shape with
  | .plane =>
    { bounds := o.geometry.normal.slot o.geometry.distance
      rotation := Vec3.zero.slot material
      scale := Vec3.zero.slot id
      reserved := .zero }
  | shape =>
    let extents := shape.extents o.geometry
    { bounds := o.geometry.center.slot (shape.boundingRadius extents)
      rotation := o.geometry.rotation.slot material
      scale := extents.slot id
      reserved := .zero }

/-- The two-slot record of an object whose material has the given position. Shapes other than
spheres and planes are written as the spheres around them (`ObjectCompiler::pack_legacy`). -/
def packLegacy (o : SceneObject) (material : UInt32) : LegacyRecord :=
  { bounds :=
      match o.shape with
      | .plane => o.geometry.normal.slot o.geometry.distance
      | .sphere => o.geometry.center.slot o.geometry.radius
      | shape => o.geometry.center.slot (shape.boundingRadius (shape.extents o.geometry))
    kind := ⟨Single.ofNat material.toNat, Single.ofNat o.shape.id, 0, 0⟩ }

end SceneObject

end ScenePack
