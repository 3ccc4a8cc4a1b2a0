import ScenePack.Vec3

/-!
# Objects as they are described

An object has a shape, a material's name, a geometry, and may be marked as a light. The geometry
holds the measures of every shape; which of them count depends on the shape.
-/

namespace ScenePack

/-- The primitive shapes (`ObjectType`). -/
inductive Shape where
  | sphere
  | plane
  | box
  | cylinder
  | cone
  | pyramid
  | tetrahedron
  | prism
  | dodecahedron
  | icosahedron
  deriving DecidableEq, Repr, Inhabited

namespace Shape

/-- All shapes, in the order of their ids. -/
def all : List Shape :=
  [sphere, plane, box, cylinder, cone, pyramid, tetrahedron, prism, dodecahedron, icosahedron]

/-- The tag of a shape in scene text (`ObjectType::as_str`). -/
def tag : Shape → String
  | sphere => "sphere"
  | plane => "plane"
  | box => "box"
  | cylinder => "cylinder"
  | cone => "cone"
  | pyramid => "pyramid"
  | tetrahedron => "tetrahedron"
  | prism => "prism"
  | dodecahedron => "dodecahedron"
  | icosahedron => "icosahedron"

/-- Other tags under which a shape is known. -/
def aliases : Shape → List String
  | box => ["cube"]
  | _ => []

/-- The shape of a tag. -/
def ofTag? (tag : String) : Option Shape :=
  all.find? fun s => s.tag = tag || s.aliases.contains tag

/-- The id of a shape in records (`ObjectType::type_id`). -/
def id : Shape → Nat
  | sphere => 0
  | plane => 1
  | box => 2
  | cylinder => 3
  | cone => 4
  | pyramid => 5
  | tetrahedron => 6
  | prism => 7
  | dodecahedron => 8
  | icosahedron => 9

/-- Whether the radius gives a shape its size (`ObjectType::uses_radius`). -/
def usesRadius : Shape → Bool
  | plane | box => false
  | _ => true

/-- Whether a shape has a height besides its radius (`ObjectType::uses_height`). -/
def usesHeight : Shape → Bool
  | cylinder | cone | prism => true
  | _ => false

end Shape

/-- The measures of an object. -/
structure Geometry where
  center : Vec3
  radius : Single
  normal : Vec3
  /-- The offset of a plane along its normal. -/
  distance : Single
  /-- Euler angles in degrees. -/
  rotation : Vec3
  /-- The full extents of a box. -/
  size : Vec3
  height : Single
  deriving DecidableEq, BEq, Repr

namespace Geometry

/-- What an object has that gives no measures. -/
def default : Geometry where
  center := .zero
  radius := 1
  normal := ⟨0, 1, 0⟩
  distance := 0
  rotation := .zero
  size := .replicate 1
  height := 1

instance : Inhabited Geometry := ⟨default⟩

end Geometry

/-- An object of a scene (`ObjectDescription`). -/
structure SceneObject where
  shape : Shape
  /-- The name of a material. -/
  material : String
  isLight : Bool
  geometry : Geometry
  deriving DecidableEq, BEq, Repr, Inhabited

namespace SceneObject

/-- Whether an object goes into the light list. -/
def isLightSource (o : SceneObject) : Bool := o.isLight && o.shape ≠ .plane

end SceneObject

end ScenePack
