import ScenePack.Binary.Double
import ScenePack.Decimal.Style
import ScenePack.Object.Shape

/-!
# Violations

The rules that a described scene can break, with what broke them.
-/

namespace ScenePack

/-- The measures of an object that have to be finite. -/
inductive Measure where
  | normal
  | distance
  | size
  | radius
  | height
  | center
  | rotation
  deriving DecidableEq, Repr

/-- The lists of a scene whose length is limited. -/
inductive Listing where
  | materials
  | objects
  | lights
  deriving DecidableEq, Repr

/-- A rule that a scene breaks; objects and materials are named by their positions
(`ValidationError`). -/
inductive Violation where
  | noMaterials
  | noObjects
  | emptyMaterialName (index : Nat)
  | duplicateMaterialName (name : String)
  | missingMaterialReference (object : Nat)
  | unknownMaterial (object : Nat) (name : String)
  | invalidRadius (object : Nat) (radius : Single)
  | degenerateNormal (object : Nat) (length : Single)
  | invalidHeight (object : Nat) (height : Single)
  | invalidSize (object : Nat) (size : Vec3)
  | nonFiniteGeometry (object : Nat) (measure : Measure)
  | unsupportedLegacyType (object : Nat) (shape : Shape)
  | capacityExceeded (listing : Listing) (count : Nat) (limit : UInt64)
  deriving DecidableEq, Repr

namespace Measure

def name : Measure → String
  | normal => "normal"
  | distance => "distance"
  | size => "size"
  | radius => "radius"
  | height => "height"
  | center => "center"
  | rotation => "rotation"

end Measure

namespace Listing

def name : Listing → String
  | materials => "materials"
  | objects => "objects"
  | lights => "lights"

end Listing

/-- How messages write numbers: by the shortest decimal, the upper of two equally near ones, never
with an exponent and without a point behind whole numbers. -/
def messageStyle : DecimalStyle where
  tie := .upward
  positional := none
  point := false
  nan := "NaN"

/-- A single in a message. -/
def Single.messageText (x : Single) : String := messageStyle.render .single x.number

/-- A double in a message. -/
def Double.messageText (x : Double) : String := messageStyle.render .double x.number

namespace Violation

/-- What is wrong, in words. -/
def message : Violation → String
  | noMaterials => "Scene has no materials defined"
  | noObjects => "Scene has no objects defined"
  | emptyMaterialName index => "Material " ++ toString index ++ " has an empty name"
  | duplicateMaterialName name => "Duplicate material name: " ++ name
  | missingMaterialReference object => "Object " ++ toString object ++ " has no material assigned"
  | unknownMaterial object name =>
    "Object " ++ toString object ++ " references unknown material: " ++ name
  | invalidRadius object radius =>
    "Object " ++ toString object ++ " has invalid radius " ++ radius.messageText
      ++ " (must be > 0)"
  | degenerateNormal object length =>
    "Object " ++ toString object ++ " has degenerate plane normal (length " ++ length.messageText
      ++ ")"
  | invalidHeight object height =>
    "Object " ++ toString object ++ " has invalid height " ++ height.messageText
      ++ " (must be > 0)"
  | invalidSize object size =>
    "Object " ++ toString object ++ " has invalid size [" ++ size.x.messageText ++ ", "
      ++ size.y.messageText ++ ", " ++ size.z.messageText ++ "] (all components must be > 0)"
  | nonFiniteGeometry object measure =>
    "Object " ++ toString object ++ " has a non-finite value in '" ++ measure.name ++ "'"
  | unsupportedLegacyType object shape =>
    "Object " ++ toString object ++ " of type '" ++ shape.tag
      ++ "' is not supported by the legacy sphere/plane record"
  | capacityExceeded listing count limit =>
    "Scene has " ++ toString count ++ " " ++ listing.name ++ " but at most "
      ++ toString limit.toNat ++ " are supported"

end Violation

end ScenePack
