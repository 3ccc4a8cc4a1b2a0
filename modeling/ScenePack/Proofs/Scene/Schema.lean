import ScenePack.Scene.Reader

/-!
# The schema of scenes

What every section and every entry of a scene wants in its fields, as tables in the order in which
the fields are looked at: the fields that `CameraDescription`, `SkyDescription` and their like
declare. The readers do not know these tables: that they read by them is for theorems to say.

* `FieldType` is what is wanted in a field, `FieldType.fits` whether a value is that.
* `Schema` is a table, ascending by key.
* `Camera.schema`, `Sky.schema`, … `Geometry.schema`: the tables.
-/

namespace ScenePack

open Json (Value Fields)

/-! ## Types of fields -/

/-- What is wanted in a field. -/
inductive FieldType where
  /-- Anything: what is no vector is left aside. -/
  | vector
  | single
  /-- A number that is whole and fits 32 bits. -/
  | count
  | truth
  | text
  /-- A string, or a number that stands for its text. -/
  | version
  /-- Any string, or a known tag as the one key of an object with `null` behind it. -/
  | template
  /-- A known name, or an object with it as the one key and `null` behind it. -/
  | name (known : String → Bool)
  | nullable (t : FieldType)

namespace FieldType

/-- Whether a value is what is wanted. -/
def fits : FieldType → Value → Bool
  | vector, _ => true
  | single, .number _ => true
  | count, .number n => n.toDouble.toCount?.isSome
  | truth, .bool _ => true
  | text, .string _ => true
  | version, .string _ => true
  | version, .number _ => true
  | template, .string _ => true
  | template, .object [(tag, .null)] => (MaterialTemplate.ofTag? tag).isSome
  | name known, .string s => known s
  | name known, .object [(s, inner)] => known s && inner.isNull
  | nullable _, .null => true
  | nullable t, v => t.fits v
  | _, _ => false

/-- The way from a value to what is wrong with it: of a known name that is written as a key, it is
what stands behind the key. -/
def faultPath : FieldType → Value → List PathStep
  | name known, .object [(s, _)] => if known s then [.key s] else []
  | nullable t, v => t.faultPath v
  | _, _ => []

end FieldType

/-! ## Tables -/

/-- The fields that are looked at, and what is wanted in them. -/
structure Schema where
  fields : List (String × FieldType)
  ascending : (fields.map (·.1)).Pairwise (· < ·) := by decide

/-- The keys of a schema. -/
def Schema.keys (s : Schema) : List String := s.fields.map (·.1)

namespace SceneHeader

def schema : Schema where
  fields := [("name", .nullable .text), ("version", .nullable .version)]

end SceneHeader

namespace Camera

def schema : Schema where
  fields := [("aperture", .single), ("focusDist", .single), ("fov", .single), ("position", .vector),
    ("rotation", .vector)]

end Camera

namespace Sky

def schema : Schema where
  fields := [("colorBottom", .vector), ("colorTop", .vector)]

end Sky

namespace Bloom

def schema : Schema where
  fields := [("downscale", .single), ("enabled", .truth), ("intensity", .single),
    ("iterations", .count), ("knee", .single), ("threshold", .single)]

/-- What is wanted in the items of bloom settings that are written as a list. -/
def itemTypes : List FieldType := [.truth, .single, .single, .single, .count, .single]

end Bloom

namespace RenderSettings

/-- The fields behind `bloom`, which has fields of its own. -/
def schema : Schema where
  fields := [("height", .count), ("maxBounces", .count), ("maxSamples", .count),
    ("samplesPerFrame", .count), ("width", .count)]

/-- The bloom settings come first by their key, too. -/
theorem bloom_first : ∀ key ∈ schema.keys, "bloom" < key := by decide

end RenderSettings

namespace MaterialHeader

def schema : Schema where
  fields := [("name", .nullable .text), ("template", .nullable .template)]

/-- Whether an entry names its template by a string that is no tag. -/
def writesUnknown (fields : Fields) : Bool :=
  match fields.get? "template" with
  | some (.string tag) => (MaterialTemplate.ofTag? tag).isNone
  | _ => false

end MaterialHeader

namespace MaterialOverrides

def schema : Schema where
  fields := [("absorption", .vector), ("albedo", .vector), ("clearcoat", .nullable .single),
    ("clearcoatRoughness", .nullable .single), ("emission", .vector),
    ("emissionMode", .nullable (.name fun tag => (EmissionMode.ofTag? tag).isSome)),
    ("emissionStrength", .nullable .single), ("ior", .nullable .single),
    ("metallic", .nullable .single), ("roughness", .nullable .single),
    ("scatteringAnisotropy", .nullable .single), ("sheen", .nullable .single),
    ("specular", .nullable .single), ("specularTint", .vector), ("subsurface", .nullable .single),
    ("subsurfaceRadius", .nullable .single), ("transmission", .nullable .single)]

end MaterialOverrides

namespace SceneObject

/-- The fields that say what an object is. -/
def schema : Schema where
  fields := [("isLight", .truth), ("material", .text),
    ("type", .name fun tag => (Shape.ofTag? tag).isSome)]

end SceneObject

namespace Geometry

def schema : Schema where
  fields := [("center", .vector), ("distance", .single), ("height", .single), ("normal", .vector),
    ("radius", .single), ("rotation", .vector), ("size", .vector)]

end Geometry

end ScenePack
