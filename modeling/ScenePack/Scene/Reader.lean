import ScenePack.Comment
import ScenePack.Json.Reader
import ScenePack.Scene.Description
import ScenePack.Scene.Field

/-!
# Reading scenes

A scene text is JSON with comments. Its sections are read in a fixed order, then the materials, then
the objects; the fields of a section in the order of their keys. A material is read in two passes,
its name and template before its overrides, and so is an object, its kind before its geometry. The
first problem ends the reading. Keys that no pass asks for are not looked at.

* `ofFields`, in the namespace of each section and entry, reads the fields that it knows, as the
  derived deserializers do.
* `SceneReading.part` (`section`), `items` (`list`) and `entries` find sections and lists from the
  root.
* `SceneDescription.ofJson` reads a tree, `parse` (`SceneParser::parse_str`) a text.
-/

namespace ScenePack

open Json (Value Fields)

/-! ## Sections -/

namespace Camera

/-- The camera that fields say. -/
def ofFields (fields : Fields) : Reading Camera := do
  let aperture ← Field.lookup fields "aperture" default.aperture Field.single
  let focusDist ← Field.lookup fields "focusDist" default.focusDist Field.single
  let fov ← Field.lookup fields "fov" default.fov Field.single
  let position ← Field.lookup fields "position" default.position (Field.vec3 default.position)
  let rotation ← Field.lookup fields "rotation" default.rotation (Field.vec3 .zero)
  return { position, rotation, fov, aperture, focusDist }

end Camera

namespace Sky

/-- The sky that fields say. -/
def ofFields (fields : Fields) : Reading Sky := do
  let colorBottom ←
    Field.lookup fields "colorBottom" default.colorBottom (Field.vec3 default.colorBottom)
  let colorTop ← Field.lookup fields "colorTop" default.colorTop (Field.vec3 default.colorTop)
  return { colorTop, colorBottom }

end Sky

namespace Bloom

/-- The bloom settings that fields say. -/
def ofFields (fields : Fields) : Reading Bloom := do
  let downscale ← Field.lookup fields "downscale" default.downscale Field.single
  let enabled ← Field.lookup fields "enabled" default.enabled Field.bool
  let intensity ← Field.lookup fields "intensity" default.intensity Field.single
  let iterations ← Field.lookup fields "iterations" default.iterations Field.count
  let knee ← Field.lookup fields "knee" default.knee Field.single
  let threshold ← Field.lookup fields "threshold" default.threshold Field.single
  return { enabled, threshold, knee, intensity, iterations, downscale }

/-- The item at a position of a list as `read` reads it, or `absent` behind the list's end. -/
def item {α : Type} (items : List Value) (i : Nat) (absent : α) (read : Value → Reading α) :
    Reading α :=
  match items[i]? with
  | none => pure absent
  | some v => Reading.within (.index i) (read v)

/-- Bloom settings as a list of at most six, which may stop early. -/
def ofItems (items : List Value) : Reading Bloom := do
  let enabled ← item items 0 default.enabled Field.bool
  let threshold ← item items 1 default.threshold Field.single
  let knee ← item items 2 default.knee Field.single
  let intensity ← item items 3 default.intensity Field.single
  let iterations ← item items 4 default.iterations Field.count
  let downscale ← item items 5 default.downscale Field.single
  if 6 < items.length then Reading.problem (.tooManyEntries items.length)
  return { enabled, threshold, knee, intensity, iterations, downscale }

/-- Bloom settings by name or by position. -/
def ofValue : Value → Reading Bloom
  | .object fields => ofFields fields
  | .array items => ofItems items
  | v => Reading.problem (.wrongType v .bloom)

end Bloom

namespace RenderSettings

/-- The render settings that fields say. -/
def ofFields (fields : Fields) : Reading RenderSettings := do
  let bloom ← Field.lookup fields "bloom" default.bloom Bloom.ofValue
  let height ← Field.lookup fields "height" default.height Field.count
  let maxBounces ← Field.lookup fields "maxBounces" default.maxBounces Field.count
  let maxSamples ← Field.lookup fields "maxSamples" default.maxSamples Field.count
  let samplesPerFrame ← Field.lookup fields "samplesPerFrame" default.samplesPerFrame Field.count
  let width ← Field.lookup fields "width" default.width Field.count
  return { width, height, samplesPerFrame, maxSamples, maxBounces, bloom }

end RenderSettings

/-- The name and the version that a scene writes. -/
structure SceneHeader where
  name : Option String
  version : Option String
  deriving DecidableEq, Repr

namespace SceneHeader

/-- A scene that writes neither. -/
def blank : SceneHeader := ⟨none, none⟩

/-- A version is a string, or a number, which stands for its text (`version_text`). -/
def versionText : Value → Reading String
  | .string s => pure s
  | .number n => pure n.print
  | _ => Reading.problem .notVersion

/-- The name and the version that fields say. -/
def ofFields (fields : Fields) : Reading SceneHeader := do
  let name ← Field.lookup fields "name" none (Field.nullable Field.string)
  let version ← Field.lookup fields "version" none (Field.nullable versionText)
  return { name, version }

end SceneHeader

/-! ## Materials -/

/-- The template that a material names. -/
inductive TemplateName where
  | known (t : MaterialTemplate)
  | unknown (tag : String)
  deriving DecidableEq, Repr

namespace TemplateName

/-- A template's tag, or an object with a known tag as its one key and `null` as its value. -/
def ofValue : Value → Reading TemplateName
  | .string tag =>
    pure (match MaterialTemplate.ofTag? tag with
      | some t => known t
      | none => unknown tag)
  | .object [(tag, .null)] =>
    match MaterialTemplate.ofTag? tag with
    | some t => pure (known t)
    | none => Reading.problem .notTemplate
  | _ => Reading.problem .notTemplate

end TemplateName

/-- The name and the template that a material writes. -/
structure MaterialHeader where
  name : Option String
  template : Option TemplateName
  deriving DecidableEq, Repr

namespace MaterialHeader

/-- The name and the template that fields say. -/
def ofFields (fields : Fields) : Reading MaterialHeader := do
  let name ← Field.lookup fields "name" none (Field.nullable Field.string)
  let template ← Field.lookup fields "template" none (Field.nullable TemplateName.ofValue)
  return { name, template }

/-- The name of a material; one that writes none has the empty one. -/
def nameOrEmpty (h : MaterialHeader) : String := h.name.getD ""

/-- The template of a material. An unknown one is a fault, or stands for the default one. -/
def resolve (h : MaterialHeader) (fallback : Bool) : Reading MaterialTemplate :=
  match h.template with
  | none => pure .default
  | some (.known t) => pure t
  | some (.unknown tag) =>
    if fallback then do
      Outcome.emit (.templateReplaced h.nameOrEmpty tag)
      pure .default
    else Reading.within (.key "template") (Reading.problem (.unknownTemplate tag))

end MaterialHeader

namespace MaterialOverrides

/-- The overrides that fields say; a vector that is left aside overrides nothing. -/
def ofFields (fields : Fields) : Reading MaterialOverrides := do
  let vector (key : String) := Field.lookup fields key .none Field.sparseVec3
  let scalar (key : String) := Field.lookup fields key .none (Field.nullable Field.single)
  let absorption ← vector "absorption"
  let albedo ← vector "albedo"
  let clearcoat ← scalar "clearcoat"
  let clearcoatRoughness ← scalar "clearcoatRoughness"
  let emission ← vector "emission"
  let emissionMode ← Field.lookup fields "emissionMode" .none
    (Field.nullable (Field.variant (EmissionMode.all.map (·.tag)) EmissionMode.ofTag?))
  let emissionStrength ← scalar "emissionStrength"
  let ior ← scalar "ior"
  let metallic ← scalar "metallic"
  let roughness ← scalar "roughness"
  let scatteringAnisotropy ← scalar "scatteringAnisotropy"
  let sheen ← scalar "sheen"
  let specular ← scalar "specular"
  let specularTint ← vector "specularTint"
  let subsurface ← scalar "subsurface"
  let subsurfaceRadius ← scalar "subsurfaceRadius"
  let transmission ← scalar "transmission"
  return { albedo, emission, emissionStrength, emissionMode, roughness, metallic, transmission, ior,
           specularTint, specular, clearcoat, clearcoatRoughness, subsurface, absorption, sheen,
           subsurfaceRadius, scatteringAnisotropy }

end MaterialOverrides

namespace Material

/-- The material that an entry says (`SceneParser::parse_material`). -/
def ofFields (fallback : Bool) (fields : Fields) : Reading Material := do
  let header ← MaterialHeader.ofFields fields
  let template ← header.resolve fallback
  let overrides ← MaterialOverrides.ofFields fields
  return { name := header.nameOrEmpty, template, overrides }

end Material

/-! ## Objects -/

namespace Shape

/-- Every tag of a shape, each shape's own before its aliases. -/
def allTags : List String := all.flatMap fun s => s.tag :: s.aliases

end Shape

namespace Geometry

/-- The geometry that an entry says. -/
def ofFields (fields : Fields) : Reading Geometry := do
  let center ← Field.lookup fields "center" default.center (Field.vec3 default.center)
  let distance ← Field.lookup fields "distance" default.distance Field.single
  let height ← Field.lookup fields "height" default.height Field.single
  let normal ← Field.lookup fields "normal" default.normal (Field.vec3 default.normal)
  let radius ← Field.lookup fields "radius" default.radius Field.single
  let rotation ← Field.lookup fields "rotation" default.rotation (Field.vec3 default.rotation)
  let size ← Field.lookup fields "size" default.size (Field.vec3 default.size)
  return { center, radius, normal, distance, rotation, size, height }

end Geometry

namespace SceneObject

/-- The object that an entry says (`parse_object`). -/
def ofFields (fields : Fields) : Reading SceneObject := do
  let isLight ← Field.lookup fields "isLight" false Field.bool
  let material ← Field.lookup fields "material" "" Field.string
  let shape ← Field.lookup fields "type" .sphere (Field.variant Shape.allTags Shape.ofTag?)
  let geometry ← Geometry.ofFields fields
  return { shape, material, isLight, geometry }

end SceneObject

/-! ## Scenes -/

/-- A step towards a scene, or what is wrong with the text. -/
abbrev SceneReading (α : Type) := Outcome SceneFault α

namespace SceneReading

variable {α : Type}

/-- A problem at a path from the root. -/
def problem (path : List PathStep) (p : Problem) : SceneReading α :=
  Outcome.fail ⟨.field path, p⟩

/-- The value at a path, which has to be an object (`deserialize_at`). -/
def object (path : List PathStep) (read : Fields → Reading α) : Value → SceneReading α
  | .object fields =>
    (read fields).mapError fun fault => ⟨.field (path ++ fault.path), fault.problem⟩
  | _ => problem path .notObject

/-- A section, which may be missing or `null` (`section`). -/
def part (root : Fields) (key : String) (absent : α) (read : Fields → Reading α) :
    SceneReading α :=
  match root.get? key with
  | none | some .null => pure absent
  | some v => object [.key key] read v

/-- The items of a list, which may be missing or `null` (`list`). -/
def items (root : Fields) (key : String) : SceneReading (List Value) :=
  match root.get? key with
  | none | some .null => pure []
  | some (.array vs) => pure vs
  | some _ => problem [.key key] .notArray

/-- The objects of a list one after another, the first at position `i`. -/
def entries (key : String) (read : Fields → Reading α) (i : Nat) :
    List Value → SceneReading (List α)
  | [] => pure []
  | v :: rest => do
    let a ← object [.key key, .index i] read v
    let as ← entries key read (i + 1) rest
    return a :: as

end SceneReading

namespace SceneInfo

/-- The name and the version of a scene, with defaults for what it does not write (`parse_info`). -/
def ofHeader (h : SceneHeader) : SceneReading SceneInfo :=
  let version := h.version.getD default.version
  match SchemaVersion.parse? version with
  | some schema => pure { name := h.name.getD default.name, version, schema }
  | none => SceneReading.problem [.key "scene", .key "version"] (.badVersion version)

end SceneInfo

namespace SceneDescription

/-- Read a scene out of the fields of its root. -/
def ofRoot (fallback : Bool) (root : Fields) : SceneReading SceneDescription := do
  let header ← SceneReading.part root "scene" .blank SceneHeader.ofFields
  let info ← SceneInfo.ofHeader header
  let camera ← SceneReading.part root "camera" .default Camera.ofFields
  let sky ← SceneReading.part root "sky" .default Sky.ofFields
  let render ← SceneReading.part root "render" .default RenderSettings.ofFields
  let materialItems ← SceneReading.items root "materials"
  let materials ← SceneReading.entries "materials" (Material.ofFields fallback) 0 materialItems
  let objectItems ← SceneReading.items root "objects"
  let objects ← SceneReading.entries "objects" SceneObject.ofFields 0 objectItems
  Outcome.emit (.described info.name info.schema materials.length objects.length)
  return { info, camera, sky, render, materials, objects }

/-- Read a scene out of a JSON value. -/
def ofJson (fallback : Bool) : Value → SceneReading SceneDescription
  | .object root => ofRoot fallback root
  | _ => Outcome.fail ⟨.root, .rootNotObject⟩

/-- Read a scene out of a text that is free of comments (`SceneParser::parse_stripped`). -/
def ofStripped (fallback : Bool) (text : List Char) : SceneReading SceneDescription :=
  match Json.parse text with
  | .ok v => ofJson fallback v
  | .error fault =>
    let place := Json.Position.ofOffset text fault.offset
    Outcome.fail ⟨.text place, .json fault.kind place⟩

/-- Read a scene out of its text (`SceneParser::parse_str`). With `fallback`, an unknown template
stands for the default (`with_template_fallback`). -/
def parse (fallback : Bool) (text : String) : SceneReading SceneDescription :=
  ofStripped fallback (Comment.strip text.toList)

end SceneDescription

end ScenePack
