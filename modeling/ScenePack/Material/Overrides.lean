import ScenePack.Vec3

/-!
# Materials as they are described

A material names a template and overrides some of its seventeen fields. What is not overridden
stays as the template has it, so an override that is not written is kept apart from one that
repeats the template's value.
-/

namespace ScenePack

/-- The presets that a material can start from (`MaterialTemplate`). -/
inductive MaterialTemplate where
  | default
  | lambertian
  | metal
  | dielectric
  | emissive
  | plastic
  | velvet
  | satin
  | clearcoat
  | glass
  | colorFilter
  | darkVoid
  deriving DecidableEq, Repr, Inhabited

namespace MaterialTemplate

/-- All templates, in the order in which they are listed (`MaterialTemplate::ALL`). -/
def all : List MaterialTemplate :=
  [default, lambertian, metal, dielectric, emissive, plastic, velvet, satin, clearcoat, glass,
   colorFilter, darkVoid]

/-- The tag of a template in scene text (`MaterialTemplate::as_str`). -/
def tag : MaterialTemplate → String
  | default => "default"
  | lambertian => "lambertian"
  | metal => "metal"
  | dielectric => "dielectric"
  | emissive => "emissive"
  | plastic => "plastic"
  | velvet => "velvet"
  | satin => "satin"
  | clearcoat => "clearcoat"
  | glass => "glass"
  | colorFilter => "color-filter"
  | darkVoid => "dark-void"

/-- Other tags under which a template is known. -/
def aliases : MaterialTemplate → List String
  | glass => ["colored-glass", "colored_glass"]
  | colorFilter => ["color_filter"]
  | darkVoid => ["dark_void"]
  | _ => []

/-- The template of a tag. -/
def ofTag? (tag : String) : Option MaterialTemplate :=
  all.find? fun t => t.tag = tag || t.aliases.contains tag

end MaterialTemplate

/-- How the emission of a material meets the light that falls on it. -/
inductive EmissionMode where
  /-- It is added. -/
  | physical
  /-- It is multiplied. -/
  | absolute
  deriving DecidableEq, Repr, Inhabited

namespace EmissionMode

def all : List EmissionMode := [physical, absolute]

/-- The tag of a mode in scene text. -/
def tag : EmissionMode → String
  | physical => "physical"
  | absolute => "absolute"

/-- The mode of a tag. -/
def ofTag? (tag : String) : Option EmissionMode := all.find? fun m => m.tag = tag

/-- The word of a mode in records. -/
def word : EmissionMode → UInt32
  | physical => 0
  | absolute => 1

/-- The mode of a record's word: every word but one is the additive mode. -/
def ofWord (w : UInt32) : EmissionMode := if w = 1 then absolute else physical

end EmissionMode

/-- The fields of a material that a scene writes itself (`MaterialOverrides`). -/
structure MaterialOverrides where
  albedo : Option Vec3
  emission : Option Vec3
  emissionStrength : Option Single
  emissionMode : Option EmissionMode
  roughness : Option Single
  metallic : Option Single
  transmission : Option Single
  ior : Option Single
  specularTint : Option Vec3
  specular : Option Single
  clearcoat : Option Single
  clearcoatRoughness : Option Single
  subsurface : Option Single
  absorption : Option Vec3
  sheen : Option Single
  subsurfaceRadius : Option Single
  scatteringAnisotropy : Option Single
  deriving DecidableEq, BEq, Repr, Inhabited

namespace MaterialOverrides

/-- Nothing is overridden. -/
def none : MaterialOverrides :=
  { albedo := .none, emission := .none, emissionStrength := .none, emissionMode := .none,
    roughness := .none, metallic := .none, transmission := .none, ior := .none,
    specularTint := .none, specular := .none, clearcoat := .none, clearcoatRoughness := .none,
    subsurface := .none, absorption := .none, sheen := .none, subsurfaceRadius := .none,
    scatteringAnisotropy := .none }

end MaterialOverrides

/-- A material of a scene (`MaterialDescription`). -/
structure Material where
  name : String
  template : MaterialTemplate
  overrides : MaterialOverrides
  deriving DecidableEq, BEq, Repr, Inhabited

end ScenePack
