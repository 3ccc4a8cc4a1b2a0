import ScenePack.Material.Edit

/-!
# Material presets

Every preset is the neutral record with some fields written over. A template is a preset with its
usual arguments, and a material's record is its template's with the overrides laid over it.

* `MaterialRecord.neutral`, `lambertian`, … `darkVoid`: the presets of `MaterialBuilder`.
* `MaterialTemplate.record` is a template's record, `Material.record` a material's, as
  `MaterialFactory` makes them.
-/

namespace ScenePack

namespace MaterialRecord

/-- Neutral grey of medium roughness (`MaterialBuilder::new`). -/
def neutral : MaterialRecord where
  albedo := .replicate 0.5
  padding0 := 0
  emission := .zero
  emissionStrength := 0
  roughness := 0.5
  metallic := 0
  transmission := 0
  ior := 1.45
  specularTint := .replicate 1
  specular := 0.5
  clearcoat := 0
  clearcoatRoughness := 0.03
  subsurface := 0
  emissionModeWord := EmissionMode.physical.word
  absorption := .zero
  sheen := 0
  subsurfaceRadius := 1
  scatteringAnisotropy := 0
  padding1 := 0
  padding2 := 0

/-- A fully rough diffuse surface. -/
def lambertian (albedo : Vec3) : MaterialRecord :=
  { neutral with albedo := albedo, roughness := 1 }

/-- A conductor; without roughness it is a mirror. -/
def metal (albedo : Vec3) (roughness : Single) : MaterialRecord :=
  { neutral with albedo := albedo, roughness := roughness, metallic := 1 }

/-- Clear glass. -/
def dielectric (ior : Single) : MaterialRecord :=
  { neutral with albedo := .replicate 1, roughness := 0, transmission := 1, ior := ior }

/-- A source of light. -/
def emissive (color : Vec3) (strength : Single) : MaterialRecord :=
  { neutral with emission := color, emissionStrength := strength, albedo := .zero, roughness := 1 }

/-- A glossy plastic. -/
def plastic (albedo : Vec3) (roughness : Single) : MaterialRecord :=
  { neutral with albedo := albedo, roughness := roughness }

/-- A rough fabric with a strong sheen. -/
def velvet (albedo : Vec3) (sheen : Single) : MaterialRecord :=
  { neutral with albedo := albedo, roughness := 1, sheen := sheen, specular := 0.1 }

/-- A smooth fabric with some sheen. -/
def satin (albedo : Vec3) : MaterialRecord :=
  { neutral with albedo := albedo, roughness := 0.35, sheen := 0.5, specular := 0.6 }

/-- A diffuse base below a glossy coat (`clearcoat_material`). -/
def coated (albedo : Vec3) (amount : Single) : MaterialRecord :=
  { neutral with albedo := albedo, roughness := 0.6, clearcoat := amount, ior := 1.5 }

/-- Glass that takes the complement of a tint out of the light on its way (`colored_glass`). -/
def tintedGlass (tint : Vec3) (ior density : Single) : MaterialRecord :=
  { neutral with
    albedo := .replicate 1
    roughness := 0
    transmission := 1
    ior := ior
    absorption := (tint.map fun c => (1 - c).max 0).scale density }

/-- A volume that tints what shines through it. -/
def colorFilter (tint : Vec3) (strength : Single) : MaterialRecord :=
  { neutral with
    emission := tint
    emissionStrength := strength
    emissionModeWord := EmissionMode.absolute.word
    albedo := .zero }

/-- A volume that swallows light. -/
def darkVoid (strength : Single) : MaterialRecord :=
  { neutral with
    emissionStrength := strength
    emissionModeWord := EmissionMode.absolute.word
    albedo := .zero }

end MaterialRecord

/-- The record of a template (`MaterialFactory::from_template`). -/
def MaterialTemplate.record (t : MaterialTemplate) : MaterialRecord :=
  let grey := Vec3.replicate 0.5
  let white := Vec3.replicate 1
  match t with
  | default => .neutral
  | lambertian => .lambertian grey
  | metal => .metal grey 0
  | dielectric => .dielectric 1.5
  | emissive => .emissive white 1
  | plastic => .plastic grey 0.5
  | velvet => .velvet grey 1
  | satin => .satin grey
  | clearcoat => .coated grey 0.5
  | glass => .tintedGlass white 1.5 2
  | colorFilter => .colorFilter white 0.5
  | darkVoid => .darkVoid 0.9

/-- The record of a material (`MaterialFactory::build_material`). -/
def Material.record (m : Material) : MaterialRecord := m.template.record.overlay m.overrides

end ScenePack
