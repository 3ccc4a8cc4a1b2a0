import ScenePack.Material.Record

/-!
# Editing material records

A record is changed in steps: `edit` writes one field, `overlay` writes the fields that overrides
hold. A step leaves all other fields and the padding as they are.

* `edit` is any setter of `MaterialBuilder`, `overlay` is `MaterialFactory::overlay`.
* `apply` takes either kind of step, `applyAll` a run of them.
-/

namespace ScenePack

/-- One field of a material and a value for it: a call of one of `MaterialBuilder`'s setters. -/
inductive MaterialEdit where
  | albedo (color : Vec3)
  | emission (color : Vec3)
  | emissionStrength (strength : Single)
  | emissionMode (mode : EmissionMode)
  | roughness (amount : Single)
  | metallic (amount : Single)
  | transmission (amount : Single)
  | ior (index : Single)
  | specularTint (color : Vec3)
  | specular (strength : Single)
  | clearcoat (amount : Single)
  | clearcoatRoughness (amount : Single)
  | subsurface (amount : Single)
  | absorption (coefficients : Vec3)
  | sheen (amount : Single)
  | subsurfaceRadius (radius : Single)
  | scatteringAnisotropy (asymmetry : Single)
  deriving DecidableEq, Repr

/-- One step of editing a record. -/
inductive MaterialStep where
  | edit (e : MaterialEdit)
  | overlay (o : MaterialOverrides)
  deriving DecidableEq, Repr

namespace MaterialRecord

/-- Write one field. -/
def edit (m : MaterialRecord) : MaterialEdit → MaterialRecord
  | .albedo v => { m with albedo := v }
  | .emission v => { m with emission := v }
  | .emissionStrength s => { m with emissionStrength := s }
  | .emissionMode mode => { m with emissionModeWord := mode.word }
  | .roughness s => { m with roughness := s }
  | .metallic s => { m with metallic := s }
  | .transmission s => { m with transmission := s }
  | .ior s => { m with ior := s }
  | .specularTint v => { m with specularTint := v }
  | .specular s => { m with specular := s }
  | .clearcoat s => { m with clearcoat := s }
  | .clearcoatRoughness s => { m with clearcoatRoughness := s }
  | .subsurface s => { m with subsurface := s }
  | .absorption v => { m with absorption := v }
  | .sheen s => { m with sheen := s }
  | .subsurfaceRadius s => { m with subsurfaceRadius := s }
  | .scatteringAnisotropy s => { m with scatteringAnisotropy := s }

/-- Write the fields that are overridden; the others and the padding stay
(`MaterialFactory::overlay`). -/
def overlay (m : MaterialRecord) (o : MaterialOverrides) : MaterialRecord where
  albedo := o.albedo.getD m.albedo
  padding0 := m.padding0
  emission := o.emission.getD m.emission
  emissionStrength := o.emissionStrength.getD m.emissionStrength
  roughness := o.roughness.getD m.roughness
  metallic := o.metallic.getD m.metallic
  transmission := o.transmission.getD m.transmission
  ior := o.ior.getD m.ior
  specularTint := o.specularTint.getD m.specularTint
  specular := o.specular.getD m.specular
  clearcoat := o.clearcoat.getD m.clearcoat
  clearcoatRoughness := o.clearcoatRoughness.getD m.clearcoatRoughness
  subsurface := o.subsurface.getD m.subsurface
  emissionModeWord := (o.emissionMode.map (·.word)).getD m.emissionModeWord
  absorption := o.absorption.getD m.absorption
  sheen := o.sheen.getD m.sheen
  subsurfaceRadius := o.subsurfaceRadius.getD m.subsurfaceRadius
  scatteringAnisotropy := o.scatteringAnisotropy.getD m.scatteringAnisotropy
  padding1 := m.padding1
  padding2 := m.padding2

/-- Take one step. -/
def apply (m : MaterialRecord) : MaterialStep → MaterialRecord
  | .edit e => m.edit e
  | .overlay o => m.overlay o

/-- Take steps one after another. -/
def applyAll (m : MaterialRecord) (steps : List MaterialStep) : MaterialRecord :=
  steps.foldl apply m

end MaterialRecord

end ScenePack
