import ScenePack.Material.Overrides

/-!
# Material records

A material is uploaded as 28 words: five colours and vectors padded to slots, and the scalars
between them. `words` is the record in upload order and `ofWords?` reads it back.
-/

namespace ScenePack

/-- The record of a material (`CompiledMaterial`). The emission mode is a word of its own; every
other word is a single. -/
structure MaterialRecord where
  albedo : Vec3
  padding0 : Single
  emission : Vec3
  emissionStrength : Single
  roughness : Single
  metallic : Single
  transmission : Single
  ior : Single
  specularTint : Vec3
  specular : Single
  clearcoat : Single
  clearcoatRoughness : Single
  subsurface : Single
  emissionModeWord : UInt32
  absorption : Vec3
  sheen : Single
  subsurfaceRadius : Single
  scatteringAnisotropy : Single
  padding1 : Single
  padding2 : Single
  deriving DecidableEq, BEq, Repr

namespace MaterialRecord

/-- The size of a record in bytes (`CompiledMaterial::SIZE`). -/
def stride : Nat := 112

/-- The emission mode of the record's word (`CompiledMaterial::emission_mode`). -/
def emissionMode (m : MaterialRecord) : EmissionMode := .ofWord m.emissionModeWord

/-- The words of a record in upload order. -/
def words (m : MaterialRecord) : List UInt32 :=
  m.albedo.words ++ [m.padding0.bits] ++ m.emission.words
    ++ [m.emissionStrength.bits, m.roughness.bits, m.metallic.bits, m.transmission.bits, m.ior.bits]
    ++ m.specularTint.words
    ++ [m.specular.bits, m.clearcoat.bits, m.clearcoatRoughness.bits, m.subsurface.bits,
        m.emissionModeWord]
    ++ m.absorption.words
    ++ [m.sheen.bits, m.subsurfaceRadius.bits, m.scatteringAnisotropy.bits, m.padding1.bits,
        m.padding2.bits]

/-- The record of 28 words. -/
def ofWords? : List UInt32 → Option MaterialRecord
  | [a0, a1, a2, p0, e0, e1, e2, strength, rough, metallic, clear, ior, t0, t1, t2, spec, coat,
      coatRough, sub, mode, b0, b1, b2, sheen, radius, aniso, p1, p2] =>
    some
      { albedo := ⟨⟨a0⟩, ⟨a1⟩, ⟨a2⟩⟩
        padding0 := ⟨p0⟩
        emission := ⟨⟨e0⟩, ⟨e1⟩, ⟨e2⟩⟩
        emissionStrength := ⟨strength⟩
        roughness := ⟨rough⟩
        metallic := ⟨metallic⟩
        transmission := ⟨clear⟩
        ior := ⟨ior⟩
        specularTint := ⟨⟨t0⟩, ⟨t1⟩, ⟨t2⟩⟩
        specular := ⟨spec⟩
        clearcoat := ⟨coat⟩
        clearcoatRoughness := ⟨coatRough⟩
        subsurface := ⟨sub⟩
        emissionModeWord := mode
        absorption := ⟨⟨b0⟩, ⟨b1⟩, ⟨b2⟩⟩
        sheen := ⟨sheen⟩
        subsurfaceRadius := ⟨radius⟩
        scatteringAnisotropy := ⟨aniso⟩
        padding1 := ⟨p1⟩
        padding2 := ⟨p2⟩ }
  | _ => none

end MaterialRecord

end ScenePack
