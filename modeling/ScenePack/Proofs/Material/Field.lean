import ScenePack.Material.Preset
import ScenePack.Proofs.Binary.Bytes

/-!
# The fields of a material

A field of a material goes by several names: a key in scene text, a component of the overrides, a
component of the record, and a place in the record's bytes. `MaterialField` ties them together, so
that what is true of every field is said once.

Results:
* **`words_overlay`**: overrides write the fields that they hold, and keep all others.
* **`itemsAt_words`**, `itemsAt_bytes`: every field has its place in a record.
* `mem_words_record_iff`: the words of a record are those of its fields and of its padding.
* `padding_record`, `itemsAt_padding`: the padding between the fields is zero, and overrides keep it
  so.
* `offset_cover`: there is nothing in a record but fields and padding.
-/

namespace ScenePack

/-- The fields of a material that can be overridden (those of `MaterialOverrides`). -/
inductive MaterialField where
  | albedo
  | emission
  | emissionStrength
  | emissionMode
  | roughness
  | metallic
  | transmission
  | ior
  | specularTint
  | specular
  | clearcoat
  | clearcoatRoughness
  | subsurface
  | absorption
  | sheen
  | subsurfaceRadius
  | scatteringAnisotropy
  deriving DecidableEq, Repr

/-- What a field holds. -/
inductive FieldKind where
  | vector
  | scalar
  | mode
  deriving DecidableEq, Repr

/-- The number of words of a field. -/
def FieldKind.width : FieldKind → Nat
  | vector => 3
  | scalar | mode => 1

namespace MaterialField

/-- All fields, in the order in which they are declared. -/
def all : List MaterialField :=
  [albedo, emission, emissionStrength, emissionMode, roughness, metallic, transmission, ior,
   specularTint, specular, clearcoat, clearcoatRoughness, subsurface, absorption, sheen,
   subsurfaceRadius, scatteringAnisotropy]

theorem mem_all (f : MaterialField) : f ∈ all := by cases f <;> decide

/-- The key of a field in scene text. -/
def key : MaterialField → String
  | albedo => "albedo"
  | emission => "emission"
  | emissionStrength => "emissionStrength"
  | emissionMode => "emissionMode"
  | roughness => "roughness"
  | metallic => "metallic"
  | transmission => "transmission"
  | ior => "ior"
  | specularTint => "specularTint"
  | specular => "specular"
  | clearcoat => "clearcoat"
  | clearcoatRoughness => "clearcoatRoughness"
  | subsurface => "subsurface"
  | absorption => "absorption"
  | sheen => "sheen"
  | subsurfaceRadius => "subsurfaceRadius"
  | scatteringAnisotropy => "scatteringAnisotropy"

def kind : MaterialField → FieldKind
  | albedo | emission | specularTint | absorption => .vector
  | emissionMode => .mode
  | _ => .scalar

/-- The place of a field in the bytes of a record (`CompiledMaterial`). -/
def offset : MaterialField → Nat
  | albedo => 0
  | emission => 16
  | emissionStrength => 28
  | roughness => 32
  | metallic => 36
  | transmission => 40
  | ior => 44
  | specularTint => 48
  | specular => 60
  | clearcoat => 64
  | clearcoatRoughness => 68
  | subsurface => 72
  | emissionMode => 76
  | absorption => 80
  | sheen => 92
  | subsurfaceRadius => 96
  | scatteringAnisotropy => 100

/-- The number of bytes of a field. -/
def size (f : MaterialField) : Nat := 4 * f.kind.width

/-- The words of a field of a record. -/
def words (m : MaterialRecord) : MaterialField → List UInt32
  | albedo => m.albedo.words
  | emission => m.emission.words
  | emissionStrength => [m.emissionStrength.bits]
  | emissionMode => [m.emissionModeWord]
  | roughness => [m.roughness.bits]
  | metallic => [m.metallic.bits]
  | transmission => [m.transmission.bits]
  | ior => [m.ior.bits]
  | specularTint => m.specularTint.words
  | specular => [m.specular.bits]
  | clearcoat => [m.clearcoat.bits]
  | clearcoatRoughness => [m.clearcoatRoughness.bits]
  | subsurface => [m.subsurface.bits]
  | absorption => m.absorption.words
  | sheen => [m.sheen.bits]
  | subsurfaceRadius => [m.subsurfaceRadius.bits]
  | scatteringAnisotropy => [m.scatteringAnisotropy.bits]

/-- The words that overrides write to a field, if they do. -/
def written (o : MaterialOverrides) : MaterialField → Option (List UInt32)
  | albedo => o.albedo.map (·.words)
  | emission => o.emission.map (·.words)
  | emissionStrength => o.emissionStrength.map ([·.bits])
  | emissionMode => (o.emissionMode.map (·.word)).map ([·])
  | roughness => o.roughness.map ([·.bits])
  | metallic => o.metallic.map ([·.bits])
  | transmission => o.transmission.map ([·.bits])
  | ior => o.ior.map ([·.bits])
  | specularTint => o.specularTint.map (·.words)
  | specular => o.specular.map ([·.bits])
  | clearcoat => o.clearcoat.map ([·.bits])
  | clearcoatRoughness => o.clearcoatRoughness.map ([·.bits])
  | subsurface => o.subsurface.map ([·.bits])
  | absorption => o.absorption.map (·.words)
  | sheen => o.sheen.map ([·.bits])
  | subsurfaceRadius => o.subsurfaceRadius.map ([·.bits])
  | scatteringAnisotropy => o.scatteringAnisotropy.map ([·.bits])

/-- **Overrides write the fields that they hold**, and keep all others. -/
theorem words_overlay (m : MaterialRecord) (o : MaterialOverrides) (f : MaterialField) :
    f.words (m.overlay o) = (f.written o).getD (f.words m) := by
  cases f <;> simp only [words, written, MaterialRecord.overlay, Option.getD_map]

/-! ## Places -/

/-- **Every field has its place** among the words of a record. -/
theorem itemsAt_words (m : MaterialRecord) (f : MaterialField) :
    itemsAt m.words (f.offset / 4) f.kind.width = f.words m := by
  cases f <;> rfl

/-- **The words of a record are those of its fields and of its padding.** -/
theorem mem_words_record_iff {m : MaterialRecord} {w : UInt32} : w ∈ m.words ↔
    (∃ f : MaterialField, w ∈ f.words m) ∨
      w ∈ [m.padding0.bits, m.padding1.bits, m.padding2.bits] := by
  constructor
  · intro hw
    have hwords : m.words = albedo.words m ++ [m.padding0.bits] ++
        [emission, emissionStrength, roughness, metallic, transmission, ior, specularTint, specular,
          clearcoat, clearcoatRoughness, subsurface, emissionMode, absorption, sheen,
          subsurfaceRadius, scatteringAnisotropy].flatMap (·.words m) ++
        [m.padding1.bits, m.padding2.bits] := rfl
    rw [hwords, List.mem_append, List.mem_append, List.mem_append, List.mem_flatMap] at hw
    rcases hw with ((hw | hw) | ⟨f, -, hw⟩) | hw
    · exact .inl ⟨_, hw⟩
    · exact .inr (List.mem_cons.mpr (.inl (List.mem_singleton.mp hw)))
    · exact .inl ⟨f, hw⟩
    · exact .inr (List.mem_cons_of_mem _ hw)
  · rintro (⟨f, hw⟩ | hw)
    · rw [← f.itemsAt_words] at hw
      exact List.mem_of_mem_drop (List.mem_of_mem_take hw)
    · simp only [List.mem_cons, List.not_mem_nil, or_false] at hw
      rcases hw with rfl | rfl | rfl <;> simp [MaterialRecord.words]

theorem four_mul_offset_div (f : MaterialField) : 4 * (f.offset / 4) = f.offset := by
  cases f <;> rfl

theorem offset_add_size_le (f : MaterialField) : f.offset + f.size ≤ MaterialRecord.stride := by
  cases f <;> decide

end MaterialField

namespace MaterialRecord

/-- The bytes of a record. -/
def bytes (m : MaterialRecord) : List UInt8 := m.words.flatMap wordBytes

theorem length_bytes (m : MaterialRecord) : m.bytes.length = stride := by
  rw [bytes, length_flatMap_block length_wordBytes]
  rfl

/-- **Every field has its place** among the bytes of a record. -/
theorem itemsAt_bytes (m : MaterialRecord) (f : MaterialField) :
    itemsAt m.bytes f.offset f.size = (f.words m).flatMap wordBytes := by
  rw [bytes, ← f.four_mul_offset_div, MaterialField.size, itemsAt_flatMap_wordBytes,
    f.itemsAt_words]

/-- The places of the padding in the bytes of a record. -/
def paddingOffsets : List Nat := [12, 104, 108]

theorem paddingOffsets_add_le : ∀ p ∈ paddingOffsets, p + 4 ≤ stride := by decide

/-- The padding of a record is zero. -/
def PaddingZero (m : MaterialRecord) : Prop :=
  m.padding0 = 0 ∧ m.padding1 = 0 ∧ m.padding2 = 0

theorem itemsAt_padding {m : MaterialRecord} (h : m.PaddingZero) {p : Nat}
    (hp : p ∈ paddingOffsets) : itemsAt m.bytes p 4 = [0, 0, 0, 0] := by
  have hplace : 4 * (p / 4) = p := by
    revert p
    decide
  have hword : itemsAt m.words (p / 4) 1 = [0] := by
    obtain ⟨h0, h1, h2⟩ := h
    simp only [paddingOffsets, List.mem_cons, List.not_mem_nil, or_false] at hp
    rcases hp with rfl | rfl | rfl
    · exact congrArg (fun s : Single => [s.bits]) h0
    · exact congrArg (fun s : Single => [s.bits]) h1
    · exact congrArg (fun s : Single => [s.bits]) h2
  rw [bytes, ← hplace, itemsAt_flatMap_wordBytes m.words (p / 4) 1, hword]
  rfl

/-- **There is nothing in a record but fields and padding.** -/
theorem offset_cover : ∀ k < stride,
    (∃ f ∈ MaterialField.all, f.offset ≤ k ∧ k < f.offset + f.size) ∨
      ∃ p ∈ paddingOffsets, p ≤ k ∧ k < p + 4 := by
  decide

end MaterialRecord

/-! ## Templates and materials -/

theorem MaterialTemplate.paddingZero_record (t : MaterialTemplate) : t.record.PaddingZero := by
  cases t <;> exact ⟨rfl, rfl, rfl⟩

theorem Material.paddingZero_record (m : Material) : m.record.PaddingZero :=
  m.template.paddingZero_record

end ScenePack
