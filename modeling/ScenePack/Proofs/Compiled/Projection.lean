import ScenePack.Proofs.Compiled.Assembly
import ScenePack.Proofs.Outcome
import ScenePack.Proofs.Validation.Accepted

/-!
# Legacy scenes are projections of generic ones

The two packers are written apart, and split the shapes in different ways. Still a legacy record
says nothing that the generic record of the same object does not say: it keeps the first slot and
the last words of the second and third. So changing the version of a scene to a legacy one changes
its compilation by that projection and by nothing else.

Results:
* `toLegacy_pack`: packing for a legacy scene is packing and then projecting, for every shape and
  any geometry.
* `toLegacy_ofPlaced`: so it is for the object pass as a whole.
* `SameButVersion.projects`: the compilations of a description in two versions.
* `SameButVersion.validate_iff`: what a legacy version rules out is the shapes without a legacy
  record, and nothing else.
* **`legacy_projects_generic`**: the three together.
-/

namespace ScenePack

/-! ## Records -/

/-- What the two-slot record keeps of a four-slot record. -/
def ObjectRecord.toLegacy (r : ObjectRecord) : LegacyRecord where
  bounds := r.bounds
  kind := ⟨r.rotation.w, r.scale.w, 0, 0⟩

theorem ObjectRecord.words_toLegacy (r : ObjectRecord) :
    r.toLegacy.words = r.bounds.words ++ [r.rotation.w.bits, r.scale.w.bits, 0, 0] := rfl

/-- **The legacy record is the projection of the generic one.** -/
theorem SceneObject.toLegacy_pack (o : SceneObject) (material : UInt32) :
    (o.pack material).toLegacy = o.packLegacy material := by
  unfold pack packLegacy
  cases o.shape <;> rfl

/-! ## Arrays -/

namespace ObjectArray

/-- The array of projected records. -/
def toLegacy : ObjectArray → ObjectArray
  | generic records => legacy (records.map (·.toLegacy))
  | legacy records => legacy records

/-- The array of objects in the legacy layout is the projection of that in the generic one. -/
theorem toLegacy_ofPlaced (placed : List (SceneObject × UInt32)) :
    (ofPlaced placed .generic).toLegacy = ofPlaced placed .legacy := by
  simp only [ofPlaced, toLegacy, List.map_toArray, List.map_map, Function.comp_def,
    SceneObject.toLegacy_pack]

end ObjectArray

/-! ## Scenes -/

/-- `c` is `g` with its records projected. -/
structure CompiledScene.ProjectionOf (c g : CompiledScene) : Prop where
  materials : c.materials = g.materials
  lights : c.lights = g.lights
  names : c.names = g.names
  /-- Record by record, the one is the projection of the other. -/
  objects : ∃ records, g.objects = .generic records ∧
    c.objects = .legacy (records.map (·.toLegacy))

namespace SceneDescription

/-- Two descriptions with the same materials and objects, the first in a legacy version. -/
structure SameButVersion (d e : SceneDescription) : Prop where
  materials : d.materials = e.materials
  objects : d.objects = e.objects
  legacy : d.info.schema.major = 0
  generic : e.info.schema.major ≠ 0

namespace SameButVersion

variable {d e : SceneDescription}

theorem layouts (h : d.SameButVersion e) :
    d.info.schema.layout = .legacy ∧ e.info.schema.layout = .generic :=
  ⟨if_pos h.legacy, if_neg h.generic⟩

/-- **A legacy scene is compiled to the projection of the generic one.** -/
theorem projects (h : d.SameButVersion e) :
    (CompiledScene.ofDescription d).1.ProjectionOf (CompiledScene.ofDescription e).1 := by
  have hnames : CompiledScene.namesOf d = CompiledScene.namesOf e := by
    rw [CompiledScene.namesOf, h.materials, CompiledScene.namesOf]
  have hplaced : CompiledScene.placed d = CompiledScene.placed e := by
    rw [CompiledScene.placed, hnames, h.objects, CompiledScene.placed]
  refine ⟨?_, ?_, hnames, ?_⟩
  · rw [CompiledScene.ofDescription_materials, h.materials, CompiledScene.ofDescription_materials]
  · rw [CompiledScene.ofDescription_lights, h.objects, CompiledScene.ofDescription_lights]
  · rw [CompiledScene.ofDescription_objects, CompiledScene.ofDescription_objects, h.layouts.1,
      h.layouts.2, hplaced]
    exact ⟨_, rfl, (ObjectArray.toLegacy_ofPlaced _).symm⟩

/-- **A legacy version rules out shapes without a legacy record**, and nothing else. -/
theorem validate_iff (h : d.SameButVersion e) (s : Settings) : d.validate s = .ok () ↔
    e.validate s = .ok () ∧ ∀ o ∈ e.objects, o.shape = .sphere ∨ o.shape = .plane := by
  have hlit : d.litObjects = e.litObjects := by rw [litObjects, h.objects, litObjects]
  rw [validate_eq_ok_iff_accepted, validate_eq_ok_iff_accepted]
  constructor
  · intro hd
    rw [← h.objects]
    refine ⟨?_, hd.legacy h.legacy⟩
    obtain ⟨hm, ho, hgiven, hnd, hrg, href, hg, -, hcm, hco, hcl⟩ := hd
    rw [h.materials] at hm hgiven hnd href hcm
    rw [h.objects] at ho hrg href hg hco
    rw [hlit] at hcl
    exact ⟨hm, ho, hgiven, hnd, hrg, href, hg, fun he => absurd he h.generic, hcm, hco, hcl⟩
  · rintro ⟨⟨hm, ho, hgiven, hnd, hrg, href, hg, -, hcm, hco, hcl⟩, hshapes⟩
    rw [← h.materials] at hm hgiven hnd href hcm
    rw [← h.objects] at ho hrg href hg hco hshapes
    rw [← hlit] at hcl
    exact ⟨hm, ho, hgiven, hnd, hrg, href, hg, fun _ => hshapes, hcm, hco, hcl⟩

end SameButVersion

/-- **Legacy compilation is generic compilation, projected**: word for word for every object and
every position of its material, and so for two versions of a description; and whatever is accepted
in a legacy version is accepted in the other. -/
theorem legacy_projects_generic :
    (∀ (o : SceneObject) (material : UInt32), (o.packLegacy material).words =
      (o.pack material).bounds.words ++
        [(o.pack material).rotation.w.bits, (o.pack material).scale.w.bits, 0, 0]) ∧
    ∀ d e : SceneDescription, d.SameButVersion e →
      (CompiledScene.ofDescription d).1.ProjectionOf (CompiledScene.ofDescription e).1 ∧
      ∀ s, d.validate s = .ok () → e.validate s = .ok () := by
  refine ⟨fun o material => ?_, fun d e h => ⟨h.projects, fun s hd => ?_⟩⟩
  · rw [← o.toLegacy_pack, ObjectRecord.words_toLegacy]
  · exact ((h.validate_iff s).mp hd).1

/-- A lamp above a floor, in a version. -/
def lampScene (schema : SchemaVersion) : SceneDescription where
  info := { SceneInfo.default with schema := schema }
  camera := .default
  sky := .default
  render := .default
  materials := [⟨"floor", .lambertian, .none⟩, ⟨"lamp", .emissive, .none⟩]
  objects := [⟨.plane, "floor", false, .default⟩, ⟨.sphere, "lamp", true, .default⟩]

theorem legacy_projects_generic_lamp :
    (lampScene ⟨0, 9⟩).SameButVersion (lampScene ⟨1, 0⟩) ∧
    (lampScene ⟨0, 9⟩).validate .default = .ok () ∧
    (CompiledScene.ofDescription (lampScene ⟨0, 9⟩)).1.ProjectionOf
      (CompiledScene.ofDescription (lampScene ⟨1, 0⟩)).1 ∧
    (lampScene ⟨1, 0⟩).validate .default = .ok () := by
  have hsame : (lampScene ⟨0, 9⟩).SameButVersion (lampScene ⟨1, 0⟩) := ⟨rfl, rfl, rfl, by decide⟩
  have hvalid : (lampScene ⟨0, 9⟩).validate .default = .ok () :=
    Outcome.eq_ok_of_isOk (by decide +kernel)
  obtain ⟨hprojects, haccepts⟩ := legacy_projects_generic.2 _ _ hsame
  exact ⟨hsame, hvalid, hprojects, haccepts _ hvalid⟩

end SceneDescription

end ScenePack
