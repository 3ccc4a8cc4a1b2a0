import ScenePack.Proofs.Validation.Order

/-!
# Accepted descriptions

What it means for a description to be accepted, without the order in which the rules are gone
through: `SceneDescription.Accepted` has a field for each stage of validation.

Results:
* `allHold_ofNames_iff`: the rules of names say that names are given and differ.
* `allHold_eachObject_iff`: rules of objects that do not mind the position are rules of every
  member.
* **`validate_eq_ok_iff_accepted`**: a description passes validation iff it is accepted.
-/

namespace ScenePack

open Rule

namespace Rule

/-- Names that each differ from those before them are all different. -/
theorem allHold_ofNames_iff {names : List String} :
    AllHold (ofNames names) ↔ (∀ n ∈ names, n ≠ "") ∧ names.Nodup := by
  have hrules : AllHold (ofNames names) ↔
      ∀ i (hi : i < names.length), names[i] ≠ "" ∧ names[i] ∉ names.take i := by
    simp only [AllHold, ofNames, List.mem_flatMap, Prod.exists, List.mem_zipIdx_iff_getElem?,
      List.getElem?_eq_some_iff]
    constructor
    · intro h i hi
      exact ⟨h _ ⟨names[i], i, ⟨hi, rfl⟩, List.mem_cons_self⟩,
        h _ ⟨names[i], i, ⟨hi, rfl⟩, List.mem_cons_of_mem _ List.mem_cons_self⟩⟩
    · rintro h r ⟨n, i, ⟨hi, hn⟩, hr⟩
      have hrule := h i hi
      rw [hn] at hrule
      rcases List.mem_cons.mp hr with rfl | hr
      · exact hrule.1
      · rw [List.mem_singleton.mp hr]
        exact hrule.2
  rw [hrules, List.Nodup, List.pairwise_iff_getElem]
  constructor
  · refine fun h => ⟨fun n hn => ?_, fun i j hi hj hij heq => ?_⟩
    · obtain ⟨i, hi, rfl⟩ := List.getElem_of_mem hn
      exact (h i hi).1
    · refine (h j hj).2 (List.mem_take_iff_getElem.mpr ⟨i, ?_, heq⟩)
      exact Nat.lt_min.mpr ⟨hij, hi⟩
  · refine fun ⟨hgiven, hdiff⟩ i hi => ⟨hgiven _ (List.getElem_mem hi), fun hmem => ?_⟩
    obtain ⟨j, hj, heq⟩ := List.mem_take_iff_getElem.mp hmem
    obtain ⟨hji, hjl⟩ := Nat.lt_min.mp hj
    exact hdiff j i hjl hi hji heq

/-- Rules of objects that hold or not whatever the position are rules of every member. -/
theorem allHold_eachObject_iff {objects : List SceneObject} {rules : Nat → SceneObject → List Rule}
    (hpos : ∀ j k o, AllHold (rules j o) → AllHold (rules k o)) {index : Nat} :
    AllHold (eachObject objects index rules) ↔ ∀ o ∈ objects, AllHold (rules 0 o) := by
  induction objects generalizing index with
  | nil => exact ⟨fun _ _ ho => absurd ho List.not_mem_nil, fun _ => allHold_nil⟩
  | cons o objects ih =>
    show AllHold (rules index o ++ eachObject objects (index + 1) rules) ↔ _
    rw [allHold_append, ih, List.forall_mem_cons]
    exact and_congr_left fun _ => ⟨hpos index 0 o, hpos 0 index o⟩

theorem allHold_ofGeometry_of_pos {epsilon : Single} (j k : Nat) (o : SceneObject)
    (h : AllHold (ofGeometry epsilon j o)) : AllHold (ofGeometry epsilon k o) := by
  unfold ofGeometry at h ⊢
  cases hs : o.shape <;>
    simpa [hs, allHold_cons, finite, positiveRadius, positiveHeight, positiveSize, longNormal]
      using h

end Rule

/-- **What a description has to be.** -/
structure SceneDescription.Accepted (d : SceneDescription) (s : Settings) : Prop where
  materials_ne : d.materials ≠ []
  objects_ne : d.objects ≠ []
  names_given : ∀ m ∈ d.materials, m.name ≠ ""
  names_nodup : (d.materials.map (·.name)).Nodup
  references_given : ∀ o ∈ d.objects, o.material ≠ ""
  references : ∀ o ∈ d.objects, ∃ m ∈ d.materials, m.name = o.material
  /-- Positions are left out: they are reported, but no rule depends on them. -/
  geometry : ∀ o ∈ d.objects, AllHold (ofGeometry s.planeNormalEpsilon 0 o)
  legacy : d.info.schema.major = 0 → ∀ o ∈ d.objects, o.shape = .sphere ∨ o.shape = .plane
  materials_le : d.materials.length ≤ s.maxMaterials.toNat
  objects_le : d.objects.length ≤ s.maxObjects.toNat
  lights_le : d.litObjects ≤ s.maxLights.toNat

namespace SceneDescription

variable {d : SceneDescription} {s : Settings}

/-- **Validation accepts the accepted descriptions.** -/
theorem validate_eq_ok_iff_accepted : d.validate s = .ok () ↔ d.Accepted s := by
  have hrefs : AllHold (eachObject d.objects 0 (ofReference d.materials)) ↔
      ∀ o ∈ d.objects, o.material ≠ "" ∧ ∃ m ∈ d.materials, m.name = o.material := by
    rw [allHold_eachObject_iff fun j k o => by simp [ofReference, allHold_cons]]
    simp [ofReference, allHold_cons, allHold_nil]
  have hgeom : AllHold (eachObject d.objects 0 (ofGeometry s.planeNormalEpsilon)) ↔
      ∀ o ∈ d.objects, AllHold (ofGeometry s.planeNormalEpsilon 0 o) :=
    allHold_eachObject_iff allHold_ofGeometry_of_pos
  have hlegacy : AllHold (if d.info.schema.major = 0 then eachObject d.objects 0 ofLegacy else []) ↔
      (d.info.schema.major = 0 → ∀ o ∈ d.objects, o.shape = .sphere ∨ o.shape = .plane) := by
    split
    · rename_i h
      rw [allHold_eachObject_iff fun j k o => by simp [ofLegacy, allHold_cons]]
      simp [ofLegacy, allHold_cons, allHold_nil, h]
    · rename_i h
      exact ⟨fun _ h' => absurd h' h, fun _ => allHold_nil⟩
  rw [validate_eq_ok_iff, rules]
  simp only [allHold_cons, allHold_append, allHold_nil, allHold_ofNames_iff, hrefs, hgeom, hlegacy,
    capacity, and_true, List.forall_mem_map]
  constructor
  · rintro ⟨hm, ho, ⟨hgiven, hnd⟩, href, hg, hl, hcm, hco, hcl⟩
    exact ⟨hm, ho, hgiven, hnd, fun o h => (href o h).1, fun o h => (href o h).2, hg, hl, hcm, hco,
      hcl⟩
  · intro h
    exact ⟨h.materials_ne, h.objects_ne, ⟨h.names_given, h.names_nodup⟩,
      fun o ho => ⟨h.references_given o ho, h.references o ho⟩, h.geometry, h.legacy,
      h.materials_le, h.objects_le, h.lights_le⟩

end SceneDescription

end ScenePack
