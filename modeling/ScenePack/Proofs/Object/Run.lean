import Mathlib.Data.List.Pairwise
import ScenePack.Proofs.Compiled.Assembly
import ScenePack.Proofs.Outcome
import ScenePack.Proofs.Validation.Accepted

/-!
# Runs of pushes

Packing appends: to the records always, to the light list when the object can be one. After any run
both lists are therefore known by the objects alone, the records one by one and the light list as
the positions of the lights in ascending order. Positions are written with 32 bits, so a run must
not have more objects than there are such words.

Results:
* `extends_push`: a push changes nothing that is there.
* **`pushAll_ofPlaced`**: what a run comes to, wherever it starts.
* `lightPositions_eq`, `mem_lightPositions_iff`, `pairwise_lightPositions`: the light list as the
  positions of the objects that can be lights.
* **`packsInOrder`**: a run from the start, seen from outside.
* `withinLimits_of_accepted`: validation counts what is then written.
* **`pushes_pack_in_order`**: the three together.
-/

namespace ScenePack

/-! ## Positions as words -/

section Words

variable {ks : List Nat}

/-- Positions that fit a word are told apart by their words. -/
theorem mem_map_ofNat_iff (h : ∀ k ∈ ks, k < UInt32.size) {p : UInt32} :
    p ∈ ks.map UInt32.ofNat ↔ p.toNat ∈ ks := by
  rw [List.mem_map]
  constructor
  · rintro ⟨k, hk, rfl⟩
    rwa [UInt32.toNat_ofNat_of_lt' (h k hk)]
  · intro hp
    exact ⟨p.toNat, hp, UInt32.ofNat_toNat⟩

/-- Positions that fit a word keep their order as words. -/
theorem pairwise_map_ofNat (h : ∀ k ∈ ks, k < UInt32.size) (hks : ks.Pairwise (· < ·)) :
    (ks.map UInt32.ofNat).Pairwise (· < ·) := by
  rw [List.pairwise_map]
  refine hks.imp_of_mem fun {i j} hi hj hij => ?_
  rw [UInt32.lt_iff_toNat_lt, UInt32.toNat_ofNat_of_lt' (h i hi),
    UInt32.toNat_ofNat_of_lt' (h j hj)]
  exact hij

end Words

/-! ## Lights among objects -/

/-- Whether an object is marked as a light but cannot be one. -/
def SceneObject.isLitPlane (o : SceneObject) : Bool := o.isLight && o.shape = .plane

theorem SceneObject.isLightSource_iff (o : SceneObject) :
    o.isLightSource = true ↔ o.isLight = true ∧ o.shape ≠ .plane := by
  simp [isLightSource]

theorem SceneObject.isLitPlane_iff (o : SceneObject) :
    o.isLitPlane = true ↔ o.isLight = true ∧ o.shape = .plane := by
  simp [isLitPlane]

/-- **The light list is the list of the lights' positions.** -/
theorem lightPositions_eq (objects : List SceneObject) :
    lightPositions objects = (objects.findIdxs (·.isLightSource)).map UInt32.ofNat := by
  have hfrom (start : Nat) :
      ((objects.zipIdx start).filter (·.1.isLightSource)).map (·.2) =
        objects.findIdxs (·.isLightSource) start := by
    induction objects generalizing start with
    | nil => rfl
    | cons o objects ih =>
      rw [List.zipIdx_cons, List.findIdxs_cons, List.filter_cons]
      cases o.isLightSource with
      | true => exact congrArg (start :: ·) (ih (start + 1))
      | false => exact ih (start + 1)
  rw [← hfrom 0, List.map_map]
  rfl

section Lights

variable {objects : List SceneObject} (hlen : objects.length < UInt32.size)

include hlen

theorem lt_of_mem_findIdxs {p : SceneObject → Bool} :
    ∀ k ∈ objects.findIdxs p, k < UInt32.size := by
  intro k hk
  obtain ⟨hlt, -⟩ := List.mem_findIdxs_iff_exists_getElem_pos.mp hk
  exact Nat.lt_trans hlt hlen

/-- The light list holds the positions of the objects that are marked as lights and are no
planes. -/
theorem mem_lightPositions_iff {p : UInt32} : p ∈ lightPositions objects ↔
    ∃ h : p.toNat < objects.length, objects[p.toNat].isLight = true ∧
      objects[p.toNat].shape ≠ .plane := by
  rw [lightPositions_eq, mem_map_ofNat_iff (lt_of_mem_findIdxs hlen),
    List.mem_findIdxs_iff_exists_getElem_pos]
  exact exists_congr fun _ => SceneObject.isLightSource_iff _

theorem pairwise_lightPositions : (lightPositions objects).Pairwise (· < ·) := by
  rw [lightPositions_eq]
  exact pairwise_map_ofNat (lt_of_mem_findIdxs hlen) List.pairwise_findIdxs

end Lights

theorem length_lightPositions (objects : List SceneObject) :
    (lightPositions objects).length = objects.countP (·.isLightSource) := by
  rw [lightPositions_eq, List.length_map, List.length_findIdxs]

/-! ## Pushes -/

namespace ObjectAssembly

variable {layout : ObjectLayout} {placed : List (SceneObject × UInt32)}

/-- `b` has all that `a` has, at the same positions. -/
structure Extends (b a : ObjectAssembly) : Prop where
  layout : b.objects.layout = a.objects.layout
  records : a.objects.words <+: b.objects.words
  lights : a.lights.toList <+: b.lights.toList

/-- **A push changes nothing that is there.** -/
theorem extends_push (a : ObjectAssembly) (o : SceneObject) (material : UInt32) :
    (a.push o material).Extends a where
  layout := by
    unfold push
    cases a.objects <;> rfl
  records := by
    unfold push
    cases a.objects with
    | generic records => simp [ObjectArray.push, ObjectArray.words]
    | legacy records => simp [ObjectArray.push, ObjectArray.words]
  lights := by
    unfold push
    cases o.isLightSource with
    | true => simp
    | false => simp

theorem next_ofPlaced (placed : List (SceneObject × UInt32)) (layout : ObjectLayout) :
    (ofPlaced placed layout).next = placed.length :=
  ObjectArray.size_ofPlaced placed layout

/-- **What a run comes to**, wherever it starts: the positions from there on, all objects before and
in it, and a warning for each plane in it that is marked as a light. -/
theorem pushAll_ofPlaced (layout : ObjectLayout) :
    ∀ before placed : List (SceneObject × UInt32), (ofPlaced before layout).pushAll placed =
      { positions := List.range' before.length placed.length
        assembly := ofPlaced (before ++ placed) layout
        log := (placed.findIdxs (·.1.isLitPlane) before.length).map .planeLight }
  | before, [] => by
    rw [List.append_nil]
    rfl
  | before, (o, material) :: placed => by
    have hnext := next_ofPlaced before layout
    have hlog : (ofPlaced before layout).pushLog o =
        if o.isLitPlane then [.planeLight before.length] else [] := by
      unfold pushLog SceneObject.isLitPlane
      rw [← hnext]
      rfl
    have ih := pushAll_ofPlaced layout (before ++ [(o, material)]) placed
    rw [List.append_assoc, List.length_append] at ih
    unfold pushAll
    rw [push_ofPlaced, ih, hnext, hlog, List.findIdxs_cons]
    cases o.isLitPlane with
    | true => rfl
    | false => rfl

theorem pushAll_start (layout : ObjectLayout) (placed : List (SceneObject × UInt32)) :
    (start layout).pushAll placed =
      { positions := List.range placed.length
        assembly := ofPlaced placed layout
        log := (placed.findIdxs (·.1.isLitPlane)).map .planeLight } := by
  rw [start_eq_ofPlaced, pushAll_ofPlaced, List.range_eq_range']
  rfl

/-- One object more is one push more. -/
theorem pushAll_take_succ {i : Nat} (hi : i < placed.length) :
    ((start layout).pushAll (placed.take (i + 1))).assembly =
      ((start layout).pushAll (placed.take i)).assembly.push placed[i].1 placed[i].2 := by
  rw [pushAll_start, pushAll_start, push_ofPlaced, List.take_succ_eq_append_getElem hi]

/-- A run from the start packs its objects in order. -/
structure PacksInOrder (layout : ObjectLayout) (placed : List (SceneObject × UInt32))
    (run : Run) : Prop where
  /-- Push `i` answers `i`. -/
  positions : ∀ i < placed.length, run.positions[i]? = some i
  positions_length : run.positions.length = placed.length
  /-- Push `i` changes nothing that the pushes before it left. -/
  keeps : ∀ i < placed.length, ((start layout).pushAll (placed.take (i + 1))).assembly.Extends
    ((start layout).pushAll (placed.take i)).assembly
  /-- The records are those of the objects, in order and in the layout. -/
  objects : run.assembly.objects = .ofPlaced placed layout
  lights_ascending : run.assembly.lights.toList.Pairwise (· < ·)
  /-- The lights are the objects that are marked as such, but for planes. -/
  mem_lights : ∀ p, p ∈ run.assembly.lights.toList ↔ ∃ h : p.toNat < placed.length,
    placed[p.toNat].1.isLight = true ∧ placed[p.toNat].1.shape ≠ .plane
  lights_valid : ∀ p ∈ run.assembly.lights.toList, p.toNat < run.assembly.objects.size
  /-- Each plane that is marked as a light is logged once, by its position. -/
  log : ∃ planes : List Nat, run.log = planes.map .planeLight ∧ planes.Pairwise (· < ·) ∧
    ∀ k, k ∈ planes ↔ ∃ h : k < placed.length,
      placed[k].1.isLight = true ∧ placed[k].1.shape = .plane

/-- **Every run that is short enough packs its objects in order.** -/
theorem packsInOrder (hlen : placed.length < UInt32.size) :
    PacksInOrder layout placed ((start layout).pushAll placed) := by
  have hobjects : (placed.map (·.1)).length < UInt32.size := by rwa [List.length_map]
  have hmem (p : UInt32) : p ∈ (lightPositions (placed.map (·.1))).toArray.toList ↔
      ∃ h : p.toNat < placed.length, placed[p.toNat].1.isLight = true ∧
        placed[p.toNat].1.shape ≠ .plane := by
    rw [List.toList_toArray, mem_lightPositions_iff hobjects]
    simp only [List.length_map, List.getElem_map]
  have hkeeps (i : Nat) (hi : i < placed.length) :
      ((start layout).pushAll (placed.take (i + 1))).assembly.Extends
        ((start layout).pushAll (placed.take i)).assembly := by
    rw [pushAll_take_succ hi]
    exact extends_push _ _ _
  rw [pushAll_start]
  refine ⟨fun i hi => ?_, List.length_range, hkeeps, rfl, ?_, hmem, fun p hp => ?_, ?_⟩
  · exact List.getElem?_range hi
  · exact pairwise_lightPositions hobjects
  · obtain ⟨hlt, -⟩ := (hmem p).mp hp
    show p.toNat < (ObjectArray.ofPlaced placed layout).size
    rwa [ObjectArray.size_ofPlaced]
  · refine ⟨placed.findIdxs (·.1.isLitPlane), rfl, List.pairwise_findIdxs, fun k => ?_⟩
    rw [List.mem_findIdxs_iff_exists_getElem_pos]
    exact exists_congr fun _ => SceneObject.isLitPlane_iff _

end ObjectAssembly

/-! ## Descriptions -/

namespace CompiledScene

open ObjectAssembly

variable {d : SceneDescription} {s : Settings}

/-- The object pass is a run of pushes. -/
theorem pushAll_placed (d : SceneDescription) :
    ((start d.info.schema.layout).pushAll (placed d)).assembly =
      ⟨(ofDescription d).1.objects, (ofDescription d).1.lights⟩ := by
  rw [pushAll_start, ofDescription_objects, ofDescription_lights, ← map_fst_placed]
  rfl

theorem length_placed (d : SceneDescription) : (placed d).length = d.objects.length :=
  List.length_map _

/-- No array is longer than its limit. -/
structure WithinLimits (c : CompiledScene) (s : Settings) : Prop where
  lights : c.lights.size ≤ s.maxLights.toNat
  objects : c.objects.size ≤ s.maxObjects.toNat
  materials : c.materials.length ≤ s.maxMaterials.toNat

/-- **Validation counts what is then written**: its lights are those of the light list. -/
theorem withinLimits_of_accepted (hd : d.Accepted s) : (ofDescription d).1.WithinLimits s where
  lights := by
    have hcount : (ofDescription d).1.lights.size = d.litObjects := by
      rw [ofDescription_lights, List.size_toArray, length_lightPositions]
      exact d.lightCount_eq_litObjects
    rw [hcount]
    exact hd.lights_le
  objects := by
    rw [ofDescription_objects, ObjectArray.size_ofPlaced, length_placed]
    exact hd.objects_le
  materials := by
    rw [ofDescription_materials, List.length_map]
    exact hd.materials_le

/-- **Pushes pack in order.** Whatever is pushed, each push answers the next position and keeps what
is there, and what is left at the end is told by the objects alone. So the light list of a
description holds valid positions, and an accepted description stays within the limits. -/
theorem pushes_pack_in_order :
    (∀ (layout : ObjectLayout) (placed : List (SceneObject × UInt32)),
      placed.length < UInt32.size →
        PacksInOrder layout placed ((start layout).pushAll placed)) ∧
    (∀ d : SceneDescription, d.objects.length < UInt32.size →
      ∀ p ∈ (ofDescription d).1.lights.toList, p.toNat < (ofDescription d).1.objects.size) ∧
    ∀ (s : Settings) (d : SceneDescription), d.validate s = .ok () →
      (ofDescription d).1.WithinLimits s := by
  refine ⟨fun layout placed hlen => packsInOrder hlen, fun d hlen => ?_, fun s d hv => ?_⟩
  · have hrun : PacksInOrder d.info.schema.layout (placed d) _ :=
      packsInOrder (by rwa [length_placed])
    have hvalid := hrun.lights_valid
    rw [pushAll_placed] at hvalid
    exact hvalid
  · exact withinLimits_of_accepted (SceneDescription.validate_eq_ok_iff_accepted.mp hv)

/-- A lamp, a floor that is marked as a light, and a lamp again. -/
def litScene : SceneDescription where
  info := .default
  camera := .default
  sky := .default
  render := .default
  materials := [⟨"m", .emissive, .none⟩]
  objects := [⟨.sphere, "m", true, .default⟩, ⟨.plane, "m", true, .default⟩,
    ⟨.box, "m", true, .default⟩]

theorem pushes_pack_in_order_lit :
    PacksInOrder .legacy (placed litScene) ((start .legacy).pushAll (placed litScene)) ∧
    (ofDescription litScene).1.lights.toList = [0, 2] ∧
    (∀ p ∈ (ofDescription litScene).1.lights.toList,
      p.toNat < (ofDescription litScene).1.objects.size) ∧
    litScene.validate .default = .ok () ∧ (ofDescription litScene).1.WithinLimits .default := by
  have hvalid : litScene.validate .default = .ok () := Outcome.eq_ok_of_isOk (by decide +kernel)
  exact ⟨pushes_pack_in_order.1 .legacy (placed litScene) (by decide), by decide,
    pushes_pack_in_order.2.1 litScene (by decide), hvalid,
    pushes_pack_in_order.2.2 .default litScene hvalid⟩

end CompiledScene

end ScenePack
