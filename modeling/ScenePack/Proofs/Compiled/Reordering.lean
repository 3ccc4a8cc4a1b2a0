import Mathlib.Data.List.FinRange
import Mathlib.Logic.Equiv.Basic
import ScenePack.Proofs.Compiled.Placement
import ScenePack.Proofs.Object.Run

/-!
# Reordering scenes

Materials and objects are numbered by where they stand. Moving them about moves their records, and
changes nothing in a record but the position of the material; the light list follows the objects,
and stays in order.

* `moved l σ` is the list `l` with the entry at `i` moved to `σ i`; `movedTo σ` is where a position
  moves to. `SceneDescription.reorder` moves the materials and the objects of a description.

Results:
* `exists_getElem_moved_iff`: what is so behind a move was so at a position that moved there.
* `SceneDescription.Accepted.of_perm`: what is accepted is so in any order.
* `SceneObject.recordWords_set`: the position of the material is one word of a record, and goes
  into no other.
* `get?_namesOf_reorder`, `words_ofDescription_reorder`, `lightPositions_moved_perm`: names, records
  and lights after the move.
* **`reordering_reorders`**: a reordered description is accepted as well, and compiled to the
  reordered arrays.
-/

namespace ScenePack

/-! ## Moving entries -/

section Moved

variable {α : Type}

/-- A list with the entry at each position `i` moved to `σ i`. -/
def moved (l : List α) (σ : Equiv.Perm (Fin l.length)) : List α :=
  List.ofFn fun i => l[σ.symm i]

variable {l : List α} (σ : Equiv.Perm (Fin l.length))

theorem length_moved : (moved l σ).length = l.length := List.length_ofFn

theorem getElem_moved {i : Nat} (hi : i < (moved l σ).length) :
    (moved l σ)[i] = l[σ.symm ⟨i, length_moved σ ▸ hi⟩] := List.getElem_ofFn _

/-- An entry is found where it was moved to. -/
theorem getElem?_moved (i : Fin l.length) : (moved l σ)[(σ i).val]? = l[i.val]? := by
  have hi : (σ i).val < (moved l σ).length := by
    rw [length_moved]
    exact (σ i).isLt
  rw [List.getElem?_eq_getElem hi, getElem_moved, List.getElem?_eq_getElem i.isLt]
  simp only [Fin.eta, Equiv.symm_apply_apply, Fin.getElem_fin]

theorem moved_perm : (moved l σ).Perm l := by
  have h : (moved l σ).Perm (List.ofFn fun i : Fin l.length => l[i.val]) :=
    Equiv.Perm.ofFn_comp_perm σ.symm fun i => l[i.val]
  rwa [List.ofFn_getElem] at h

/-- A position of a list that is not too long is its word. -/
theorem toNat_ofNat_fin {n : Nat} (hn : n < UInt32.size) (i : Fin n) : (UInt32.ofNat i).toNat = i :=
  UInt32.toNat_ofNat_of_lt' (Nat.lt_trans i.isLt hn)

/-- Where a position, as a word, moves to. -/
def movedTo {n : Nat} (σ : Equiv.Perm (Fin n)) (p : UInt32) : UInt32 :=
  if h : p.toNat < n then UInt32.ofNat (σ ⟨p.toNat, h⟩) else p

variable {n : Nat} (π : Equiv.Perm (Fin n))

theorem movedTo_ofNat (hn : n < UInt32.size) (i : Fin n) :
    movedTo π (UInt32.ofNat i) = UInt32.ofNat (π i) := by
  unfold movedTo
  simp only [toNat_ofNat_fin hn, i.isLt, dif_pos, Fin.eta]

/-- No two positions move to one. -/
theorem movedTo_inj (hn : n < UInt32.size) {p q : UInt32} (hp : p.toNat < n) (hq : q.toNat < n)
    (h : movedTo π p = movedTo π q) : p = q := by
  unfold movedTo at h
  rw [dif_pos hp, dif_pos hq] at h
  have hmoved := congrArg UInt32.toNat h
  rw [toNat_ofNat_fin hn, toNat_ofNat_fin hn] at hmoved
  have hsame := π.injective (Fin.ext hmoved)
  rw [Fin.mk.injEq] at hsame
  exact UInt32.toNat_inj.mp hsame

/-- **Something is so at a position behind a move iff it was so at a position that moved there.** -/
theorem exists_getElem_moved_iff (hl : l.length < UInt32.size) {P : α → Prop} {q : UInt32} :
    (∃ h : q.toNat < (moved l σ).length, P (moved l σ)[q.toNat]) ↔
      ∃ p, (∃ h : p.toNat < l.length, P l[p.toNat]) ∧ movedTo σ p = q := by
  have hword := toNat_ofNat_fin hl
  constructor
  · rintro ⟨h, hP⟩
    rw [getElem_moved] at hP
    refine ⟨UInt32.ofNat (σ.symm ⟨q.toNat, length_moved σ ▸ h⟩), ?_, ?_⟩
    · simp only [hword]
      exact ⟨Fin.isLt _, hP⟩
    · rw [movedTo_ofNat σ hl, Equiv.apply_symm_apply, UInt32.ofNat_toNat]
  · rintro ⟨p, ⟨h, hP⟩, rfl⟩
    obtain ⟨i, rfl⟩ : ∃ i : Fin l.length, p = UInt32.ofNat i :=
      ⟨⟨p.toNat, h⟩, UInt32.ofNat_toNat.symm⟩
    obtain ⟨hi, hentry⟩ := List.getElem?_eq_some_iff.mp
      ((getElem?_moved σ i).trans (List.getElem?_eq_getElem i.isLt))
    simp only [hword] at hP
    simp only [movedTo_ofNat σ hl, hword, hentry]
    exact ⟨hi, hP⟩

end Moved

/-! ## The word of the material -/

/-- The word of an object's record that holds the position of the material. -/
def ObjectLayout.materialWord : ObjectLayout → Nat
  | .generic => 7
  | .legacy => 4

namespace SceneObject

variable (o : SceneObject) (layout : ObjectLayout) (p q : UInt32)

/-- The position of the material stands there. -/
theorem getElem?_recordWords : (o.recordWords p layout)[layout.materialWord]? =
    some (Single.ofNat p.toNat).bits := by
  cases layout with
  | legacy => rfl
  | generic =>
    unfold recordWords pack
    cases o.shape <;> rfl

/-- **Another position of the material is another word in one place.** -/
theorem recordWords_set : (o.recordWords p layout).set layout.materialWord
    (Single.ofNat q.toNat).bits = o.recordWords q layout := by
  cases layout with
  | legacy =>
    simp only [recordWords, packLegacy, LegacyRecord.words, Slot.words, ObjectLayout.materialWord,
      List.cons_append, List.nil_append, List.set_cons_succ, List.set_cons_zero]
  | generic =>
    unfold recordWords pack
    cases o.shape <;>
      simp only [ObjectRecord.words, Vec3.slot, Slot.words, ObjectLayout.materialWord,
        List.cons_append, List.nil_append, List.set_cons_succ, List.set_cons_zero]

end SceneObject

/-! ## Acceptance -/

namespace SceneDescription

/-- Materials and objects moved about. -/
def reorder (d : SceneDescription) (σ : Equiv.Perm (Fin d.materials.length))
    (τ : Equiv.Perm (Fin d.objects.length)) : SceneDescription :=
  { d with materials := moved d.materials σ, objects := moved d.objects τ }

variable {d e : SceneDescription} {s : Settings}

/-- **What is accepted is so in any order.** -/
theorem Accepted.of_perm (h : d.Accepted s) (hinfo : e.info = d.info)
    (hm : e.materials.Perm d.materials) (ho : e.objects.Perm d.objects) : e.Accepted s where
  materials_ne := fun hnil => h.materials_ne (hnil ▸ hm).symm.eq_nil
  objects_ne := fun hnil => h.objects_ne (hnil ▸ ho).symm.eq_nil
  names_given := fun m hmem => h.names_given m (hm.mem_iff.mp hmem)
  names_nodup := (hm.map _).nodup_iff.mpr h.names_nodup
  references_given := fun o hmem => h.references_given o (ho.mem_iff.mp hmem)
  references := fun o hmem => by
    obtain ⟨m, hmem', hname⟩ := h.references o (ho.mem_iff.mp hmem)
    exact ⟨m, hm.mem_iff.mpr hmem', hname⟩
  geometry := fun o hmem => h.geometry o (ho.mem_iff.mp hmem)
  legacy := fun hmajor o hmem => h.legacy (hinfo ▸ hmajor) o (ho.mem_iff.mp hmem)
  materials_le := hm.length_eq ▸ h.materials_le
  objects_le := ho.length_eq ▸ h.objects_le
  lights_le := by
    have hlit : e.litObjects = d.litObjects := (ho.filter _).length_eq
    exact hlit ▸ h.lights_le

end SceneDescription

/-! ## Compilation -/

namespace CompiledScene

open SceneDescription

/-- **The arrays `c`, compiled of `d`, reordered**: materials by `σ`, objects by `τ`. -/
structure ReorderingOf (c' c : CompiledScene) (d : SceneDescription)
    (σ : Equiv.Perm (Fin d.materials.length)) (τ : Equiv.Perm (Fin d.objects.length)) : Prop where
  layout : c'.objects.layout = c.objects.layout
  materials_length : c'.materials.length = d.materials.length
  objects_size : c'.objects.size = d.objects.length
  /-- Material record `σ j` is the old record `j`. -/
  material : ∀ j : Fin d.materials.length, c'.materials[(σ j).val]? = c.materials[j.val]?
  /-- Object record `τ k` is the old record `k`, but for the position of its material: where that
  was `j`, it is `σ j`. -/
  object : ∀ k : Fin d.objects.length, ∃ (j : Fin d.materials.length) (words : List UInt32),
    c.names.get? d.objects[k].material = some (UInt32.ofNat j) ∧
    c.objects.words[k.val]? = some words ∧
    words[c.objects.layout.materialWord]? = some (Single.ofNat j).bits ∧
    c'.objects.words[(τ k).val]? =
      some (words.set c.objects.layout.materialWord (Single.ofNat (σ j)).bits)
  lights_increasing : c'.lights.toList.Pairwise (· < ·)
  lights : c'.lights.toList.Perm (c.lights.toList.map (movedTo τ))
  names : ∀ n, c'.names.get? n = (c.names.get? n).map (movedTo σ)

variable {d : SceneDescription} {s : Settings} {c : CompiledScene}
  (σ : Equiv.Perm (Fin d.materials.length)) (τ : Equiv.Perm (Fin d.objects.length))

/-- **The table of names** follows the materials. -/
theorem get?_namesOf_reorder (hnd : (d.materials.map (·.name)).Nodup)
    (hlen : d.materials.length < UInt32.size) (n : String) :
    (namesOf (d.reorder σ τ)).get? n = ((namesOf d).get? n).map (movedTo σ) := by
  have hnd' : ((moved d.materials σ).map (·.name)).Nodup :=
    ((moved_perm σ).map _).nodup_iff.mpr hnd
  have hlen' : (moved d.materials σ).length < UInt32.size := by rwa [length_moved]
  refine Option.ext fun q => ?_
  rw [Option.map_eq_some_iff]
  simp only [namesOf, get?_nameMaterials_iff hnd hlen]
  exact (get?_nameMaterials_iff hnd' hlen').trans
    (exists_getElem_moved_iff (P := fun m => m.name = n) σ hlen)

/-- **The light list** holds the positions that lights moved to, again in order. -/
theorem lightPositions_moved_perm (hlen : d.objects.length < UInt32.size) :
    (lightPositions (moved d.objects τ)).Perm
      ((lightPositions d.objects).map (movedTo τ)) := by
  have hlen' : (moved d.objects τ).length < UInt32.size := by rwa [length_moved]
  have hnd : (lightPositions d.objects).Nodup :=
    (pairwise_lightPositions hlen).imp UInt32.ne_of_lt
  have hnd' : (lightPositions (moved d.objects τ)).Nodup :=
    (pairwise_lightPositions hlen').imp UInt32.ne_of_lt
  have hinj : ∀ p ∈ lightPositions d.objects, ∀ q ∈ lightPositions d.objects,
      movedTo τ p = movedTo τ q → p = q := by
    intro p hp q hq
    obtain ⟨hp, -⟩ := (mem_lightPositions_iff hlen).mp hp
    obtain ⟨hq, -⟩ := (mem_lightPositions_iff hlen).mp hq
    exact movedTo_inj τ hlen hp hq
  refine (List.perm_ext_iff_of_nodup hnd' (hnd.map_on hinj)).mpr fun q => ?_
  rw [mem_lightPositions_iff hlen', List.mem_map]
  simp only [mem_lightPositions_iff hlen]
  exact exists_getElem_moved_iff (P := fun o => o.isLight = true ∧ o.shape ≠ .plane) τ hlen

/-- **Records of objects** go with the objects, and point to where their materials went. -/
theorem words_ofDescription_reorder (hd : d.Accepted s) (hlen : d.materials.length < UInt32.size)
    (k : Fin d.objects.length) : ∃ j : Fin d.materials.length,
      (namesOf d).get? d.objects[k].material = some (UInt32.ofNat j) ∧
      (ofDescription d).1.objects.words[k.val]? =
        some (d.objects[k].recordWords (UInt32.ofNat j) d.info.schema.layout) ∧
      (ofDescription (d.reorder σ τ)).1.objects.words[(τ k).val]? =
        some (d.objects[k].recordWords (UInt32.ofNat (σ j)) d.info.schema.layout) := by
  obtain ⟨m, hm, hname⟩ := hd.references _ (List.getElem_mem k.isLt)
  obtain ⟨j, hj, rfl⟩ := List.getElem_of_mem hm
  have hword : (UInt32.ofNat j).toNat = j := toNat_ofNat_fin hlen ⟨j, hj⟩
  have hget : (namesOf d).get? d.objects[k.val].material = some (UInt32.ofNat j) := by
    refine (get?_nameMaterials_iff hd.names_nodup hlen).mpr ?_
    simp only [hword]
    exact ⟨hj, hname⟩
  have hget' : (namesOf (d.reorder σ τ)).get? d.objects[k.val].material =
      some (UInt32.ofNat (σ ⟨j, hj⟩)) := by
    rw [get?_namesOf_reorder σ τ hd.names_nodup hlen, hget, Option.map_some]
    exact congrArg some (movedTo_ofNat σ hlen ⟨j, hj⟩)
  obtain ⟨hk', hobject⟩ := List.getElem?_eq_some_iff.mp
    ((getElem?_moved τ k).trans (List.getElem?_eq_getElem k.isLt))
  have hmoved : (d.reorder σ τ).objects[(τ k).val] = d.objects[k.val] := hobject
  have hlayout : (d.reorder σ τ).info.schema.layout = d.info.schema.layout := rfl
  refine ⟨⟨j, hj⟩, hget, ?_, ?_⟩
  · rw [getElem?_words_ofDescription k.isLt, resolve, hget, Option.getD_some]
    rfl
  · rw [getElem?_words_ofDescription hk', hmoved, hlayout, resolve, hget', Option.getD_some]
    rfl

/-- **Reordering a scene reorders its output and nothing else**: under any order of its materials
and any order of its objects an accepted description stays accepted, and is compiled to the same
arrays, reordered. -/
theorem reordering_reorders (h : (d.compile s).result = .ok c)
    (hmaterials : d.materials.length < UInt32.size) (hobjects : d.objects.length < UInt32.size)
    (σ : Equiv.Perm (Fin d.materials.length)) (τ : Equiv.Perm (Fin d.objects.length)) :
    ∃ c', ((d.reorder σ τ).compile s).result = .ok c' ∧ c'.ReorderingOf c d σ τ := by
  obtain ⟨hvalid, rfl⟩ := SceneDescription.compile_eq_ok_iff.mp h
  have hd := validate_eq_ok_iff_accepted.mp hvalid
  have hd' : (d.reorder σ τ).Accepted s := hd.of_perm rfl (moved_perm σ) (moved_perm τ)
  have hobjects' : (moved d.objects τ).length < UInt32.size := by rwa [length_moved]
  have hlayout : (ofDescription d).1.objects.layout = d.info.schema.layout := by
    rw [ofDescription_objects, ObjectArray.layout_ofPlaced]
  refine ⟨_, SceneDescription.compile_eq_ok_iff.mpr ⟨validate_eq_ok_iff_accepted.mpr hd', rfl⟩, ?_⟩
  constructor
  · rw [hlayout, ofDescription_objects, ObjectArray.layout_ofPlaced]
    rfl
  · rw [ofDescription_materials, List.length_map]
    exact length_moved σ
  · rw [ofDescription_objects, ObjectArray.size_ofPlaced, length_placed]
    exact length_moved τ
  · intro j
    rw [ofDescription_materials, ofDescription_materials, List.getElem?_map, List.getElem?_map,
      ← getElem?_moved σ j]
    rfl
  · intro k
    obtain ⟨j, hname, hold, hnew⟩ := words_ofDescription_reorder σ τ hd hmaterials k
    have hword := toNat_ofNat_fin hmaterials
    refine ⟨j, _, hname, hold, ?_, ?_⟩
    · rw [hlayout, SceneObject.getElem?_recordWords, hword]
    · have hfloat : Single.ofNat (σ j) = Single.ofNat (UInt32.ofNat (σ j)).toNat :=
        congrArg Single.ofNat (hword (σ j)).symm
      rw [hnew, hlayout, hfloat, SceneObject.recordWords_set]
  · rw [ofDescription_lights]
    exact pairwise_lightPositions hobjects'
  · rw [ofDescription_lights, ofDescription_lights]
    exact lightPositions_moved_perm τ hobjects
  · exact get?_namesOf_reorder σ τ hd.names_nodup hmaterials

/-- Two lamps and a floor, each of a material of its own. -/
def stagedScene : SceneDescription where
  info := .default
  camera := .default
  sky := .default
  render := .default
  materials := [⟨"floor", .lambertian, .none⟩, ⟨"red", .emissive, .none⟩, ⟨"blue", .emissive, .none⟩]
  objects := [⟨.sphere, "blue", true, .default⟩, ⟨.box, "red", true, .default⟩,
    ⟨.plane, "floor", false, .default⟩]

theorem reordering_reorders_staged :
    ∃ c c', (stagedScene.compile .default).result = .ok c ∧
      stagedScene.materials.length < UInt32.size ∧ stagedScene.objects.length < UInt32.size ∧
      ((stagedScene.reorder (Equiv.swap ⟨0, by decide⟩ ⟨2, by decide⟩)
        (Equiv.swap ⟨1, by decide⟩ ⟨2, by decide⟩)).compile .default).result = .ok c' ∧
      c'.ReorderingOf c stagedScene (Equiv.swap ⟨0, by decide⟩ ⟨2, by decide⟩)
        (Equiv.swap ⟨1, by decide⟩ ⟨2, by decide⟩) ∧
      c.lights.toList = [0, 1] ∧ c.lights.toList.map (movedTo (Equiv.swap
        (⟨1, by decide⟩ : Fin stagedScene.objects.length) ⟨2, by decide⟩)) = [0, 2] := by
  have hvalid : stagedScene.validate .default = .ok () := Outcome.eq_ok_of_isOk (by decide +kernel)
  have hcompile := SceneDescription.compile_eq_ok_iff.mpr ⟨hvalid, rfl⟩
  obtain ⟨c', hc', hreordered⟩ := reordering_reorders hcompile (by decide) (by decide)
    (Equiv.swap ⟨0, by decide⟩ ⟨2, by decide⟩) (Equiv.swap ⟨1, by decide⟩ ⟨2, by decide⟩)
  exact ⟨_, c', hcompile, by decide, by decide, hc', hreordered, rfl, by decide⟩

end CompiledScene

end ScenePack
