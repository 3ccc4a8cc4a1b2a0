import ScenePack.Proofs.Compiled.Assembly
import ScenePack.Proofs.Compiled.Names
import ScenePack.Proofs.Loading
import ScenePack.Proofs.Scene.Log
import ScenePack.Proofs.Validation.Accepted

/-!
# Records stand at their sources' positions

Validation and compilation go through the materials' names apart: one with the set of names so far,
the other with a table of first positions. Of an accepted description the two agree, so that every
object finds its material and no position stands in for a missing one.

Results:
* `mem_materialMissing_iff`: compiling logs a missing material exactly for an object whose material
  no name matches, be the description valid or not.
* `mirrors_of_accepted`: an accepted description is compiled record by record.
* **`records_at_source_positions`**: so it is behind validation, and no compilation that succeeds,
  of a description, a text or a file, logs a missing material.
-/

namespace ScenePack

namespace CompiledScene

open Outcome SceneDescription

/-- Record by record, `c` is what `d` describes. -/
structure Mirrors (c : CompiledScene) (d : SceneDescription) : Prop where
  /-- The layout is the legacy one exactly in major version 0. -/
  layout : c.objects.layout = .legacy ↔ d.info.schema.major = 0
  materials_length : c.materials.length = d.materials.length
  objects_size : c.objects.size = d.objects.length
  /-- Material `j` has record `j`. -/
  material : ∀ j (hj : j < d.materials.length), c.materials[j]? = some d.materials[j].record
  /-- The material that object `k` names stands at one position, and with that position the object
  has record `k`. -/
  object : ∀ k (hk : k < d.objects.length), ∃ j, ∃ hj : j < d.materials.length,
    d.materials[j].name = d.objects[k].material ∧
    (∀ i (hi : i < d.materials.length), d.materials[i].name = d.objects[k].material → i = j) ∧
    c.objects.words[k]? = some (d.objects[k].recordWords (UInt32.ofNat j) c.objects.layout)
  /-- The table gives a name the position of the material that bears it, and no other name any. -/
  names : ∀ n p, c.names.get? n = some p ↔
    ∃ h : p.toNat < d.materials.length, d.materials[p.toNat].name = n
  /-- No position has to stand in for an object's material. -/
  resolved : ∀ o ∈ d.objects, (c.names.get? o.material).isSome

variable {d : SceneDescription} {s : Settings}

/-! ## Accepted descriptions -/

/-- An object that names the material at a position resolves to that position. -/
theorem resolve_namesOf (hnd : (d.materials.map (·.name)).Nodup)
    (hlen : d.materials.length < UInt32.size) {o : SceneObject} {j : Nat}
    (hj : j < d.materials.length) (hname : d.materials[j].name = o.material) :
    resolve (namesOf d) o = UInt32.ofNat j := by
  have hp : (UInt32.ofNat j).toNat = j := UInt32.toNat_ofNat_of_lt' (Nat.lt_trans hj hlen)
  have hget : (namesOf d).get? o.material = some (UInt32.ofNat j) := by
    refine (get?_nameMaterials_iff hnd hlen).mpr ?_
    simp only [hp]
    exact ⟨hj, hname⟩
  rw [resolve, hget, Option.getD_some]

theorem getElem?_words_ofDescription {k : Nat} (hk : k < d.objects.length) :
    (ofDescription d).1.objects.words[k]? = some
      (d.objects[k].recordWords (resolve (namesOf d) d.objects[k]) d.info.schema.layout) := by
  rw [ofDescription_objects, ObjectArray.words_ofPlaced, placed, place, List.map_map,
    List.getElem?_map, List.getElem?_eq_getElem hk]
  rfl

/-- **An accepted description is compiled record by record.** -/
theorem mirrors_of_accepted (hd : d.Accepted s) (hlen : d.materials.length < UInt32.size) :
    (ofDescription d).1.Mirrors d := by
  have hlayout : (ofDescription d).1.objects.layout = d.info.schema.layout := by
    rw [ofDescription_objects, ObjectArray.layout_ofPlaced]
  refine ⟨?_, ?_, ?_, fun j hj => ?_, fun k hk => ?_, fun n p => ?_, fun o ho => ?_⟩
  · rw [hlayout, SchemaVersion.layout_eq_legacy_iff]
  · rw [ofDescription_materials, List.length_map]
  · rw [ofDescription_objects, ObjectArray.size_ofPlaced, placed, place, List.length_map]
  · rw [ofDescription_materials, List.getElem?_map, List.getElem?_eq_getElem hj, Option.map_some]
  · obtain ⟨m, hm, hname⟩ := hd.references _ (List.getElem_mem hk)
    obtain ⟨j, hj, rfl⟩ := List.getElem_of_mem hm
    refine ⟨j, hj, hname, fun i hi hi' => ?_, ?_⟩
    -- no two names are equal, so both positions are the first of the name
    · have hfirst := (findIdx?_name_eq_some_iff hd.names_nodup).mpr ⟨hi, hi'⟩
      rw [(findIdx?_name_eq_some_iff hd.names_nodup).mpr ⟨hj, hname⟩] at hfirst
      exact (Option.some.inj hfirst).symm
    · rw [getElem?_words_ofDescription hk, resolve_namesOf hd.names_nodup hlen hj hname, hlayout]
  · exact get?_nameMaterials_iff hd.names_nodup hlen
  · obtain ⟨m, hm, hname⟩ := hd.references o ho
    rw [Option.isSome_iff_ne_none, ofDescription_names, namesOf, ne_eq,
      get?_nameMaterials_eq_none_iff]
    exact fun h => h m hm hname

/-! ## Missing materials -/

theorem mem_placeLog {e : Event} : ∀ {ms : List Material} {position : Nat},
    e ∈ placeLog position ms → ∃ name template p, e = .materialPlaced name template p
  | [], _, h => absurd h List.not_mem_nil
  | m :: ms, position, h => by
    rcases List.mem_cons.mp h with rfl | h
    · exact ⟨_, _, _, rfl⟩
    · exact mem_placeLog h

theorem mem_materialMissing_resolveLog_iff {names : NameTable} {o : SceneObject} {n : String} :
    .materialMissing n ∈ resolveLog names o ↔ o.material = n ∧ names.get? n = none := by
  unfold resolveLog
  cases h : names.get? o.material with
  | some p =>
    refine ⟨fun h' => absurd h' List.not_mem_nil, fun ⟨hn, hnone⟩ => ?_⟩
    rw [hn, hnone] at h
    exact absurd h nofun
  | none =>
    rw [List.mem_singleton, Event.materialMissing.injEq]
    exact ⟨fun hn => ⟨hn.symm, hn ▸ h⟩, fun hn => hn.1.symm⟩

/-- **A missing material is logged for an object exactly when no name matches it.** -/
theorem mem_materialMissing_iff {n : String} : .materialMissing n ∈ (ofDescription d).2 ↔
    ∃ o ∈ d.objects, o.material = n ∧ ∀ m ∈ d.materials, m.name ≠ n := by
  have hplace : .materialMissing n ∉ placeLog 0 d.materials := fun h => by
    obtain ⟨_, _, _, h⟩ := mem_placeLog h
    exact absurd h nofun
  have hlight (k : Nat) (o : SceneObject) : .materialMissing n ∉ lightLog k o := by
    unfold lightLog
    split <;> simp
  rw [ofDescription_log]
  simp only [List.mem_append, List.mem_cons, List.mem_flatMap, Prod.exists, reduceCtorEq,
    List.not_mem_nil, hplace, hlight, mem_materialMissing_resolveLog_iff, or_false, false_or]
  rw [← get?_nameMaterials_eq_none_iff]
  constructor
  · rintro ⟨o, k, ho, hn⟩
    exact ⟨o, List.fst_mem_of_mem_zipIdx ho, hn⟩
  · rintro ⟨o, ho, hn⟩
    obtain ⟨k, hk, rfl⟩ := List.getElem_of_mem ho
    exact ⟨_, _, List.mk_mem_zipIdx_iff_getElem?.mpr (List.getElem?_eq_getElem hk), hn⟩

theorem materialMissing_not_mem_of_accepted (hd : d.Accepted s) (n : String) :
    .materialMissing n ∉ (ofDescription d).2 := by
  rw [mem_materialMissing_iff]
  rintro ⟨o, ho, rfl, hnone⟩
  obtain ⟨m, hm, hname⟩ := hd.references o ho
  exact hnone m hm hname

/-- **An accepted description is compiled record by record**, each object with the position of the
one material that it names, and no compilation that succeeds logs a missing material. -/
theorem records_at_source_positions :
    (∀ (s : Settings) (d : SceneDescription), d.validate s = .ok () →
      d.materials.length < UInt32.size → (ofDescription d).1.Mirrors d) ∧
    (∀ (s : Settings) (d : SceneDescription) (n : String), (d.compile s).result.isOk →
      .materialMissing n ∉ (d.compile s).log) ∧
    (∀ (s : Settings) (text n : String), (LoadedScene.ofText s text).result.isOk →
      .materialMissing n ∉ (LoadedScene.ofText s text).log) ∧
    ∀ (s : Settings) (path : String) (bytes : Except FileError ByteArray) (n : String),
      (LoadedScene.ofFile s path bytes).result.isOk →
        .materialMissing n ∉ (LoadedScene.ofFile s path bytes).log := by
  refine ⟨fun s d hv => mirrors_of_accepted (validate_eq_ok_iff_accepted.mp hv), fun s d n h => ?_,
    fun s text n h => ?_, fun s path bytes n h => ?_⟩
  · obtain ⟨c, hc⟩ := isOk_iff.mp h
    obtain ⟨hv, -⟩ := SceneDescription.compile_eq_ok_iff.mp hc
    rw [SceneDescription.compile_log_of_ok hv]
    exact materialMissing_not_mem_of_accepted (validate_eq_ok_iff_accepted.mp hv) n
  · obtain ⟨l, hl⟩ := isOk_iff.mp h
    obtain ⟨d, hd, hv, -⟩ := LoadedScene.ofText_eq_ok_iff.mp hl
    rw [LoadedScene.ofText_log_of_ok hd hv, List.mem_append, not_or]
    exact ⟨fun hmem => SceneDescription.parse_reads _ _ _ hmem,
      materialMissing_not_mem_of_accepted (validate_eq_ok_iff_accepted.mp hv) n⟩
  · obtain ⟨l, hl⟩ := isOk_iff.mp h
    obtain ⟨d, hd, hv, -⟩ := LoadedScene.ofFile_eq_ok_iff.mp hl
    rw [LoadedScene.ofFile_log_of_ok hd hv, List.mem_append, not_or]
    exact ⟨fun hmem => SceneDescription.ofFile_reads _ _ _ _ hmem,
      materialMissing_not_mem_of_accepted (validate_eq_ok_iff_accepted.mp hv) n⟩

/-- Two objects whose materials stand the other way around. -/
def crossedScene : SceneDescription where
  info := .default
  camera := .default
  sky := .default
  render := .default
  materials := [⟨"floor", .lambertian, .none⟩, ⟨"ball", .metal, .none⟩]
  objects := [⟨.sphere, "ball", true, .default⟩, ⟨.plane, "floor", false, .default⟩]

/-- The text of a scene of one sphere. -/
def sphereText : String :=
  "\x7b\"materials\":[\x7b\"name\":\"a\"\x7d],\"objects\":[\x7b\"material\":\"a\"\x7d]\x7d"

theorem records_at_source_positions_crossed :
    crossedScene.validate .default = .ok () ∧ (ofDescription crossedScene).1.Mirrors crossedScene ∧
    .materialMissing "ball" ∉ (crossedScene.compile .default).log ∧
    .materialMissing "a" ∉ (LoadedScene.ofText .default sphereText).log ∧
    .materialMissing "a" ∉ (LoadedScene.ofFile .default "a.json" (.ok sphereText.toUTF8)).log := by
  have hvalid : crossedScene.validate .default = .ok () := eq_ok_of_isOk (by decide +kernel)
  exact ⟨hvalid, records_at_source_positions.1 .default _ hvalid (by decide),
    records_at_source_positions.2.1 .default crossedScene "ball" (by decide +kernel),
    records_at_source_positions.2.2.1 .default sphereText "a" (by decide +kernel),
    records_at_source_positions.2.2.2 .default "a.json" _ "a" (by decide +kernel)⟩

end CompiledScene

end ScenePack
