import ScenePack.Proofs.Compiled.Assembly
import ScenePack.Proofs.Compiled.Names
import ScenePack.Proofs.Scene.Floats

/-!
# The words of a compiled scene

Records copy the floats of a description or compute with them: a box is halved, a radius is a length,
indices are rounded. None of that makes a NaN out of numbers that are none, not even out of
infinities, and there is nothing else in a record. So a description without NaNs compiles to
records without NaNs, whether it is valid or not, and a compiled scene without NaNs equals itself.

Results:
* `SceneObject.nanFree_recordWords`, `Material.nanFree_record`: the words of one record.
* `CompiledScene.beq_self`: a compiled scene without NaNs equals itself.
* **`no_nan_authored`**: neither a description that is read nor what it compiles to has a NaN.
-/

namespace ScenePack

/-! ## Records -/

theorem Slot.nanFree_words_iff {s : Slot} : NaNFree (s.words.map .mk) ↔
    s.x.isNaN = false ∧ s.y.isNaN = false ∧ s.z.isNaN = false ∧ s.w.isNaN = false := by
  simp [words]

theorem Vec3.nanFree_slot {v : Vec3} {w : Single} (hv : NaNFree v.floats) (hw : w.isNaN = false) :
    NaNFree ((v.slot w).words.map .mk) := by
  obtain ⟨hx, hy, hz⟩ := nanFree_floats_iff.mp hv
  exact Slot.nanFree_words_iff.mpr ⟨hx, hy, hz, hw⟩

namespace Shape

variable {g : Geometry}

/-- Half of a box is the one extent that is not a copy. -/
theorem nanFree_extents (shape : Shape) (hg : NaNFree g.floats) :
    NaNFree (shape.extents g).floats := by
  obtain ⟨-, hradius, -, -, -, hsize, hheight⟩ := Geometry.nanFree_floats_iff.mp hg
  unfold extents
  -- a box; a cylinder, a cone and a prism; a plane; the shapes with a radius alone
  split
  · exact Vec3.nanFree_scale hsize (by decide)
  · exact Vec3.nanFree_floats_iff.mpr ⟨hradius, hheight, hradius⟩
  · exact Vec3.nanFree_floats_iff.mpr ⟨hradius, hheight, hradius⟩
  · exact Vec3.nanFree_floats_iff.mpr ⟨hradius, hheight, hradius⟩
  · decide
  all_goals exact Vec3.nanFree_floats_iff.mpr ⟨hradius, hradius, hradius⟩

theorem isNaN_boundingRadius (shape : Shape) {extents : Vec3} (h : NaNFree extents.floats) :
    (shape.boundingRadius extents).isNaN = false := by
  unfold boundingRadius
  split
  · exact (Vec3.nanFree_floats_iff.mp h).1
  · exact Vec3.isNaN_norm h

end Shape

namespace SceneObject

variable {o : SceneObject}

theorem nanFree_pack (ho : NaNFree o.geometry.floats) (material : UInt32) :
    NaNFree ((o.pack material).words.map .mk) := by
  have hextents := o.shape.nanFree_extents ho
  have hradius := o.shape.isNaN_boundingRadius hextents
  have hmaterial : (Single.ofNat material.toNat).isNaN = false := Single.isNaN_ofNat _
  have hid : (Single.ofNat o.shape.id).isNaN = false := Single.isNaN_ofNat _
  have hzero : NaNFree Vec3.zero.floats := by decide
  have hreserved : NaNFree (Slot.zero.words.map .mk) := by decide
  obtain ⟨hcenter, -, hnormal, hdistance, hrotation, -⟩ := Geometry.nanFree_floats_iff.mp ho
  unfold pack ObjectRecord.words
  dsimp only
  split
  · simp only [List.map_append, NaNFree.append_iff]
    exact ⟨⟨⟨Vec3.nanFree_slot hnormal hdistance, Vec3.nanFree_slot hzero hmaterial⟩,
      Vec3.nanFree_slot hzero hid⟩, hreserved⟩
  · simp only [List.map_append, NaNFree.append_iff]
    exact ⟨⟨⟨Vec3.nanFree_slot hcenter hradius, Vec3.nanFree_slot hrotation hmaterial⟩,
      Vec3.nanFree_slot hextents hid⟩, hreserved⟩

theorem nanFree_packLegacy (ho : NaNFree o.geometry.floats) (material : UInt32) :
    NaNFree ((o.packLegacy material).words.map .mk) := by
  have hextents := o.shape.nanFree_extents ho
  have hradius := o.shape.isNaN_boundingRadius hextents
  have hmaterial : (Single.ofNat material.toNat).isNaN = false := Single.isNaN_ofNat _
  have hid : (Single.ofNat o.shape.id).isNaN = false := Single.isNaN_ofNat _
  obtain ⟨hcenter, hball, hnormal, hdistance, -⟩ := Geometry.nanFree_floats_iff.mp ho
  unfold packLegacy LegacyRecord.words
  rw [List.map_append, NaNFree.append_iff]
  refine ⟨?_, Slot.nanFree_words_iff.mpr
    ⟨hmaterial, hid, Single.isNaN_zero, Single.isNaN_zero⟩⟩
  dsimp only
  split
  · exact Vec3.nanFree_slot hnormal hdistance
  · exact Vec3.nanFree_slot hcenter hball
  · exact Vec3.nanFree_slot hcenter hradius

/-- **The record of an object has no NaN** if its geometry has none. -/
theorem nanFree_recordWords (ho : NaNFree o.geometry.floats) (material : UInt32)
    (layout : ObjectLayout) : NaNFree ((o.recordWords material layout).map .mk) := by
  cases layout with
  | generic => exact nanFree_pack ho material
  | legacy => exact nanFree_packLegacy ho material

end SceneObject

/-- No template has a NaN in a field. -/
theorem MaterialTemplate.nanFree_record (t : MaterialTemplate) :
    ∀ f ∈ MaterialField.all, NaNFree ((f.words t.record).map .mk) := by
  cases t <;> decide

/-- **The record of a material has no NaN** if its overrides have none. -/
theorem Material.nanFree_record {m : Material} (h : NaNFree m.overrides.floats) :
    NaNFree (m.record.words.map .mk) := by
  have hfield (f : MaterialField) : NaNFree ((f.words m.record).map .mk) := by
    rw [record, f.words_overlay]
    cases hws : f.written m.overrides with
    | none => exact m.template.nanFree_record f f.mem_all
    | some ws => exact MaterialOverrides.nanFree_floats_iff.mp h f ws hws
  obtain ⟨h0, h1, h2⟩ := m.paddingZero_record
  intro x hx
  obtain ⟨w, hw, rfl⟩ := List.mem_map.mp hx
  rcases MaterialField.mem_words_record_iff.mp hw with ⟨f, hf⟩ | hpadding
  · exact hfield f _ (List.mem_map_of_mem hf)
  · rw [h0, h1, h2] at hpadding
    simp only [List.mem_cons, List.not_mem_nil, or_false, or_self] at hpadding
    rw [hpadding]
    exact Single.isNaN_zero

/-! ## Equality -/

theorem Slot.beq_self {s : Slot} (h : NaNFree (s.words.map .mk)) : (s == s) = true := by
  show (_ && (_ && (_ && _))) = true
  simp only [Bool.and_eq_true, Single.beq_self_iff]
  exact nanFree_words_iff.mp h

theorem ObjectRecord.beq_self {r : ObjectRecord} (h : NaNFree (r.words.map .mk)) :
    (r == r) = true := by
  simp only [words, List.map_append, NaNFree.append_iff] at h
  obtain ⟨⟨⟨hbounds, hrotation⟩, hscale⟩, hreserved⟩ := h
  show (_ && (_ && (_ && _))) = true
  simp only [Bool.and_eq_true]
  exact ⟨Slot.beq_self hbounds, Slot.beq_self hrotation, Slot.beq_self hscale,
    Slot.beq_self hreserved⟩

theorem LegacyRecord.beq_self {r : LegacyRecord} (h : NaNFree (r.words.map .mk)) :
    (r == r) = true := by
  simp only [words, List.map_append, NaNFree.append_iff] at h
  show (_ && _) = true
  rw [Slot.beq_self h.1, Slot.beq_self h.2, Bool.and_self]

theorem ObjectArray.beq_self {a : ObjectArray}
    (h : ∀ record ∈ a.words, NaNFree (record.map .mk)) : (a == a) = true := by
  cases a with
  | generic records =>
    show (records == records) = true
    rw [← Array.beq_toList]
    exact list_beq_self fun r hr => ObjectRecord.beq_self (h _ (List.mem_map_of_mem hr))
  | legacy records =>
    show (records == records) = true
    rw [← Array.beq_toList]
    exact list_beq_self fun r hr => LegacyRecord.beq_self (h _ (List.mem_map_of_mem hr))

theorem MaterialRecord.beq_self {m : MaterialRecord} (h : NaNFree (m.words.map .mk)) :
    (m == m) = true := by
  have hword {w : UInt32} (hw : w ∈ m.words) : (Single.mk w).isNaN = false :=
    h _ (List.mem_map_of_mem hw)
  have hfield (f : MaterialField) : NaNFree ((f.words m).map .mk) := by
    intro x hx
    obtain ⟨w, hw, rfl⟩ := List.mem_map.mp hx
    exact hword (MaterialField.mem_words_record_iff.mpr (.inl ⟨f, hw⟩))
  have vector (f : MaterialField) {v : Vec3} (hv : f.words m = v.words) : (v == v) = true := by
    have hf := hfield f
    rw [hv] at hf
    exact Vec3.beq_self_iff.mpr hf
  have scalar (f : MaterialField) {x : Single} (hx : f.words m = [x.bits]) : (x == x) = true := by
    have hf := hfield f
    rw [hx] at hf
    exact Single.beq_self_iff.mpr (NaNFree.cons_iff.mp hf).1
  have padding {x : Single}
      (hx : x.bits ∈ [m.padding0.bits, m.padding1.bits, m.padding2.bits]) : (x == x) = true :=
    Single.beq_self_iff.mpr (hword (MaterialField.mem_words_record_iff.mpr (.inr hx)))
  show (_ && (_ && (_ && (_ && (_ && (_ && (_ && (_ && (_ && (_ && (_ && (_ && (_ && (_ && (_ &&
    (_ && (_ && (_ && (_ && _))))))))))))))))))) = true
  simp only [Bool.and_eq_true]
  exact ⟨vector .albedo rfl, padding (by simp), vector .emission rfl, scalar .emissionStrength rfl,
    scalar .roughness rfl, scalar .metallic rfl, scalar .transmission rfl, scalar .ior rfl,
    vector .specularTint rfl, scalar .specular rfl, scalar .clearcoat rfl,
    scalar .clearcoatRoughness rfl, scalar .subsurface rfl, beq_self_eq_true _,
    vector .absorption rfl, scalar .sheen rfl, scalar .subsurfaceRadius rfl,
    scalar .scatteringAnisotropy rfl, padding (by simp), padding (by simp)⟩

namespace CompiledScene

variable {c : CompiledScene}

/-- **A compiled scene without NaNs equals itself**, if its table is consistent. -/
theorem beq_self (hobjects : ∀ record ∈ c.objects.words, NaNFree (record.map .mk))
    (hmaterials : ∀ m ∈ c.materials, NaNFree (m.words.map .mk)) (hnames : c.names.Consistent) :
    (c == c) = true := by
  show (_ && (_ && (_ && _))) = true
  simp only [Bool.and_eq_true]
  exact ⟨ObjectArray.beq_self hobjects,
    list_beq_self fun m hm => MaterialRecord.beq_self (hmaterials m hm), beq_self_eq_true _,
    hnames.beq_self⟩

end CompiledScene

namespace SceneDescription

open CompiledScene

variable {d : SceneDescription}

theorem nanFree_objects (h : NaNFree d.floats) :
    ∀ record ∈ (ofDescription d).1.objects.words, NaNFree (record.map .mk) := by
  obtain ⟨-, -, -, -, hgeometries⟩ := nanFree_floats_iff.mp h
  intro record hrecord
  rw [ofDescription_objects, ObjectArray.words_ofPlaced, placed, place, List.map_map] at hrecord
  obtain ⟨o, ho, rfl⟩ := List.mem_map.mp hrecord
  exact SceneObject.nanFree_recordWords (hgeometries o ho) _ _

theorem nanFree_materials (h : NaNFree d.floats) :
    ∀ m ∈ (ofDescription d).1.materials, NaNFree (m.words.map .mk) := by
  obtain ⟨-, -, -, hoverrides, -⟩ := nanFree_floats_iff.mp h
  intro r hr
  obtain ⟨m, hm, rfl⟩ := List.mem_map.mp hr
  exact Material.nanFree_record (hoverrides m hm)

/-- **No NaN can be authored**: with fallback or without, no float of a description that is read is
one, and no word of the records that it compiles to, valid or not. So both equal themselves. -/
theorem no_nan_authored (fallback : Bool) (text : String) (d : SceneDescription)
    (h : (parse fallback text).result = .ok d) :
    NaNFree d.floats ∧
    (∀ record ∈ (ofDescription d).1.objects.words, NaNFree (record.map Single.mk)) ∧
    (∀ m ∈ (ofDescription d).1.materials, NaNFree (m.words.map Single.mk)) ∧
    (d == d) = true ∧ ((ofDescription d).1 == (ofDescription d).1) = true := by
  have hfloats : NaNFree d.floats := nanFree_of_parse h
  have hobjects := nanFree_objects hfloats
  have hmaterials := nanFree_materials hfloats
  have hnames : (ofDescription d).1.names.Consistent :=
    consistent_nameMaterials d.materials 0 NameTable.consistent_empty
  exact ⟨hfloats, hobjects, hmaterials, beq_self hfloats,
    CompiledScene.beq_self hobjects hmaterials hnames⟩

/-- The text of a scene whose numbers are too large for a single, with either sign. -/
def overflowingText : String :=
  "\x7b\"materials\":[\x7b\"ior\":1e39\x7d],
\"objects\":[\x7b\"type\":\"box\",\"size\":[1e39,-0.0,-1e39]\x7d]\x7d"

theorem no_nan_authored_overflowing : ∃ d, (parse false overflowingText).result = .ok d ∧
    (∃ x ∈ d.floats, x.isFinite = false) ∧ NaNFree d.floats ∧
    (∀ record ∈ (ofDescription d).1.objects.words, NaNFree (record.map Single.mk)) ∧
    (∀ m ∈ (ofDescription d).1.materials, NaNFree (m.words.map Single.mk)) ∧
    (d == d) = true ∧ ((ofDescription d).1 == (ofDescription d).1) = true := by
  have hinfinite : ((parse false overflowingText).result.toOption.any fun d =>
      d.floats.any fun x => !x.isFinite) = true := by decide +kernel
  cases hd : (parse false overflowingText).result with
  | error fault =>
    rw [hd] at hinfinite
    contradiction
  | ok d =>
    rw [hd] at hinfinite
    obtain ⟨x, hx, hxinf⟩ := List.any_eq_true.mp hinfinite
    exact ⟨d, rfl, ⟨x, hx, by simpa using hxinf⟩, no_nan_authored false overflowingText d hd⟩

end SceneDescription

end ScenePack
