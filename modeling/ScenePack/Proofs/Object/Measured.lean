import ScenePack.Proofs.Compiled.Assembly
import ScenePack.Proofs.Outcome
import ScenePack.Proofs.Validation.Accepted

/-!
# What is measured of an object

An object holds the measures of every shape, and only those of its own shape count. Validation and
packing each choose them by a case split of its own. `Shape.measures` is the choice that both come
to: neither looks at anything else of an object, and what is copied into a record is a measure that
validation found finite.

* `SceneObject.Agrees`: two objects of one shape with the same measures of that shape.
* `ObjectRecord.copies`, `LegacyRecord.copies`: the words of a record that are copied from measures.

Results:
* `Agrees.pack_eq`, `Agrees.packLegacy_eq`, `Agrees.checkGeometry_eq`: nothing else is looked at.
* `copies_pack`, `copies_packLegacy`: the words are copies, of measures of the shape.
* `finiteIn_of_allHold`: the rules of a shape take all of its measures to be finite.
* **`checked_is_packed`**: so all words copied into the records of an accepted scene are finite.
-/

namespace ScenePack

/-! ## Measures -/

/-- The words of a measure. -/
def Measure.words (g : Geometry) : Measure → List UInt32
  | normal => g.normal.words
  | distance => [g.distance.bits]
  | size => g.size.words
  | radius => [g.radius.bits]
  | height => [g.height.bits]
  | center => g.center.words
  | rotation => g.rotation.words

/-- The measures that an object of a shape is given by. -/
def Shape.measures : Shape → List Measure
  | plane => [.normal, .distance]
  | box => [.size, .center, .rotation]
  | cylinder | cone | prism => [.radius, .height, .center, .rotation]
  | sphere | pyramid | tetrahedron | dodecahedron | icosahedron => [.radius, .center, .rotation]

/-- A measure is finite if its words are. -/
theorem Measure.finite_of_mem_words {g : Geometry} {m : Measure} (h : m.FiniteIn g) :
    ∀ w ∈ m.words g, (⟨w⟩ : Single).Finite := by
  have vector {v : Vec3} (hv : v.Finite) : ∀ w ∈ v.words, (⟨w⟩ : Single).Finite := by
    obtain ⟨hx, hy, hz⟩ := hv
    intro w hw
    simp only [Vec3.words, List.mem_cons, List.not_mem_nil, or_false] at hw
    rcases hw with rfl | rfl | rfl
    · exact hx
    · exact hy
    · exact hz
  have scalar {x : Single} (hx : x.Finite) : ∀ w ∈ [x.bits], (⟨w⟩ : Single).Finite := by
    intro w hw
    rw [List.mem_singleton.mp hw]
    exact hx
  cases m with
  | normal | size | center | rotation => exact vector h
  | distance | radius | height => exact scalar h

namespace SceneObject

/-! ## Objects with the same measures -/

/-- Two objects have one shape and the same measures of that shape, word for word. -/
structure Agrees (o o' : SceneObject) : Prop where
  shape : o.shape = o'.shape
  measures : ∀ m ∈ o.shape.measures, m.words o.geometry = m.words o'.geometry

/-- An object with nothing but its shape and the measures of that shape. -/
def bare (o : SceneObject) : SceneObject where
  shape := o.shape
  material := ""
  isLight := false
  geometry :=
    let g := o.geometry
    match o.shape with
    | .plane => { Geometry.default with normal := g.normal, distance := g.distance }
    | .box => { Geometry.default with size := g.size, center := g.center, rotation := g.rotation }
    | .cylinder | .cone | .prism =>
      { Geometry.default with
        radius := g.radius, height := g.height, center := g.center, rotation := g.rotation }
    | .sphere | .pyramid | .tetrahedron | .dodecahedron | .icosahedron =>
      { Geometry.default with radius := g.radius, center := g.center, rotation := g.rotation }

variable {o o' : SceneObject}

theorem Agrees.bare_eq (h : o.Agrees o') : o.bare = o'.bare := by
  obtain ⟨hshape, hmeasures⟩ := h
  unfold bare
  rw [← hshape]
  cases hs : o.shape <;>
    simp only [hs, Shape.measures, List.forall_mem_cons, Measure.words, Vec3.words_inj,
      List.singleton_inj, Single.bits_inj] at hmeasures <;>
    simp only [hmeasures]

/-- **Packing looks at the measures of the shape only.** -/
theorem pack_bare (o : SceneObject) (material : UInt32) : o.bare.pack material = o.pack material := by
  unfold bare pack
  cases o.shape <;> rfl

theorem packLegacy_bare (o : SceneObject) (material : UInt32) :
    o.bare.packLegacy material = o.packLegacy material := by
  unfold bare packLegacy
  cases o.shape <;> rfl

/-- **So does validation.** -/
theorem checkGeometry_bare (epsilon : Single) (k : Nat) (o : SceneObject) :
    checkGeometry epsilon k o.bare = checkGeometry epsilon k o := by
  unfold bare checkGeometry
  -- the default of a height is not looked at, since the test for heights is decided by the shape
  cases o.shape <;> simp only [Shape.usesHeight, Bool.false_eq_true, if_false]

end SceneObject

/-! ## Copies of measures -/

/-- The first three words of a slot. -/
def Slot.xyz (s : Slot) : List UInt32 := [s.x.bits, s.y.bits, s.z.bits]

/-- The words of an object's record that are copied from measures, each with its measure. The
extents of a box are none: they are halved. -/
def ObjectRecord.copies (r : ObjectRecord) : Shape → List (Measure × List UInt32)
  | .plane => [(.normal, r.bounds.xyz), (.distance, [r.bounds.w.bits])]
  | .box => [(.center, r.bounds.xyz), (.rotation, r.rotation.xyz)]
  | .cylinder | .cone | .prism =>
    [(.center, r.bounds.xyz), (.rotation, r.rotation.xyz), (.radius, [r.scale.x.bits]),
     (.height, [r.scale.y.bits]), (.radius, [r.scale.z.bits])]
  | .sphere =>
    [(.center, r.bounds.xyz), (.radius, [r.bounds.w.bits]), (.rotation, r.rotation.xyz),
     (.radius, [r.scale.x.bits]), (.radius, [r.scale.y.bits]), (.radius, [r.scale.z.bits])]
  | .pyramid | .tetrahedron | .dodecahedron | .icosahedron =>
    [(.center, r.bounds.xyz), (.rotation, r.rotation.xyz), (.radius, [r.scale.x.bits]),
     (.radius, [r.scale.y.bits]), (.radius, [r.scale.z.bits])]

/-- The words of a two-slot record that are copied from measures. -/
def LegacyRecord.copies (r : LegacyRecord) : Shape → List (Measure × List UInt32)
  | .plane => [(.normal, r.bounds.xyz), (.distance, [r.bounds.w.bits])]
  | .sphere => [(.center, r.bounds.xyz), (.radius, [r.bounds.w.bits])]
  | _ => [(.center, r.bounds.xyz)]

/-- A word list is the measure that it is said to be a copy of, one of the object's shape. -/
def SceneObject.Copied (o : SceneObject) (copy : Measure × List UInt32) : Prop :=
  copy.1 ∈ o.shape.measures ∧ copy.2 = copy.1.words o.geometry

theorem Shape.boundingRadius_sphere (extents : Vec3) :
    Shape.sphere.boundingRadius extents = extents.x := rfl

namespace SceneObject

theorem copies_pack (o : SceneObject) (material : UInt32) :
    ∀ copy ∈ (o.pack material).copies o.shape, o.Copied copy := by
  unfold pack Copied
  cases hs : o.shape <;>
    simp only [ObjectRecord.copies, List.forall_mem_cons, List.not_mem_nil, Shape.measures]
  all_goals
    simp [Measure.words, Slot.xyz, Vec3.slot, Vec3.words, Shape.extents, Vec3.replicate,
      Shape.boundingRadius_sphere]

theorem copies_packLegacy (o : SceneObject) (material : UInt32) :
    ∀ copy ∈ (o.packLegacy material).copies o.shape, o.Copied copy := by
  unfold packLegacy Copied
  cases o.shape <;>
    simp [LegacyRecord.copies, Shape.measures, Measure.words, Vec3.slot, Slot.xyz, Vec3.words]

/-- **The rules of a shape take all of its measures to be finite.** -/
theorem finiteIn_of_allHold {epsilon : Single} {k : Nat} {o : SceneObject}
    (h : Rule.AllHold (Rule.ofGeometry epsilon k o)) :
    ∀ m ∈ o.shape.measures, m.FiniteIn o.geometry := by
  unfold Rule.ofGeometry at h
  cases hs : o.shape <;>
    simp only [hs, Rule.allHold_cons, Rule.finite] at h <;>
    simp [Shape.measures, h]

end SceneObject

namespace CompiledScene

open SceneDescription

variable {d : SceneDescription} {s : Settings} {k : Nat}

/-! ## Records of scenes -/

/-- A record of a scene in the generic layout is the packed object of its position. -/
theorem getElem?_generic {records : Array ObjectRecord}
    (h : (ofDescription d).1.objects = .generic records) (hk : k < d.objects.length) :
    records[k]? = some (d.objects[k].pack (resolve (namesOf d) d.objects[k])) := by
  rw [ofDescription_objects] at h
  cases hlayout : d.info.schema.layout with
  | legacy =>
    rw [hlayout] at h
    exact absurd h nofun
  | generic =>
    rw [hlayout, ObjectArray.ofPlaced, ObjectArray.generic.injEq] at h
    rw [← h]
    simp [placed, place, hk]

/-- A record of a scene in the legacy layout is the packed object of its position. -/
theorem getElem?_legacy {records : Array LegacyRecord}
    (h : (ofDescription d).1.objects = .legacy records) (hk : k < d.objects.length) :
    records[k]? = some (d.objects[k].packLegacy (resolve (namesOf d) d.objects[k])) := by
  rw [ofDescription_objects] at h
  cases hlayout : d.info.schema.layout with
  | generic =>
    rw [hlayout] at h
    exact absurd h nofun
  | legacy =>
    rw [hlayout, ObjectArray.ofPlaced, ObjectArray.legacy.injEq] at h
    rw [← h]
    simp [placed, place, hk]

/-- Copies of the measures of an object are finite if validation accepts its scene. -/
theorem finite_of_copied (hd : d.Accepted s) {o : SceneObject} (ho : o ∈ d.objects)
    {copy : Measure × List UInt32} (hcopy : o.Copied copy) :
    ∀ w ∈ copy.2, (⟨w⟩ : Single).Finite := by
  obtain ⟨hmeasure, hwords⟩ := hcopy
  rw [hwords]
  exact Measure.finite_of_mem_words (SceneObject.finiteIn_of_allHold (hd.geometry o ho) _ hmeasure)

/-- **What is packed was checked.** Objects of one shape with the same measures of that shape are
packed to the same records and get the same verdict, whatever else they hold. And the words that are
copied from measures into the record of an object of an accepted scene are finite, in either
layout. -/
theorem checked_is_packed :
    (∀ o o' : SceneObject, o.Agrees o' → ∀ (material : UInt32) (epsilon : Single) (k : Nat),
      o.pack material = o'.pack material ∧ o.packLegacy material = o'.packLegacy material ∧
      checkGeometry epsilon k o = checkGeometry epsilon k o') ∧
    ∀ (s : Settings) (d : SceneDescription), d.validate s = .ok () →
      ∀ (k : Nat) (hk : k < d.objects.length),
        (∀ records, (ofDescription d).1.objects = .generic records →
          ∃ r, records[k]? = some r ∧ ∀ copy ∈ r.copies d.objects[k].shape,
            d.objects[k].Copied copy ∧ ∀ w ∈ copy.2, (⟨w⟩ : Single).Finite) ∧
        ∀ records, (ofDescription d).1.objects = .legacy records →
          ∃ r, records[k]? = some r ∧ ∀ copy ∈ r.copies d.objects[k].shape,
            d.objects[k].Copied copy ∧ ∀ w ∈ copy.2, (⟨w⟩ : Single).Finite := by
  refine ⟨fun o o' h material epsilon k => ⟨?_, ?_, ?_⟩, fun s d hv k hk => ?_⟩
  · rw [← o.pack_bare, h.bare_eq, o'.pack_bare]
  · rw [← o.packLegacy_bare, h.bare_eq, o'.packLegacy_bare]
  · rw [← SceneObject.checkGeometry_bare, h.bare_eq, SceneObject.checkGeometry_bare]
  · have hd := validate_eq_ok_iff_accepted.mp hv
    have hmem := List.getElem_mem hk
    constructor
    · intro records hrecords
      refine ⟨_, getElem?_generic hrecords hk, fun copy hcopy => ?_⟩
      have hcopied := SceneObject.copies_pack _ _ copy hcopy
      exact ⟨hcopied, finite_of_copied hd hmem hcopied⟩
    · intro records hrecords
      refine ⟨_, getElem?_legacy hrecords hk, fun copy hcopy => ?_⟩
      have hcopied := SceneObject.copies_packLegacy _ _ copy hcopy
      exact ⟨hcopied, finite_of_copied hd hmem hcopied⟩

/-- A ball that holds a NaN wherever a sphere has no measure. -/
def strayBall : SceneObject where
  shape := .sphere
  material := "a"
  isLight := true
  geometry :=
    let nan : Single := ⟨0x7fc00000⟩
    { Geometry.default with
      normal := .replicate nan, distance := nan, size := .replicate nan, height := nan }

/-- A scene of that ball, in a version. -/
def strayScene (schema : SchemaVersion) : SceneDescription where
  info := { SceneInfo.default with schema := schema }
  camera := .default
  sky := .default
  render := .default
  materials := [⟨"a", .default, .none⟩]
  objects := [strayBall]

theorem checked_is_packed_stray :
    (strayBall.Agrees default ∧ strayBall.pack 7 = SceneObject.pack default 7) ∧
    ((strayScene ⟨1, 0⟩).validate .default = .ok () ∧
      ∃ records, (ofDescription (strayScene ⟨1, 0⟩)).1.objects = .generic records ∧
        ∃ r, records[0]? = some r ∧ ∀ copy ∈ r.copies .sphere, strayBall.Copied copy ∧
          ∀ w ∈ copy.2, (⟨w⟩ : Single).Finite) ∧
    ((strayScene ⟨0, 1⟩).validate .default = .ok () ∧
      ∃ records, (ofDescription (strayScene ⟨0, 1⟩)).1.objects = .legacy records ∧
        ∃ r, records[0]? = some r ∧ ∀ copy ∈ r.copies .sphere, strayBall.Copied copy ∧
          ∀ w ∈ copy.2, (⟨w⟩ : Single).Finite) := by
  obtain ⟨hsame, hfinite⟩ := checked_is_packed
  have hagrees : strayBall.Agrees default := ⟨rfl, by decide⟩
  have hgeneric : (strayScene ⟨1, 0⟩).validate .default = .ok () :=
    Outcome.eq_ok_of_isOk (by decide)
  have hlegacy : (strayScene ⟨0, 1⟩).validate .default = .ok () :=
    Outcome.eq_ok_of_isOk (by decide)
  have hrecords : (ofDescription (strayScene ⟨1, 0⟩)).1.objects = .generic _ :=
    ofDescription_objects _
  have hrecords' : (ofDescription (strayScene ⟨0, 1⟩)).1.objects = .legacy _ :=
    ofDescription_objects _
  have hlt (schema : SchemaVersion) : 0 < (strayScene schema).objects.length := Nat.one_pos
  exact ⟨⟨hagrees, (hsame _ _ hagrees 7 0 0).1⟩,
    ⟨hgeneric, _, hrecords, (hfinite _ _ hgeneric 0 (hlt _)).1 _ hrecords⟩,
    hlegacy, _, hrecords', (hfinite _ _ hlegacy 0 (hlt _)).2 _ hrecords'⟩

end CompiledScene

end ScenePack
