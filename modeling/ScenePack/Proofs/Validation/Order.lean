import ScenePack.Proofs.Binary.Class
import ScenePack.Proofs.Validation.Rule

/-!
# The rules of a description

`SceneDescription.rules` lists what a description has to meet (`SceneValidator::validate`): by
stage, within a stage by the position of the material or object, within an object by the order of
its checks. Numbers are judged by their words (`Single.Positive`, `Single.Finite`), names by the
names before them.

Results:
* `decides_checkNames`, `decides_checkReference`, `decides_checkGeometry`, `decides_checkLegacy`,
  `decides_checkCapacity`: each check decides its rules.
* `decides_validate`: validation decides all of them, hence `validate_eq_ok_iff`.
* **`validate_reports_first_broken`**: a description is accepted iff every rule holds, and otherwise
  the error is the report of the first rule that is broken.
-/

namespace ScenePack

open Rule

/-! ## The rules -/

/-- What it takes for a measure to be finite. -/
def Measure.FiniteIn (g : Geometry) : Measure → Prop
  | normal => g.normal.Finite
  | distance => g.distance.Finite
  | size => g.size.Finite
  | radius => g.radius.Finite
  | height => g.height.Finite
  | center => g.center.Finite
  | rotation => g.rotation.Finite

namespace Rule

/-- Of each material, that its name is given and differs from every name before it. -/
def ofNames (names : List String) : List Rule :=
  names.zipIdx.flatMap fun (name, i) =>
    [⟨name ≠ "", .emptyMaterialName i⟩, ⟨name ∉ names.take i, .duplicateMaterialName name⟩]

/-- Of an object, that it names a material. -/
def ofReference (materials : List Material) (k : Nat) (o : SceneObject) : List Rule :=
  [⟨o.material ≠ "", .missingMaterialReference k⟩,
   ⟨∃ m ∈ materials, m.name = o.material, .unknownMaterial k o.material⟩]

def finite (k : Nat) (g : Geometry) (m : Measure) : Rule := ⟨m.FiniteIn g, .nonFiniteGeometry k m⟩

def positiveRadius (k : Nat) (g : Geometry) : Rule := ⟨g.radius.Positive, .invalidRadius k g.radius⟩

def positiveHeight (k : Nat) (g : Geometry) : Rule := ⟨g.height.Positive, .invalidHeight k g.height⟩

def positiveSize (k : Nat) (g : Geometry) : Rule :=
  ⟨g.size.x.Positive ∧ g.size.y.Positive ∧ g.size.z.Positive, .invalidSize k g.size⟩

/-- The normal is not shorter than `epsilon`; a length that is a NaN is shorter than nothing. -/
def longNormal (epsilon : Single) (k : Nat) (g : Geometry) : Rule :=
  ⟨¬ g.normal.norm.lt epsilon, .degenerateNormal k g.normal.norm⟩

/-- Of an object of each shape, what its geometry has to meet. -/
def ofGeometry (epsilon : Single) (k : Nat) (o : SceneObject) : List Rule :=
  let g := o.geometry
  match o.shape with
  | .sphere => [positiveRadius k g, finite k g .radius, finite k g .center, finite k g .rotation]
  | .plane => [finite k g .normal, finite k g .distance, longNormal epsilon k g]
  | .box => [finite k g .size, positiveSize k g, finite k g .center, finite k g .rotation]
  | .cylinder | .cone | .prism =>
    [positiveRadius k g, positiveHeight k g, finite k g .radius, finite k g .height,
     finite k g .center, finite k g .rotation]
  | .pyramid | .tetrahedron | .dodecahedron | .icosahedron =>
    [positiveRadius k g, finite k g .radius, finite k g .center, finite k g .rotation]

/-- Of an object of a legacy scene, that it has a legacy record. -/
def ofLegacy (k : Nat) (o : SceneObject) : List Rule :=
  [⟨o.shape = .sphere ∨ o.shape = .plane, .unsupportedLegacyType k o.shape⟩]

/-- A list is not longer than its limit. -/
def capacity (listing : Listing) (count : Nat) (limit : UInt64) : Rule :=
  ⟨count ≤ limit.toNat, .capacityExceeded listing count limit⟩

end Rule

namespace SceneDescription

/-- The number of objects that are marked as lights and are no planes. -/
def litObjects (d : SceneDescription) : Nat :=
  (d.objects.filter fun o => o.isLight ∧ o.shape ≠ .plane).length

/-- **Everything a description has to meet, in order.** -/
def rules (d : SceneDescription) (s : Settings) : List Rule :=
  ⟨d.materials ≠ [], .noMaterials⟩ :: ⟨d.objects ≠ [], .noObjects⟩ ::
    (ofNames (d.materials.map (·.name))
      ++ (eachObject d.objects 0 (ofReference d.materials)
      ++ (eachObject d.objects 0 (ofGeometry s.planeNormalEpsilon)
      ++ ((if d.info.schema.major = 0 then eachObject d.objects 0 ofLegacy else [])
      ++ [capacity .materials d.materials.length s.maxMaterials,
          capacity .objects d.objects.length s.maxObjects,
          capacity .lights d.litObjects s.maxLights]))))

end SceneDescription

/-! ## The checks decide the rules -/

/-- The names from a position on; `before` holds those before it, latest first. -/
theorem decides_checkNames : ∀ (before rest : List String),
    Decides ((rest.zipIdx before.length).flatMap fun (name, i) =>
        [⟨name ≠ "", .emptyMaterialName i⟩,
         ⟨name ∉ (before.reverse ++ rest).take i, .duplicateMaterialName name⟩])
      (checkNames before before.length rest)
  | _, [] => decides_nil
  | before, name :: rest => by
    have hsplit : before.reverse ++ name :: rest = (name :: before).reverse ++ rest := by simp
    have htake : (before.reverse ++ name :: rest).take before.length = before.reverse := by
      rw [← List.length_reverse, List.take_left]
    have ih := decides_checkNames (name :: before) rest
    rw [← hsplit] at ih
    refine decides_cons (by simp) fun _ => decides_cons ?_ fun _ => ih
    rw [htake]
    simp

theorem decides_checkReference (materials : List Material) (k : Nat) (o : SceneObject) :
    Decides (ofReference materials k o) (checkReference (materials.map (·.name)) k o) := by
  refine decides_cons (by simp) fun _ => decides_require ?_
  simp

theorem longNormal_iff {epsilon : Single} {k : Nat} {g : Geometry} :
    (!g.normal.norm.lt epsilon) = true ↔ (longNormal epsilon k g).holds := by
  simp [longNormal]

/-- The extents of a box are tested for "at most zero". That none is means that all are positive
only because they were found finite before. -/
theorem positiveSize_iff {k : Nat} {g : Geometry} (h : g.size.Finite) :
    (!(g.size.x.le 0 || g.size.y.le 0 || g.size.z.le 0)) = true ↔ (positiveSize k g).holds := by
  obtain ⟨hx, hy, hz⟩ := h
  unfold positiveSize
  rw [← Single.le_zero_iff hx, ← Single.le_zero_iff hy, ← Single.le_zero_iff hz]
  simp [and_assoc]

/-- Each shape's checks follow its rules one by one. -/
theorem decides_checkGeometry (epsilon : Single) (k : Nat) (o : SceneObject) :
    Decides (ofGeometry epsilon k o) (checkGeometry epsilon k o) := by
  have hradius := Single.isPositive_iff o.geometry.radius
  have hheight := Single.isPositive_iff o.geometry.height
  have hfinite := Single.isFinite_iff
  have hvec := Vec3.allFinite_iff
  -- shapes share their tails, and shapes with the same measures all their checks
  have htail : Decides [finite k o.geometry .center, finite k o.geometry .rotation] _ :=
    decides_cons (hvec _) fun _ => decides_require (hvec _)
  have hsolid : Decides [positiveRadius k o.geometry, finite k o.geometry .radius,
      finite k o.geometry .center, finite k o.geometry .rotation] _ :=
    decides_cons hradius fun _ => decides_cons (hfinite _) fun _ => htail
  have htall : Decides [positiveRadius k o.geometry, positiveHeight k o.geometry,
      finite k o.geometry .radius, finite k o.geometry .height, finite k o.geometry .center,
      finite k o.geometry .rotation] _ :=
    decides_cons hradius fun _ => decides_cons hheight fun _ => decides_cons (hfinite _) fun _ =>
      decides_cons (hfinite _) fun _ => htail
  unfold ofGeometry checkGeometry
  cases o.shape with
  | sphere => exact hsolid
  | plane =>
    exact decides_cons (hvec _) fun _ => decides_cons (hfinite _) fun _ =>
      decides_require longNormal_iff
  | box =>
    exact decides_cons (hvec _) fun hsize => decides_cons (positiveSize_iff hsize) fun _ => htail
  | cylinder | cone | prism => exact htall
  | pyramid | tetrahedron | dodecahedron | icosahedron => exact hsolid

theorem decides_checkLegacy (k : Nat) (o : SceneObject) :
    Decides (ofLegacy k o) (checkLegacy k o) := by
  refine decides_require ?_
  simp

theorem decides_checkCapacity (listing : Listing) (count : Nat) (limit : UInt64) :
    Decides [capacity listing count limit] (checkCapacity listing count limit) :=
  decides_require decide_eq_true_iff

theorem SchemaVersion.layout_eq_legacy_iff (v : SchemaVersion) :
    v.layout = .legacy ↔ v.major = 0 := by
  unfold layout
  split <;> simp [*]

namespace SceneDescription

variable (d : SceneDescription) (s : Settings)

theorem lightCount_eq_litObjects : d.lightCount = d.litObjects := by
  unfold lightCount litObjects
  rw [List.countP_eq_length_filter]
  simp [SceneObject.isLightSource]

/-- **Validation decides the rules of a description.** -/
theorem decides_validate : Decides (d.rules s) (d.validate s) := by
  have hnames : Decides (ofNames (d.materials.map (·.name))) (checkNames [] 0 _) :=
    decides_checkNames [] _
  have hrefs := decides_eachObject (decides_checkReference d.materials) d.objects 0
  have hgeom := decides_eachObject (decides_checkGeometry s.planeNormalEpsilon) d.objects 0
  have hlegacy := decides_eachObject decides_checkLegacy d.objects 0
  have hcap := decides_append (decides_checkCapacity .materials d.materials.length s.maxMaterials)
    fun _ => decides_append (decides_checkCapacity .objects d.objects.length s.maxObjects)
    fun _ => decides_checkCapacity .lights d.lightCount s.maxLights
  rw [lightCount_eq_litObjects] at hcap
  unfold validate rules
  simp only [lightCount_eq_litObjects, SchemaVersion.layout_eq_legacy_iff]
  refine decides_cons (by simp) fun _ => decides_cons (by simp) fun _ => ?_
  exact decides_append hnames fun _ => decides_append hrefs fun _ => decides_append hgeom fun _ =>
    decides_ite_append hlegacy hcap

theorem validate_eq_ok_iff : d.validate s = .ok () ↔ AllHold (d.rules s) :=
  (decides_validate d s).iff.1

/-- **Validation reports the first broken rule.** A description is accepted iff every rule holds;
otherwise the error is what breaking the first rule that does not hold is reported as. -/
theorem validate_reports_first_broken :
    (d.validate s = .ok () ↔ ∀ r ∈ d.rules s, r.holds) ∧
      ∀ v, d.validate s = .error v ↔ FirstBroken v (d.rules s) :=
  (decides_validate d s).iff

end SceneDescription

end ScenePack
