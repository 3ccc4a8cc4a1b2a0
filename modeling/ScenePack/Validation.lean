import ScenePack.Scene.Description
import ScenePack.Settings
import ScenePack.Violation

/-!
# Validation

The rules stand in a fixed order, and the first that is broken is the answer: there are materials
and objects; names are given and differ; every object names a material; each object has a sane
geometry for its shape; legacy scenes hold spheres and planes only; no array grows beyond its limit.
Within a rule, materials and objects are taken in order.

* `checkNames`, `checkReference`, `checkGeometry`, `checkLegacy`, `checkCapacity`: the rules.
* `SceneDescription.validate` goes through them in order (`SceneValidator::validate`).
-/

namespace ScenePack

/-- Break a rule unless something holds. -/
def require (holds : Bool) (v : Violation) : Except Violation Unit :=
  if holds then .ok () else .error v

/-- Names are given and differ from those before them; the first is at `index`. -/
def checkNames (before : List String) (index : Nat) : List String → Except Violation Unit
  | [] => .ok ()
  | name :: rest => do
    require (name ≠ "") (.emptyMaterialName index)
    require (!before.contains name) (.duplicateMaterialName name)
    checkNames (name :: before) (index + 1) rest

/-- An object names one of the materials. -/
def checkReference (names : List String) (index : Nat) (o : SceneObject) :
    Except Violation Unit := do
  require (o.material ≠ "") (.missingMaterialReference index)
  require (names.contains o.material) (.unknownMaterial index o.material)

/-- The geometry of an object makes sense for its shape (`SceneValidator::check_geometry`). A plane
is given by its normal and offset alone; every other shape also has a centre and a rotation. -/
def checkGeometry (epsilon : Single) (index : Nat) (o : SceneObject) : Except Violation Unit := do
  let g := o.geometry
  let finite (measure : Measure) (holds : Bool) := require holds (.nonFiniteGeometry index measure)
  match o.shape with
  | .plane => do
    finite .normal g.normal.allFinite
    finite .distance g.distance.isFinite
    require (!g.normal.norm.lt epsilon) (.degenerateNormal index g.normal.norm)
  | .box => do
    finite .size g.size.allFinite
    require (!(g.size.x.le 0 || g.size.y.le 0 || g.size.z.le 0)) (.invalidSize index g.size)
    finite .center g.center.allFinite
    finite .rotation g.rotation.allFinite
  | shape => do
    require g.radius.isPositive (.invalidRadius index g.radius)
    if shape.usesHeight then require g.height.isPositive (.invalidHeight index g.height)
    finite .radius g.radius.isFinite
    if shape.usesHeight then finite .height g.height.isFinite
    finite .center g.center.allFinite
    finite .rotation g.rotation.allFinite

/-- Only spheres and planes have a legacy record. -/
def checkLegacy (index : Nat) (o : SceneObject) : Except Violation Unit :=
  require (o.shape = .sphere || o.shape = .plane) (.unsupportedLegacyType index o.shape)

/-- Check the objects in order; the first is at `index`. -/
def checkObjects (check : Nat → SceneObject → Except Violation Unit) (index : Nat) :
    List SceneObject → Except Violation Unit
  | [] => .ok ()
  | o :: rest => do
    check index o
    checkObjects check (index + 1) rest

/-- A list is not longer than its limit (`check_capacity`). -/
def checkCapacity (listing : Listing) (count : Nat) (limit : UInt64) : Except Violation Unit :=
  require (count ≤ limit.toNat) (.capacityExceeded listing count limit)

/-- The number of objects that go into the light list. -/
def SceneDescription.lightCount (d : SceneDescription) : Nat :=
  d.objects.countP (·.isLightSource)

/-- Check a description; the first rule that is broken is the error (`SceneValidator::validate`). -/
def SceneDescription.validate (d : SceneDescription) (s : Settings) : Except Violation Unit := do
  let names := d.materials.map (·.name)
  require (!d.materials.isEmpty) .noMaterials
  require (!d.objects.isEmpty) .noObjects
  checkNames [] 0 names
  checkObjects (checkReference names) 0 d.objects
  checkObjects (checkGeometry s.planeNormalEpsilon) 0 d.objects
  if d.info.schema.layout = .legacy then checkObjects checkLegacy 0 d.objects
  checkCapacity .materials d.materials.length s.maxMaterials
  checkCapacity .objects d.objects.length s.maxObjects
  checkCapacity .lights d.lightCount s.maxLights

end ScenePack
