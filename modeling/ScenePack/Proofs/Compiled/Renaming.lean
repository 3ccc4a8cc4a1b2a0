import ScenePack.Proofs.Compiled.Assembly
import ScenePack.Validation

/-!
# Renaming materials

Names of materials are compared with each other and with the empty name, and are else only carried
along: into violations, events and the table of names. So a renaming that keeps names apart, and the
empty name empty, can be made before a description is checked and compiled or after; the outcome is
the same.

* `rename` on descriptions, violations, events and tables replaces the names in them.

Results:
* `checkNames_rename`, `checkReference_rename`, `checkGeometry_rename`: each rule gives a renamed
  description the renamed answer, and `checkObjects_rename` carries that through the objects.
  **`validate_rename`** puts them together.
* `NameTable.insert_rename`, `push_rename`: one step of either pass commutes with renaming;
  `nameMaterials_rename` and `assemble_rename` are the runs, **`ofDescription_rename`** is both.
* **`names_only_identify`**: the two together.
-/

namespace ScenePack

/-! ## Replacing names -/

/-- Another name for a material. -/
def Material.rename (r : String → String) (m : Material) : Material := { m with name := r m.name }

/-- Another name for the material of an object. -/
def SceneObject.rename (r : String → String) (o : SceneObject) : SceneObject :=
  { o with material := r o.material }

/-- Other names for all materials, where they are described and where objects refer to them. -/
def SceneDescription.rename (r : String → String) (d : SceneDescription) : SceneDescription :=
  { d with materials := d.materials.map (·.rename r), objects := d.objects.map (·.rename r) }

/-- Other names in a violation that carries one. -/
def Violation.rename (r : String → String) : Violation → Violation
  | duplicateMaterialName name => duplicateMaterialName (r name)
  | unknownMaterial object name => unknownMaterial object (r name)
  | v => v

/-- Other names in an event that carries the name of a material. -/
def Event.rename (r : String → String) : Event → Event
  | materialPlaced name template position => materialPlaced (r name) template position
  | materialMissing name => materialMissing (r name)
  | templateReplaced material tag => templateReplaced (r material) tag
  | e => e

/-- Other names in a table, in the same order and with the same positions. -/
def NameTable.rename (r : String → String) (t : NameTable) : NameTable :=
  ⟨t.pairs.map fun pair => (r pair.1, pair.2)⟩

variable {r : String → String}

/-! ## Checks -/

section Checks

variable {α : Type} {f : Violation → Violation}

theorem mapError_bind (x : Except Violation α) (y : α → Except Violation Unit) :
    (x >>= y).mapError f = x.mapError f >>= fun a => (y a).mapError f := by
  cases x <;> rfl

theorem mapError_require (holds : Bool) (v : Violation) :
    (require holds v).mapError f = require holds (f v) := by
  cases holds <;> rfl

/-- A pass over objects gives them, taken otherwise, its answer said otherwise, if it does so with
each object. -/
theorem checkObjects_map {check check' : Nat → SceneObject → Except Violation Unit}
    {g : SceneObject → SceneObject} (h : ∀ k o, check' k (g o) = (check k o).mapError f) :
    ∀ (objects : List SceneObject) (index : Nat),
      checkObjects check' index (objects.map g) = (checkObjects check index objects).mapError f
  | [], _ => rfl
  | o :: objects, index => by
    rw [List.map_cons, checkObjects, checkObjects, mapError_bind, h]
    congr 1
    funext u
    exact checkObjects_map h objects (index + 1)

end Checks

/-- A name that is kept apart from the empty one is given iff it was. -/
theorem rename_eq_empty_iff (hr : Function.Injective r) (hempty : r "" = "") (n : String) :
    r n = "" ↔ n = "" := by
  constructor
  · intro h
    exact hr (h.trans hempty.symm)
  · intro h
    rw [h, hempty]

theorem contains_map_rename (hr : Function.Injective r) (names : List String) (n : String) :
    (names.map r).contains (r n) = names.contains n := by
  rw [Bool.eq_iff_iff, List.contains_iff_mem, List.contains_iff_mem, List.mem_map]
  constructor
  · rintro ⟨n', hmem, heq⟩
    exact hr heq ▸ hmem
  · intro hmem
    exact ⟨n, hmem, rfl⟩

/-- **The rule of names.** Renamed names meet names before them that are renamed as well. -/
theorem checkNames_rename (hr : Function.Injective r) (hempty : r "" = "") :
    ∀ (names before : List String) (index : Nat),
      checkNames (before.map r) index (names.map r) =
        (checkNames before index names).mapError (Violation.rename r)
  | [], _, _ => rfl
  | n :: names, before, index => by
    have hrest := checkNames_rename hr hempty names (n :: before) (index + 1)
    rw [List.map_cons] at hrest
    simp only [List.map_cons, checkNames, mapError_bind, mapError_require, hrest,
      contains_map_rename hr, ne_eq, rename_eq_empty_iff hr hempty, Violation.rename]

/-- **The rule of references.** -/
theorem checkReference_rename (hr : Function.Injective r) (hempty : r "" = "")
    (names : List String) (k : Nat) (o : SceneObject) :
    checkReference (names.map r) k (o.rename r) =
      (checkReference names k o).mapError (Violation.rename r) := by
  simp only [checkReference, SceneObject.rename, mapError_bind, mapError_require,
    contains_map_rename hr, ne_eq, rename_eq_empty_iff hr hempty, Violation.rename]

/-- **The rules of geometry** look at no name and report none. -/
theorem checkGeometry_rename (epsilon : Single) (k : Nat) (o : SceneObject) :
    checkGeometry epsilon k (o.rename r) =
      (checkGeometry epsilon k o).mapError (Violation.rename r) := by
  show checkGeometry epsilon k o = _
  unfold checkGeometry
  cases o.shape <;> simp only [mapError_bind, mapError_require, Violation.rename, Shape.usesHeight,
    Bool.false_eq_true, if_false, if_true]

/-- **The rule of legacy scenes.** -/
theorem checkLegacy_rename (k : Nat) (o : SceneObject) :
    checkLegacy k (o.rename r) = (checkLegacy k o).mapError (Violation.rename r) := by
  unfold checkLegacy
  rw [mapError_require]
  rfl

/-- **The limits** count and look at no name. -/
theorem checkCapacity_rename (listing : Listing) (count : Nat) (limit : UInt64) :
    (checkCapacity listing count limit).mapError (Violation.rename r) =
      checkCapacity listing count limit := mapError_require _ _

namespace SceneDescription

theorem lightCount_rename (d : SceneDescription) : (d.rename r).lightCount = d.lightCount := by
  unfold lightCount rename
  rw [List.countP_map]
  rfl

/-- **Validation of renamed descriptions**: the same answer, with the name in it renamed. -/
theorem validate_rename (hr : Function.Injective r) (hempty : r "" = "") (d : SceneDescription)
    (s : Settings) : (d.rename r).validate s = (d.validate s).mapError (Violation.rename r) := by
  have hnames : (d.rename r).materials.map (·.name) = (d.materials.map (·.name)).map r := by
    simp only [rename, List.map_map]
    rfl
  have hgiven := checkNames_rename hr hempty (d.materials.map (·.name)) [] 0
  have hreferences : checkObjects (checkReference ((d.materials.map (·.name)).map r)) 0
      (d.rename r).objects = _ :=
    checkObjects_map (checkReference_rename hr hempty _) d.objects 0
  have hgeometry : checkObjects (checkGeometry s.planeNormalEpsilon) 0 (d.rename r).objects = _ :=
    checkObjects_map (checkGeometry_rename s.planeNormalEpsilon) d.objects 0
  have hlegacy : checkObjects checkLegacy 0 (d.rename r).objects = _ :=
    checkObjects_map checkLegacy_rename d.objects 0
  have hmaterials : (d.rename r).materials.length = d.materials.length := List.length_map _
  have hobjects : (d.rename r).objects.length = d.objects.length := List.length_map _
  have hmaterials' : (d.rename r).materials.isEmpty = d.materials.isEmpty := List.isEmpty_map
  have hobjects' : (d.rename r).objects.isEmpty = d.objects.isEmpty := List.isEmpty_map
  have hinfo : (d.rename r).info = d.info := rfl
  unfold validate
  rw [List.map_nil] at hgiven
  simp only [hmaterials, hmaterials', hobjects, hobjects', hinfo, hnames, hgiven, hreferences,
    hgeometry, hlegacy, lightCount_rename, mapError_bind, mapError_require, Violation.rename]
  by_cases hlayout : d.info.schema.layout = .legacy
  · simp only [hlayout, if_true, mapError_bind, checkCapacity_rename]
  · simp only [hlayout, if_false, mapError_bind, checkCapacity_rename]

end SceneDescription

/-! ## The table of names -/

namespace NameTable

/-- **A renamed table gives a renamed name the position of the name.** -/
theorem get?_rename (hr : Function.Injective r) (t : NameTable) (n : String) :
    (t.rename r).get? (r n) = t.get? n := by
  obtain ⟨pairs⟩ := t
  show (pairs.map fun pair => (r pair.1, pair.2)).lookup (r n) = pairs.lookup n
  induction pairs with
  | nil => rfl
  | cons pair pairs ih =>
    have hbeq : (r n == r pair.1) = (n == pair.1) := by
      rw [Bool.eq_iff_iff, beq_iff_eq, beq_iff_eq]
      exact ⟨@hr n pair.1, congrArg r⟩
    rw [List.map_cons, List.lookup_cons, List.lookup_cons, ih, hbeq]

/-- **Recording a renamed name in a renamed table.** -/
theorem insert_rename (hr : Function.Injective r) (t : NameTable) (n : String)
    (position : UInt32) :
    (t.rename r).insert (r n) position = (t.insert n position).rename r := by
  unfold insert
  rw [get?_rename hr]
  cases t.get? n with
  | some p => rfl
  | none =>
    unfold rename
    rw [List.map_append]
    rfl

end NameTable

/-! ## The two passes -/

/-- A renamed object has the record of the object. -/
theorem ObjectArray.push_rename (a : ObjectArray) (o : SceneObject) (material : UInt32) :
    a.push (o.rename r) material = a.push o material := by
  cases a <;> rfl

/-- **Packing a renamed object.** -/
theorem ObjectAssembly.push_rename (a : ObjectAssembly) (o : SceneObject) (material : UInt32) :
    a.push (o.rename r) material = a.push o material := by
  unfold push
  rw [ObjectArray.push_rename]
  rfl

/-- What packing an object logs carries no name. -/
theorem ObjectAssembly.pushLog_rename (a : ObjectAssembly) (o : SceneObject) :
    a.pushLog (o.rename r) = (a.pushLog o).map (Event.rename r) := by
  show a.pushLog o = _
  unfold pushLog
  split <;> rfl

namespace CompiledScene

/-- **The pass over the materials.** -/
theorem nameMaterials_rename (hr : Function.Injective r) :
    ∀ (ms : List Material) (t : NameTable) (position : Nat),
      nameMaterials (t.rename r) position (ms.map (·.rename r)) =
        (nameMaterials t position ms).rename r
  | [], _, _ => rfl
  | m :: ms, t, position => by
    have hstep : (t.rename r).insert (m.rename r).name (UInt32.ofNat position) = _ :=
      NameTable.insert_rename hr t m.name _
    rw [List.map_cons, nameMaterials, nameMaterials, hstep,
      nameMaterials_rename hr ms (t.insert m.name _) (position + 1)]

theorem placeLog_rename : ∀ (ms : List Material) (position : Nat),
    placeLog position (ms.map (·.rename r)) = (placeLog position ms).map (Event.rename r)
  | [], _ => rfl
  | m :: ms, position => by
    rw [List.map_cons, placeLog, placeLog, List.map_cons, placeLog_rename ms (position + 1)]
    rfl

/-- A renamed object's material is found where the object's was, also where it was not found. -/
theorem resolve_rename (hr : Function.Injective r) (t : NameTable) (o : SceneObject) :
    resolve (t.rename r) (o.rename r) = resolve t o :=
  congrArg (·.getD 0) (NameTable.get?_rename hr t o.material)

theorem resolveLog_rename (hr : Function.Injective r) (t : NameTable) (o : SceneObject) :
    resolveLog (t.rename r) (o.rename r) = (resolveLog t o).map (Event.rename r) := by
  have hget : (t.rename r).get? (o.rename r).material = _ := NameTable.get?_rename hr t o.material
  unfold resolveLog
  rw [hget]
  cases t.get? o.material <;> rfl

/-- **The pass over the objects.** -/
theorem assemble_rename (hr : Function.Injective r) (t : NameTable) :
    ∀ (objects : List SceneObject) (a : ObjectAssembly),
      assemble (t.rename r) a (objects.map (·.rename r)) =
        ((assemble t a objects).1, (assemble t a objects).2.map (Event.rename r))
  | [], _ => rfl
  | o :: objects, a => by
    rw [List.map_cons, assemble, assemble, resolve_rename hr, ObjectAssembly.push_rename,
      resolveLog_rename hr, ObjectAssembly.pushLog_rename,
      assemble_rename hr t objects (a.push o (resolve t o)), List.map_append, List.map_append]

/-- **Compiling renamed descriptions**: the same arrays, and the same table and log with the names in
them renamed. -/
theorem ofDescription_rename (hr : Function.Injective r) (d : SceneDescription) :
    ofDescription (d.rename r) =
      ({ (ofDescription d).1 with names := (ofDescription d).1.names.rename r },
        (ofDescription d).2.map (Event.rename r)) := by
  have hnames : nameMaterials .empty 0 (d.materials.map (·.rename r)) = _ :=
    nameMaterials_rename hr d.materials .empty 0
  have hrecords : (d.materials.map (·.rename r)).map (·.record) = d.materials.map (·.record) := by
    rw [List.map_map]
    rfl
  unfold ofDescription SceneDescription.rename
  simp only [hnames, assemble_rename hr, hrecords, placeLog_rename, List.length_map, List.map_append,
    List.map_cons, List.map_nil]
  rfl

end CompiledScene

open CompiledScene

/-- **Names of materials only identify them.** Whatever a description is like, valid or not: under a
renaming that keeps names apart and the empty name empty, validation answers the same but for the
name in a violation, and compiling gives the same records and lights, and the same table but for the
names in it; so is what is logged. -/
theorem SceneDescription.names_only_identify (hr : Function.Injective r) (hempty : r "" = "")
    (d : SceneDescription) :
    (∀ s, (d.rename r).validate s = (d.validate s).mapError (Violation.rename r)) ∧
    (ofDescription (d.rename r)).1.objects = (ofDescription d).1.objects ∧
    (ofDescription (d.rename r)).1.materials = (ofDescription d).1.materials ∧
    (ofDescription (d.rename r)).1.lights = (ofDescription d).1.lights ∧
    (ofDescription (d.rename r)).1.names = (ofDescription d).1.names.rename r ∧
    (∀ n, (ofDescription (d.rename r)).1.names.get? (r n) = (ofDescription d).1.names.get? n) ∧
    (ofDescription (d.rename r)).2 = (ofDescription d).2.map (Event.rename r) := by
  rw [ofDescription_rename hr]
  exact ⟨d.validate_rename hr hempty, rfl, rfl, rfl, rfl, NameTable.get?_rename hr _, rfl⟩

/-- Two names the other way around. -/
def crossNames (a b n : String) : String := if n = a then b else if n = b then a else n

theorem crossNames_injective (a b : String) : Function.Injective (crossNames a b) := by
  intro m n h
  unfold crossNames at h
  grind

/-- A name that two materials bear, and an object whose material is none of them. -/
def muddledScene : SceneDescription where
  info := .default
  camera := .default
  sky := .default
  render := .default
  materials := [⟨"floor", .lambertian, .none⟩, ⟨"ball", .metal, .none⟩, ⟨"floor", .emissive, .none⟩]
  objects := [⟨.sphere, "ball", true, .default⟩, ⟨.plane, "wall", false, .default⟩]

theorem SceneDescription.names_only_identify_crossed :
    Function.Injective (crossNames "floor" "ball") ∧ crossNames "floor" "ball" "" = "" ∧
    (muddledScene.rename (crossNames "floor" "ball")).validate .default =
      .error (.duplicateMaterialName "ball") ∧
    (ofDescription (muddledScene.rename (crossNames "floor" "ball"))).1.objects =
      (ofDescription muddledScene).1.objects ∧
    (ofDescription (muddledScene.rename (crossNames "floor" "ball"))).1.names =
      ⟨[("ball", 0), ("floor", 1)]⟩ := by
  have hr := crossNames_injective "floor" "ball"
  obtain ⟨hvalidate, hobjects, -, -, hnames, -⟩ :=
    names_only_identify hr (by decide) muddledScene
  exact ⟨hr, by decide, (hvalidate .default).trans rfl, hobjects, hnames.trans rfl⟩

end ScenePack
