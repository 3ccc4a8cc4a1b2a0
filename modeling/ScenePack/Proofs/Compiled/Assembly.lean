import ScenePack.Compiled

/-!
# The object pass as a whole

What a run of pushes comes to, said without the run: `ObjectArray.ofPlaced` and
`ObjectAssembly.ofPlaced` are the array and the light list of objects with the positions of their
materials, `lightPositions` the positions of the lights among objects.

Results:
* `ObjectAssembly.push_ofPlaced`: one push adds one object at the end.
* **`assemble_ofPlaced`**: the pass over the objects adds each of them, with the position that its
  material resolves to; `ofDescription_objects` and `ofDescription_lights` from the start.
* **`assemble_log`**, **`ofDescription_log`**: what the pass logs, object by object.
-/

namespace ScenePack

/-- The positions of the lights among objects, as they are written. -/
def lightPositions (objects : List SceneObject) : List UInt32 :=
  (objects.zipIdx.filter fun (o, _) => o.isLightSource).map fun (_, k) => UInt32.ofNat k

theorem lightPositions_append_singleton (objects : List SceneObject) (o : SceneObject) :
    lightPositions (objects ++ [o]) = lightPositions objects ++
      if o.isLightSource then [UInt32.ofNat objects.length] else [] := by
  unfold lightPositions
  rw [List.zipIdx_append, List.filter_append, List.map_append]
  congr 1
  cases h : o.isLightSource <;> simp [h]

/-- The words of an object's record in a layout. -/
def SceneObject.recordWords (o : SceneObject) (material : UInt32) : ObjectLayout → List UInt32
  | .generic => (o.pack material).words
  | .legacy => (o.packLegacy material).words

namespace ObjectArray

/-- The array of objects whose materials have the given positions. -/
def ofPlaced (placed : List (SceneObject × UInt32)) : ObjectLayout → ObjectArray
  | .generic => generic (placed.map fun (o, material) => o.pack material).toArray
  | .legacy => legacy (placed.map fun (o, material) => o.packLegacy material).toArray

theorem empty_eq_ofPlaced (layout : ObjectLayout) : empty layout = ofPlaced [] layout := by
  cases layout <;> rfl

theorem push_ofPlaced (placed : List (SceneObject × UInt32)) (layout : ObjectLayout)
    (o : SceneObject) (material : UInt32) :
    (ofPlaced placed layout).push o material = ofPlaced (placed ++ [(o, material)]) layout := by
  cases layout <;> simp [ofPlaced, push]

theorem layout_ofPlaced (placed : List (SceneObject × UInt32)) (layout : ObjectLayout) :
    (ofPlaced placed layout).layout = layout := by
  cases layout <;> rfl

theorem size_ofPlaced (placed : List (SceneObject × UInt32)) (layout : ObjectLayout) :
    (ofPlaced placed layout).size = placed.length := by
  cases layout <;> simp [ofPlaced, size]

theorem words_ofPlaced (placed : List (SceneObject × UInt32)) (layout : ObjectLayout) :
    (ofPlaced placed layout).words =
      placed.map fun (o, material) => o.recordWords material layout := by
  cases layout <;> simp [ofPlaced, words, SceneObject.recordWords]

theorem size_push (a : ObjectArray) (o : SceneObject) (material : UInt32) :
    (a.push o material).size = a.size + 1 := by
  cases a <;> simp [push, size]

end ObjectArray

namespace ObjectAssembly

/-- The array and the light list of objects whose materials have the given positions. -/
def ofPlaced (placed : List (SceneObject × UInt32)) (layout : ObjectLayout) : ObjectAssembly where
  objects := .ofPlaced placed layout
  lights := (lightPositions (placed.map (·.1))).toArray

theorem start_eq_ofPlaced (layout : ObjectLayout) : start layout = ofPlaced [] layout := by
  unfold start ofPlaced
  rw [ObjectArray.empty_eq_ofPlaced]
  rfl

/-- **One push adds one object**, and its position to the lights if it is one. -/
theorem push_ofPlaced (placed : List (SceneObject × UInt32)) (layout : ObjectLayout)
    (o : SceneObject) (material : UInt32) :
    (ofPlaced placed layout).push o material = ofPlaced (placed ++ [(o, material)]) layout := by
  unfold push ofPlaced
  rw [ObjectArray.push_ofPlaced, ObjectArray.size_ofPlaced, List.map_append, List.map_singleton,
    lightPositions_append_singleton, List.length_map]
  congr 1
  split <;> simp

end ObjectAssembly

namespace CompiledScene

/-- Objects with the positions that their materials have in a table. -/
def place (names : NameTable) (objects : List SceneObject) : List (SceneObject × UInt32) :=
  objects.map fun o => (o, resolve names o)

/-- **The object pass adds each object in turn.** -/
theorem assemble_ofPlaced (names : NameTable) (layout : ObjectLayout) :
    ∀ (objects : List SceneObject) (placed : List (SceneObject × UInt32)),
      (assemble names (.ofPlaced placed layout) objects).1 =
        .ofPlaced (placed ++ place names objects) layout
  | [], placed => by
    rw [place, List.map_nil, List.append_nil]
    rfl
  | o :: objects, placed => by
    show (assemble names ((ObjectAssembly.ofPlaced placed layout).push o (resolve names o))
      objects).1 = _
    rw [ObjectAssembly.push_ofPlaced, assemble_ofPlaced names layout objects, List.append_assoc]
    rfl

/-- What an object logs for being marked as a light without being able to be one. -/
def lightLog (k : Nat) (o : SceneObject) : List Event :=
  if o.isLight && o.shape = .plane then [.planeLight k] else []

/-- **What the object pass logs**: each object in turn, first what looking up its material logs. -/
theorem assemble_log (names : NameTable) : ∀ (objects : List SceneObject) (a : ObjectAssembly),
    (assemble names a objects).2 = (objects.zipIdx a.objects.size).flatMap fun (o, k) =>
      resolveLog names o ++ lightLog k o
  | [], _ => rfl
  | o :: objects, a => by
    show (resolveLog names o ++ a.pushLog o) ++ (assemble names (a.push o _) objects).2 = _
    rw [assemble_log names objects, List.zipIdx_cons, List.flatMap_cons]
    congr 2
    exact congrArg _ (ObjectArray.size_push a.objects o _)

variable (d : SceneDescription)

/-- The table that the materials of a description leave. -/
def namesOf : NameTable := nameMaterials .empty 0 d.materials

/-- The objects of a description with the positions of their materials. -/
def placed : List (SceneObject × UInt32) := place (namesOf d) d.objects

theorem map_fst_placed : (placed d).map (·.1) = d.objects := by
  simp [placed, place, Function.comp_def]

theorem ofDescription_names : (ofDescription d).1.names = namesOf d := rfl

theorem ofDescription_materials :
    (ofDescription d).1.materials = d.materials.map (·.record) := rfl

theorem assemble_start :
    (assemble (namesOf d) (.start d.info.schema.layout) d.objects).1 =
      .ofPlaced (placed d) d.info.schema.layout := by
  rw [ObjectAssembly.start_eq_ofPlaced, assemble_ofPlaced, List.nil_append, placed]

theorem ofDescription_objects :
    (ofDescription d).1.objects = .ofPlaced (placed d) d.info.schema.layout :=
  congrArg ObjectAssembly.objects (assemble_start d)

theorem ofDescription_lights :
    (ofDescription d).1.lights = (lightPositions d.objects).toArray := by
  have h := congrArg ObjectAssembly.lights (assemble_start d)
  rw [ObjectAssembly.ofPlaced, map_fst_placed] at h
  exact h

/-- **What compiling logs**: the materials as they are placed, then each object. -/
theorem ofDescription_log : (ofDescription d).2 = .building d.info.name :: placeLog 0 d.materials
    ++ (d.objects.zipIdx.flatMap fun (o, k) => resolveLog (namesOf d) o ++ lightLog k o)
    ++ [.built d.info.schema.layout (ofDescription d).1.objects.size d.materials.length
          (ofDescription d).1.lights.size] := by
  have hsize : (ObjectAssembly.start d.info.schema.layout).objects.size = 0 := by
    rw [ObjectAssembly.start_eq_ofPlaced]
    exact ObjectArray.size_ofPlaced [] _
  have h := assemble_log (namesOf d) d.objects (.start d.info.schema.layout)
  rw [hsize] at h
  rw [← h]
  rfl

end CompiledScene

end ScenePack
