import ScenePack.Log.Event
import ScenePack.Object.Record

/-!
# The object array

Objects are packed one after another in the layout of their scene. The position of each object that
is marked as a light goes into the light list; a plane cannot be a light, which is logged.

* `ObjectArray` (`ObjectBuffer`) holds the records, `ObjectAssembly` (`ObjectCompiler`) the
  positions of the lights as well.
* `ObjectAssembly.push` packs one more object at the position `next`, `pushLog` is what that logs.
* `ObjectAssembly.pushAll` packs objects one after another.
-/

namespace ScenePack

/-- The records of a scene's objects, all in one layout (`ObjectBuffer`). -/
inductive ObjectArray where
  | generic (records : Array ObjectRecord)
  | legacy (records : Array LegacyRecord)
  deriving DecidableEq, BEq, Repr

namespace ObjectArray

/-- The array of a layout without objects. -/
def empty : ObjectLayout → ObjectArray
  | .generic => generic #[]
  | .legacy => legacy #[]

def layout : ObjectArray → ObjectLayout
  | generic _ => .generic
  | legacy _ => .legacy

/-- The number of objects. -/
def size : ObjectArray → Nat
  | generic records => records.size
  | legacy records => records.size

def isEmpty (a : ObjectArray) : Bool := a.size = 0

/-- The size of one record in bytes. -/
def stride (a : ObjectArray) : Nat := a.layout.stride

/-- The words of each record, in upload order. -/
def words : ObjectArray → List (List UInt32)
  | generic records => records.toList.map (·.words)
  | legacy records => records.toList.map (·.words)

/-- Add the record of an object whose material has the given position. -/
def push (a : ObjectArray) (o : SceneObject) (material : UInt32) : ObjectArray :=
  match a with
  | generic records => generic (records.push (o.pack material))
  | legacy records => legacy (records.push (o.packLegacy material))

end ObjectArray

/-- The objects packed so far, and the positions of the lights among them (`ObjectCompiler`). -/
structure ObjectAssembly where
  objects : ObjectArray
  lights : Array UInt32
  deriving DecidableEq, Repr

namespace ObjectAssembly

/-- Nothing is packed yet. -/
def start (layout : ObjectLayout) : ObjectAssembly := ⟨.empty layout, #[]⟩

/-- The position of the object that is packed next. -/
def next (a : ObjectAssembly) : Nat := a.objects.size

/-- Pack one more object (`ObjectCompiler::push`). -/
def push (a : ObjectAssembly) (o : SceneObject) (material : UInt32) : ObjectAssembly where
  objects := a.objects.push o material
  lights := if o.isLightSource then a.lights.push (UInt32.ofNat a.objects.size) else a.lights

/-- What packing one more object logs. -/
def pushLog (a : ObjectAssembly) (o : SceneObject) : List Event :=
  if o.isLight && o.shape = .plane then [.planeLight a.objects.size] else []

/-- What packing objects one after another comes to. -/
structure Run where
  /-- The position that each push answers. -/
  positions : List Nat
  assembly : ObjectAssembly
  log : List Event

/-- Pack objects, each with the position of its material, one after another. -/
def pushAll (a : ObjectAssembly) : List (SceneObject × UInt32) → Run
  | [] => ⟨[], a, []⟩
  | (o, material) :: rest =>
    let run := pushAll (a.push o material) rest
    ⟨a.next :: run.positions, run.assembly, a.pushLog o ++ run.log⟩

end ObjectAssembly

end ScenePack
