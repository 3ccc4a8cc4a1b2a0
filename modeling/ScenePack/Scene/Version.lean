import ScenePack.Text.Blank
import ScenePack.Text.Natural

/-!
# Schema versions

A scene names the version of its schema as `major.minor`. What stands behind a second point is not
read, and a missing minor number is 0. Version 0 scenes are compiled to the legacy object layout.
-/

namespace ScenePack

/-- How object records are laid out. -/
inductive ObjectLayout where
  /-- Two slots an object, spheres and planes only. -/
  | legacy
  /-- Four slots an object. -/
  | generic
  deriving DecidableEq, Repr

namespace ObjectLayout

/-- The name of a layout in reports. -/
def name : ObjectLayout → String
  | legacy => "Legacy"
  | generic => "Generic"

/-- The size of one record in bytes. -/
def stride : ObjectLayout → Nat
  | legacy => 32
  | generic => 64

end ObjectLayout

/-- The version of a scene's schema. -/
structure SchemaVersion where
  major : UInt32
  minor : UInt32
  deriving DecidableEq, Repr

namespace SchemaVersion

/-- The version of scenes that name none (`SchemaVersion::CURRENT`). -/
def current : SchemaVersion := ⟨1, 0⟩

/-- Read `major`, `major.minor` or `major.minor.rest`, blanks around it aside
(`SchemaVersion::parse`). -/
def parse? (text : String) : Option SchemaVersion := do
  let cs := Text.trim text.toList
  let major ← Text.count32? (cs.takeWhile (· ≠ '.'))
  match cs.dropWhile (· ≠ '.') with
  | [] => return ⟨major, 0⟩
  | _ :: rest => return ⟨major, ← Text.count32? (rest.takeWhile (· ≠ '.'))⟩

/-- The text of a version. -/
def text (v : SchemaVersion) : String :=
  toString v.major.toNat ++ "." ++ toString v.minor.toNat

/-- The layout that scenes of a version are compiled to (`SchemaVersion::object_layout`). -/
def layout (v : SchemaVersion) : ObjectLayout := if v.major = 0 then .legacy else .generic

/-- Versions are ordered by major, then by minor number. -/
instance : Ord SchemaVersion :=
  ⟨fun v w => (compare v.major w.major).then (compare v.minor w.minor)⟩

end SchemaVersion

end ScenePack
