import ScenePack.Decimal.Style
import ScenePack.Settings.Assignment
import ScenePack.Toml.Reader

/-!
# Settings in TOML

A settings file assigns its keys at the root of the document; other keys are not looked at. TOML
integers are signed, so a limit beyond 63 bits cannot be written.
-/

namespace ScenePack

/-- How TOML writes numbers: a single by the shortest decimal of the double that equals it. -/
def tomlStyle : DecimalStyle where
  tie := .upward
  positional := none
  point := true
  nan := "nan"

namespace SettingName

/-- The assignment that a TOML value makes; a number field takes an integer too. -/
def ofToml? (s : SettingName) (v : Toml.Value) : Option Assignment :=
  match s, v with
  | templateFallback, .boolean b => some (.templateFallback b)
  | planeNormalEpsilon, .float x => some (.planeNormalEpsilon x.toSingle)
  | planeNormalEpsilon, .integer n => some (.planeNormalEpsilon (Single.ofInt n))
  | maxObjects, .integer n => if 0 ≤ n then some (.maxObjects (UInt64.ofNat n.toNat)) else none
  | maxMaterials, .integer n => if 0 ≤ n then some (.maxMaterials (UInt64.ofNat n.toNat)) else none
  | maxLights, .integer n => if 0 ≤ n then some (.maxLights (UInt64.ofNat n.toNat)) else none
  | _, _ => none

end SettingName

namespace Assignment

/-- A limit in TOML. -/
def tomlLimit? (n : UInt64) : Option String :=
  if n.toNat < 0x8000000000000000 then some (toString n.toNat) else none

/-- The text of a value in TOML. -/
def tomlValue? : Assignment → Option String
  | templateFallback b => some (if b then "true" else "false")
  | planeNormalEpsilon x => some (tomlStyle.render .double x.toDouble.number)
  | maxObjects n => tomlLimit? n
  | maxMaterials n => tomlLimit? n
  | maxLights n => tomlLimit? n

/-- The line of an assignment in TOML. -/
def tomlLine? (a : Assignment) : Option String :=
  a.tomlValue?.map fun text => a.name.key ++ " = " ++ text ++ "\n"

end Assignment

namespace Settings

/-- Read settings from the text of a TOML document. -/
def ofToml? (text : String) : Option Settings := do
  let root ← Toml.parse? text.toList
  let as ← root.filterMapM fun (key, v) =>
    match SettingName.ofKey? key with
    | none => some none
    | some s => (s.ofToml? v).map some
  ofAssignments? as

/-- The TOML document of settings (`toml::to_string_pretty`). -/
def toToml? (s : Settings) : Option String := do
  let lines ← SettingName.all.mapM fun name => (s.get name).tomlLine?
  return String.join lines

end Settings

end ScenePack
