import ScenePack.Settings

/-!
# Settings from assignments

A settings file is a list of assignments to some of the settings, in any order. What it does not
assign keeps its default, and nothing is assigned twice.

* `SettingName`, `Assignment`: the settings by name, and with a value.
* `Settings.get` and `Settings.assign` read and write one setting.
* `Settings.ofAssignments?` makes settings of a file's assignments.
-/

namespace ScenePack

/-- The settings by name. -/
inductive SettingName where
  | templateFallback
  | planeNormalEpsilon
  | maxObjects
  | maxMaterials
  | maxLights
  deriving DecidableEq, Repr

/-- A setting and a value for it. -/
inductive Assignment where
  | templateFallback (b : Bool)
  | planeNormalEpsilon (x : Single)
  | maxObjects (n : UInt64)
  | maxMaterials (n : UInt64)
  | maxLights (n : UInt64)
  deriving DecidableEq, Repr

namespace SettingName

/-- All settings, in the order in which they are written. -/
def all : List SettingName :=
  [templateFallback, planeNormalEpsilon, maxObjects, maxMaterials, maxLights]

/-- The key of a setting in files. -/
def key : SettingName → String
  | templateFallback => "template_fallback"
  | planeNormalEpsilon => "plane_normal_epsilon"
  | maxObjects => "max_objects"
  | maxMaterials => "max_materials"
  | maxLights => "max_lights"

/-- The setting of a key. -/
def ofKey? (key : String) : Option SettingName := all.find? fun s => s.key = key

end SettingName

namespace Assignment

/-- The setting that is assigned. -/
def name : Assignment → SettingName
  | templateFallback _ => .templateFallback
  | planeNormalEpsilon _ => .planeNormalEpsilon
  | maxObjects _ => .maxObjects
  | maxMaterials _ => .maxMaterials
  | maxLights _ => .maxLights

end Assignment

namespace Settings

/-- The value of a setting. -/
def get (s : Settings) : SettingName → Assignment
  | .templateFallback => .templateFallback s.templateFallback
  | .planeNormalEpsilon => .planeNormalEpsilon s.planeNormalEpsilon
  | .maxObjects => .maxObjects s.maxObjects
  | .maxMaterials => .maxMaterials s.maxMaterials
  | .maxLights => .maxLights s.maxLights

/-- Give a setting a value. -/
def assign (s : Settings) : Assignment → Settings
  | .templateFallback b => { s with templateFallback := b }
  | .planeNormalEpsilon x => { s with planeNormalEpsilon := x }
  | .maxObjects n => { s with maxObjects := n }
  | .maxMaterials n => { s with maxMaterials := n }
  | .maxLights n => { s with maxLights := n }

/-- The defaults with some settings assigned, each at most once. -/
def ofAssignments? (as : List Assignment) : Option Settings :=
  if (as.map (·.name)).Nodup then some (as.foldl assign default) else none

end Settings

end ScenePack
