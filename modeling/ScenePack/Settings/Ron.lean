import ScenePack.Decimal.Style
import ScenePack.Ron.Structure
import ScenePack.Settings.Assignment

/-!
# Settings in RON

A settings file is one structure, with or without its name. The values of fields that are no
settings are passed over.
-/

namespace ScenePack

/-- How RON writes numbers: a single by its own shortest decimal. -/
def ronStyle : DecimalStyle where
  tie := .upward
  positional := none
  point := true
  nan := "NaN"

/-- The steps that a document may go into its values. The first goes into its own brackets. -/
def ronDepth : Nat := 128

namespace SettingName

open Text (Parser)

/-- The assignment that a RON value makes. -/
def ronValue : SettingName → Parser Assignment
  | templateFallback => .templateFallback <$> Ron.bool
  | planeNormalEpsilon => .planeNormalEpsilon <$> Ron.single
  | maxObjects => .maxObjects <$> Ron.natural64
  | maxMaterials => .maxMaterials <$> Ron.natural64
  | maxLights => .maxLights <$> Ron.natural64

/-- The assignment of a field, if it is a setting. -/
def ronField (enabled : List Ron.Extension) (key : String) : Parser (Option Assignment) :=
  match ofKey? key with
  | some s => some <$> s.ronValue
  | none => do Ron.skipItem enabled (ronDepth - 1); return none

end SettingName

namespace Assignment

/-- The text of a value in RON. -/
def ronText : Assignment → String
  | templateFallback b => if b then "true" else "false"
  | planeNormalEpsilon x => ronStyle.render .single x.number
  | maxObjects n => toString n.toNat
  | maxMaterials n => toString n.toNat
  | maxLights n => toString n.toNat

/-- The line of an assignment in RON. -/
def ronLine (a : Assignment) : String := "    " ++ a.name.key ++ ": " ++ a.ronText ++ ",\n"

end Assignment

namespace Settings

/-- Read settings from the text of a RON document (`ron::from_str`). -/
def ofRon? (text : String) : Option Settings := do
  let as ← Text.Parser.run (Ron.fields "CompilerConfig" SettingName.ronField) text.toList
  ofAssignments? (as.filterMap id)

/-- The RON document of settings (`ron::ser::to_string_pretty`). -/
def toRon (s : Settings) : String :=
  "(\n" ++ String.join (SettingName.all.map fun name => (s.get name).ronLine) ++ ")"

end Settings

end ScenePack
