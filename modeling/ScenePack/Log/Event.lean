import ScenePack.Json.Printer
import ScenePack.Material.Overrides
import ScenePack.Scene.Version

/-!
# What is logged

Each thing worth a line of the log is an event; `line` is how the event is written.
-/

namespace ScenePack

/-- How much an event matters. -/
inductive LogLevel where
  | debug
  | info
  | warn
  deriving DecidableEq, Repr

namespace LogLevel

def name : LogLevel → String
  | debug => "DEBUG"
  | info => "INFO"
  | warn => "WARN"

end LogLevel

/-- Something worth a line of the log. -/
inductive Event where
  | loading (path : String)
  /-- A vector field held something else and was left aside. -/
  | vectorIgnored (v : Json.Value)
  /-- A material named no known template and was given the default one. -/
  | templateReplaced (material tag : String)
  | described (scene : String) (schema : SchemaVersion) (materials objects : Nat)
  | building (scene : String)
  | materialPlaced (name : String) (template : MaterialTemplate) (position : UInt32)
  /-- An object's material has no position, so the first one stands in. -/
  | materialMissing (name : String)
  /-- A plane was marked as a light, which it cannot be. -/
  | planeLight (object : Nat)
  | built (layout : ObjectLayout) (objects materials lights : Nat)
  deriving Repr

namespace Event

/-- How much an event matters. -/
def level : Event → LogLevel
  | loading _ | building _ | built .. => .info
  | described .. | materialPlaced .. => .debug
  | vectorIgnored _ | templateReplaced .. | materialMissing _ | planeLight _ => .warn

/-- The event in words. -/
def message : Event → String
  | loading path => "Loading scene file " ++ path
  | vectorIgnored v => "Ignoring malformed vector " ++ v.print ++ ": expected [x, y, z]"
  | templateReplaced material tag =>
    "Material '" ++ material ++ "': unknown template '" ++ tag ++ "', using default preset"
  | described scene schema materials objects =>
    "Parsed scene '" ++ scene ++ "' (schema " ++ schema.text ++ "): " ++ toString materials
      ++ " materials, " ++ toString objects ++ " objects"
  | building scene => "Building scene: " ++ scene
  | materialPlaced name template position =>
    "  Material '" ++ name ++ "' (" ++ template.tag ++ ") -> index " ++ toString position.toNat
  | materialMissing name => "Material '" ++ name ++ "' not found, using material 0"
  | planeLight object =>
    "Object " ++ toString object ++ ": planes cannot be sampled as lights, ignoring isLight"
  | built layout objects materials lights =>
    "Scene built: " ++ toString objects ++ " objects (" ++ layout.name ++ " layout), "
      ++ toString materials ++ " materials, " ++ toString lights ++ " lights"

/-- The line of the log. -/
def line (e : Event) : String := e.level.name ++ " " ++ e.message

end Event

end ScenePack
