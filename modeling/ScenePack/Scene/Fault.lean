import ScenePack.Json.Fault
import ScenePack.Json.Printer
import ScenePack.Text.Quoted
import ScenePack.Violation

/-!
# Faults of scene text

What can be wrong with a scene text, and where (`SceneError::Syntax`): at a place of the text when
it is no JSON, else at a field of the JSON tree, named by the keys and positions that lead to it.
-/

namespace ScenePack

/-- One step into a JSON tree. -/
inductive PathStep where
  | key (name : String)
  | index (i : Nat)
  deriving DecidableEq, Repr

/-- What a field is wanted to hold. -/
inductive Wanted where
  | single
  | count
  | bool
  | string
  | variant
  | unit
  | bloom
  deriving DecidableEq, Repr

/-- What is wrong with a scene text. -/
inductive Problem where
  | json (kind : Json.FaultKind) (place : Json.Position)
  | rootNotObject
  | notObject
  | notArray
  | wrongType (got : Json.Value) (want : Wanted)
  | notSingleKey
  | unknownVariant (name : String) (known : List String)
  | notTemplate
  | unknownTemplate (tag : String)
  | notVersion
  | badVersion (text : String)
  | notCount (x : Double)
  | tooManyEntries (count : Nat)
  deriving Repr

/-- Where something is wrong with a scene text. -/
inductive Location where
  | root
  | text (place : Json.Position)
  | field (path : List PathStep)
  deriving DecidableEq, Repr

/-- A problem inside some JSON value, and the way to it from there. -/
structure FieldFault where
  path : List PathStep
  problem : Problem
  deriving Repr

/-- A problem of a scene text and its place. -/
structure SceneFault where
  location : Location
  problem : Problem
  deriving Repr

namespace PathStep

/-- The text of a step behind others, or before all others. -/
def text (first : Bool) : PathStep → String
  | key name => if first then name else "." ++ name
  | index i => "[" ++ toString i ++ "]"

/-- A path as text: keys with points between, positions in brackets. -/
def pathText : List PathStep → String
  | [] => ""
  | step :: rest => step.text true ++ String.join (rest.map (text false))

end PathStep

namespace Location

/-- A location in messages. -/
def render : Location → String
  | root => "$"
  | text place => "line " ++ toString place.line ++ ", column " ++ toString place.column
  | field path => PathStep.pathText path

end Location

namespace Wanted

/-- The words for what is wanted. -/
def name : Wanted → String
  | single => "f32"
  | count => "f64"
  | bool => "a boolean"
  | string => "a string"
  | variant => "string or map"
  | unit => "unit"
  | bloom => "struct BloomSettings"

end Wanted

/-- A name between backquotes. -/
def backquoted (name : String) : String := "\x60" ++ name ++ "\x60"

namespace Problem

/-- The words for what a value is. -/
def kindOf : Json.Value → String
  | .null => "null"
  | .bool b => "boolean " ++ backquoted (if b then "true" else "false")
  | .number (.integer n) => "integer " ++ backquoted (toString n)
  | .number (.real x) => "floating point " ++ backquoted (Json.printDouble x)
  | .string s => "string " ++ Text.quoted s
  | .array _ => "sequence"
  | .object _ => "map"

/-- The names that are known, as a choice. -/
def choice : List String → String
  | [a, b] => "expected " ++ backquoted a ++ " or " ++ backquoted b
  | names => "expected one of " ++ ", ".intercalate (names.map backquoted)

/-- What is wrong, in words. -/
def message : Problem → String
  | json kind place =>
    kind.message ++ " at line " ++ toString place.line ++ " column " ++ toString place.column
  | rootNotObject => "scene root must be a JSON object"
  | notObject => "expected an object"
  | notArray => "expected an array"
  | wrongType got want => "invalid type: " ++ kindOf got ++ ", expected " ++ want.name
  | notSingleKey => "invalid value: map, expected map with a single key"
  | unknownVariant name known => "unknown variant " ++ backquoted name ++ ", " ++ choice known
  | notTemplate => "a material template name"
  | unknownTemplate tag => "unknown material template '" ++ tag ++ "'"
  | notVersion => "a version string or number"
  | badVersion text => "'" ++ text ++ "' is not a 'major.minor' version"
  | notCount x => "expected a non-negative whole number, got " ++ x.messageText
  | tooManyEntries count =>
    "invalid length " ++ toString count ++ ", expected fewer elements in array"

end Problem

end ScenePack
