import ScenePack.Proofs.Scene.Place
import ScenePack.Proofs.Scene.Schema

/-!
# The order of visits

Where a scene is looked at, in order, and whether what stands there offends. Sections come before
materials and those before objects. Of an object it is asked first whether it is one, then for its
fields, ascending by key; of a material there are two rounds, and so of an object. A field that is
missing is not visited, but that the version is one and that the template is known is asked in any
case.

* `Schema.places`: the fields of a schema.
* `Bloom.places`, `RenderSettings.places`, `Material.places`, `SceneObject.places`: what has more to
  it than one schema.
* `SceneReading.partPlaces`, `listPlaces`: a section and a list of the root.
* `SceneDescription.visits`: everything, from the root of a tree on.
-/

namespace ScenePack

open Json (Value Fields)

/-! ## Fields -/

namespace Json.Value

def isObject : Value → Bool
  | object _ => true
  | _ => false

def isArray : Value → Bool
  | array _ => true
  | _ => false

/-- The fields of an object; nothing else has any. -/
def fieldsOf : Value → Fields
  | object fields => fields
  | _ => []

/-- The items of an array; nothing else has any. -/
def itemsOf : Value → List Value
  | array items => items
  | _ => []

end Json.Value

/-- A place inside some JSON value. -/
abbrev FieldPlace := ScenePlace (List PathStep)

/-- A place seen from one step further out. -/
def ScenePlace.within (step : PathStep) : FieldPlace → FieldPlace := relocate (step :: ·)

namespace FieldType

/-- The one place of a value. -/
def place (t : FieldType) (v : Value) : FieldPlace := ⟨t.faultPath v, !t.fits v⟩

/-- The place of what is found one step further in, if anything is. -/
def placesAt (t : FieldType) (step : PathStep) : Option Value → List FieldPlace
  | none => []
  | some v => [(t.place v).within step]

end FieldType

/-- The fields of some rows of a schema. -/
def rowPlaces (fields : Fields) : List (String × FieldType) → List FieldPlace
  | [] => []
  | (key, t) :: rows => t.placesAt (.key key) (fields.get? key) ++ rowPlaces fields rows

/-- The fields of a schema. -/
def Schema.places (s : Schema) (fields : Fields) : List FieldPlace := rowPlaces fields s.fields

namespace Bloom

/-- The items of a list from position `i` on. -/
def itemPlaces (items : List Value) (i : Nat) : List FieldType → List FieldPlace
  | [] => []
  | t :: ts => t.placesAt (.index i) items[i]? ++ itemPlaces items (i + 1) ts

/-- Bloom settings are an object, or a list that is not too long. -/
def places : Value → List FieldPlace
  | .object fields => schema.places fields
  | .array items => itemPlaces items 0 itemTypes ++ [⟨[], decide (6 < items.length)⟩]
  | _ => [⟨[], true⟩]

end Bloom

/-- Bloom settings, then the fields behind them. -/
def RenderSettings.places (fields : Fields) : List FieldPlace :=
  (match fields.get? "bloom" with
    | none => []
    | some v => (Bloom.places v).map (.within (.key "bloom")))
  ++ schema.places fields

/-- The header of an entry, then its template, which is to be known, then its overrides. -/
def Material.places (fallback : Bool) (fields : Fields) : List FieldPlace :=
  MaterialHeader.schema.places fields
    ++ (⟨[.key "template"], !fallback && MaterialHeader.writesUnknown fields⟩
    :: MaterialOverrides.schema.places fields)

/-- What an object is, then its geometry. -/
def SceneObject.places (fields : Fields) : List FieldPlace :=
  schema.places fields ++ Geometry.schema.places fields

/-! ## Scenes -/

namespace SceneReading

variable (root : Fields) (key : String) (places : Fields → List FieldPlace)

/-- A value that has to be an object, then its fields. -/
def objectPlaces (path : List PathStep) (v : Value) : List (ScenePlace Location) :=
  ⟨.field path, !v.isObject⟩ ::
    (places v.fieldsOf).map (.relocate fun inner => .field (path ++ inner))

/-- A section, which may be missing or `null`. -/
def partPlaces : List (ScenePlace Location) :=
  match root.get? key with
  | none | some .null => []
  | some v => objectPlaces places [.key key] v

/-- A list that may be missing or `null`, but nothing else that is no array. -/
def itemsPlaces : List (ScenePlace Location) :=
  match root.get? key with
  | none | some .null => []
  | some v => [⟨.field [.key key], !v.isArray⟩]

/-- The entries of a list from position `i` on. -/
def entriesPlaces (i : Nat) : List Value → List (ScenePlace Location)
  | [] => []
  | v :: rest => objectPlaces places [.key key, .index i] v ++ entriesPlaces (i + 1) rest

/-- A list, then its entries. -/
def listPlaces : List (ScenePlace Location) :=
  itemsPlaces root key ++ entriesPlaces key places 0 (((root.get? key).map (·.itemsOf)).getD [])

end SceneReading

/-- The text of a version. -/
def SceneHeader.versionText? : Value → Option String
  | .string s => some s
  | .number n => some n.print
  | _ => none

namespace SceneInfo

/-- The text of the version that a root writes. -/
def versionText? (root : Fields) : Option String :=
  ((root.get? "scene").bind (·.fieldsOf.get? "version")).bind SceneHeader.versionText?

/-- The version, which has to be a `major.minor` one. -/
def versionPlace (root : Fields) : ScenePlace Location where
  location := .field [.key "scene", .key "version"]
  offends := (versionText? root).any fun text => (SchemaVersion.parse? text).isNone

end SceneInfo

namespace SceneDescription

open SceneReading

/-- Everything that is looked at from the fields of a root, in order. -/
def rootVisits (fallback : Bool) (root : Fields) : List (ScenePlace Location) :=
  partPlaces root "scene" SceneHeader.schema.places
    ++ (SceneInfo.versionPlace root
    :: (partPlaces root "camera" Camera.schema.places
    ++ (partPlaces root "sky" Sky.schema.places
    ++ (partPlaces root "render" RenderSettings.places
    ++ (listPlaces root "materials" (Material.places fallback)
    ++ listPlaces root "objects" SceneObject.places)))))

/-- **Everything that is looked at in a tree, in order.** -/
def visits (fallback : Bool) (v : Value) : List (ScenePlace Location) :=
  ⟨.root, !v.isObject⟩ :: rootVisits fallback v.fieldsOf

end SceneDescription

end ScenePack
