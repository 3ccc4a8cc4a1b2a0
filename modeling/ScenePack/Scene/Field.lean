import ScenePack.Log.Outcome
import ScenePack.Scene.Fault

/-!
# Reading fields

Model of the `fields` of the description parser: readers of the JSON values that stand in the fields
of a scene. Scalars are strict: another type is
a fault. Vectors are lenient: whatever is no list of at least three numbers is left aside, which is
logged unless it is `null`.

* `Reading` is what reading a field comes to: a value or a `FieldFault`, and what was logged.
* `Field.single`, `count`, `bool`, `string`, `variant`: the strict scalars.
* `Field.vec3`, `sparseVec3`: the lenient vectors, with and without a value that stands in.
* `Field.lookup` finds a field by its key and says its key in a fault.
-/

namespace ScenePack

/-- A field that was read, or what is wrong with it. -/
abbrev Reading (α : Type) := Outcome FieldFault α

namespace Reading

variable {α : Type}

/-- A problem with the value itself. -/
def problem (p : Problem) : Reading α := Outcome.fail ⟨[], p⟩

/-- What is wrong inside, seen from one step further out. -/
def within (step : PathStep) (x : Reading α) : Reading α :=
  x.mapError fun fault => { fault with path := step :: fault.path }

end Reading

namespace Field

open Json (Value Fields)

variable {α : Type}

/-- A number, as a single. -/
def single : Value → Reading Single
  | .number n => pure n.toSingle
  | v => Reading.problem (.wrongType v .single)

/-- A count may be written as any number, but has to be whole and fit 32 bits (`whole_u32`). -/
def count : Value → Reading UInt32
  | .number n =>
    match n.toDouble.toCount? with
    | some c => pure c
    | none => Reading.problem (.notCount n.toDouble)
  | v => Reading.problem (.wrongType v .count)

/-- A truth value. -/
def bool : Value → Reading Bool
  | .bool b => pure b
  | v => Reading.problem (.wrongType v .bool)

/-- A string. -/
def string : Value → Reading String
  | .string s => pure s
  | v => Reading.problem (.wrongType v .string)

/-- A field in which `null` is the same as no field. -/
def nullable (read : Value → Reading α) : Value → Reading (Option α)
  | .null => pure none
  | v => some <$> read v

/-- The vector of a list whose first three items are numbers (`parse_vec3`). -/
def vec3? : Value → Option Vec3
  | .array (.number x :: .number y :: .number z :: _) =>
    some ⟨x.toDouble.toSingle, y.toDouble.toSingle, z.toDouble.toSingle⟩
  | _ => none

/-- A vector, if it is one (`sparse_vec3`, on `lenient_vec3`). -/
def sparseVec3 (v : Value) : Reading (Option Vec3) :=
  match vec3? v with
  | some u => pure (some u)
  | none => if v.isNull then pure none else do Outcome.emit (.vectorIgnored v); pure none

/-- A vector, or what stands in for it (`vec3_or`). -/
def vec3 (fallback : Vec3) (v : Value) : Reading Vec3 := (·.getD fallback) <$> sparseVec3 v

/-- One of several names: a string, or an object with one key whose value is `null`. -/
def variant (known : List String) (ofName? : String → Option α) : Value → Reading α
  | .string name =>
    match ofName? name with
    | some a => pure a
    | none => Reading.problem (.unknownVariant name known)
  | .object [(name, inner)] =>
    match ofName? name with
    | none => Reading.problem (.unknownVariant name known)
    | some a =>
      if inner.isNull then pure a
      else Reading.within (.key name) (Reading.problem (.wrongType inner .unit))
  | .object _ => Reading.problem .notSingleKey
  | v => Reading.problem (.wrongType v .variant)

/-- The value of a key as `read` reads it, or `absent` when there is no such key. -/
def lookup (fields : Fields) (key : String) (absent : α) (read : Value → Reading α) : Reading α :=
  match fields.get? key with
  | none => pure absent
  | some v => Reading.within (.key key) (read v)

end Field

end ScenePack
