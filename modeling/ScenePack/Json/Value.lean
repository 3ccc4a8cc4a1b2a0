import ScenePack.Binary.Double

/-!
# JSON values

A number keeps whether it was written as an integer. The fields of an object are in the order of
their keys, each key once; a key that is written again replaces the value before it.
-/

namespace ScenePack.Json

/-- A JSON number: an integer that fits 64 bits, or the double nearest to anything else. -/
inductive Number where
  | integer (n : Int)
  | real (x : Double)
  deriving DecidableEq, Repr

/-- A JSON value. -/
inductive Value where
  | null
  | bool (b : Bool)
  | number (n : Number)
  | string (s : String)
  | array (items : List Value)
  | object (fields : List (String × Value))
  deriving Repr, Inhabited

/-- The fields of an object, ascending by key. -/
abbrev Fields := List (String × Value)

namespace Fields

/-- The value of a key. -/
def get? (fields : Fields) (key : String) : Option Value :=
  (fields.find? (·.1 = key)).map (·.2)

/-- Give a key a value, in its place by order of keys. -/
def insert (key : String) (v : Value) : Fields → Fields
  | [] => [(key, v)]
  | (k, w) :: rest =>
    if key < k then (key, v) :: (k, w) :: rest
    else if key = k then (key, v) :: rest
    else (k, w) :: insert key v rest

end Fields

namespace Number

/-- The nearest double. -/
def toDouble : Number → Double
  | integer n => Double.ofInt n
  | real x => x

/-- The single that a number field reads: an integer is rounded once, a double is narrowed. -/
def toSingle : Number → Single
  | integer n => Single.ofInt n
  | real x => x.toSingle

end Number

namespace Value

def isNull : Value → Bool
  | null => true
  | _ => false

end Value

end ScenePack.Json
