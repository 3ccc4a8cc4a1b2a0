import ScenePack.Decimal.Style
import ScenePack.Json.Value

/-!
# Printing JSON

Values are printed as `Value::to_string` does it, without blanks and with fields in the order of
their keys. A number that is no integer is printed by its shortest decimal, of two equally near ones
the even, positionally where its leading digit stands between the fifth place behind the point and
the sixteenth before it.
-/

namespace ScenePack.Json

/-- How JSON text writes numbers. -/
def numberStyle : DecimalStyle where
  tie := .toEven
  positional := some (-5, 15)
  point := true
  nan := "null"

/-- The text of a double. -/
def printDouble (x : Double) : String := numberStyle.render .double x.number

/-- The text of a number. -/
def Number.print : Number → String
  | .integer n => toString n
  | .real x => printDouble x

/-- The characters that stand for `c` in a string. -/
def printChar (c : Char) : List Char :=
  match c with
  | '"' => ['\\', '"']
  | '\\' => ['\\', '\\']
  | '\x08' => ['\\', 'b']
  | '\t' => ['\\', 't']
  | '\n' => ['\\', 'n']
  | '\x0c' => ['\\', 'f']
  | '\r' => ['\\', 'r']
  | c =>
    if c < ' ' then
      ['\\', 'u', '0', '0', Nat.digitChar (c.toNat / 16), Nat.digitChar (c.toNat % 16)]
    else [c]

/-- A string between quotes. -/
def printString (s : String) : String :=
  String.ofList ('"' :: s.toList.flatMap printChar ++ ['"'])

mutual

/-- The text of a value, without blanks. -/
def Value.print : Value → String
  | .null => "null"
  | .bool b => if b then "true" else "false"
  | .number n => n.print
  | .string s => printString s
  | .array items => "[" ++ ",".intercalate (printItems items) ++ "]"
  | .object fields => "\x7b" ++ ",".intercalate (printFields fields) ++ "\x7d"

/-- The texts of the items of a list. -/
def printItems : List Value → List String
  | [] => []
  | v :: rest => v.print :: printItems rest

/-- The texts of the fields of an object. -/
def printFields : List (String × Value) → List String
  | [] => []
  | (key, v) :: rest => (printString key ++ ":" ++ v.print) :: printFields rest

end

end ScenePack.Json
