import ScenePack.Binary.Double
import ScenePack.Text.Natural

/-!
# TOML values

The values of a TOML document, and the ones that are written without brackets or quotes: numbers,
truth values, dates and times. `Value.ofWord?` reads such a word; underscores may stand between
digits.
-/

namespace ScenePack.Toml

/-- How a table came about, which decides how it may still grow. -/
inductive TableKind where
  /-- Written in braces; it is complete. -/
  | inline
  /-- Named on the way to another header; its own header may follow. -/
  | implied
  /-- Named on the way by a dotted key; dotted keys may add to it. -/
  | dotted
  /-- It has a header. -/
  | header
  deriving DecidableEq, Repr

/-- A TOML value. -/
inductive Value where
  | string (s : String)
  | integer (n : Int)
  | float (x : Double)
  | boolean (b : Bool)
  /-- A date, a time or both. -/
  | moment
  | array (items : List Value)
  | table (kind : TableKind) (entries : List (String × Value))
  /-- The tables of a repeated header. -/
  | tables (bodies : List (List (String × Value)))
  deriving Repr

/-- The keys of a table with their values. -/
abbrev Entries := List (String × Value)

/-- The value of a key. -/
def Entries.get? (entries : Entries) (key : String) : Option Value := entries.lookup key

/-! ## Numbers -/

/-- Digits of some kind with single underscores between them; the digits without those. -/
def digits? (isDigit : Char → Bool) : List Char → Option (List Char)
  | [] => none
  | [c] => if isDigit c then some [c] else none
  | c :: '_' :: rest => if isDigit c then (digits? isDigit rest).map (c :: ·) else none
  | c :: rest => if isDigit c then (digits? isDigit rest).map (c :: ·) else none

/-- Whether a sign is a minus, and what stands behind it. -/
def splitSign : List Char → Bool × List Char
  | '+' :: rest => (false, rest)
  | '-' :: rest => (true, rest)
  | cs => (false, cs)

/-- Decimal digits without a needless zero in front. -/
def plainDigits? (cs : List Char) : Option (List Char) := do
  let ds ← digits? Char.isDigit cs
  if ds.head? = some '0' ∧ 1 < ds.length then none else some ds

/-- An integer has to fit 64 bits with its sign. -/
def fitting? (n : Int) : Option Int :=
  if -0x8000000000000000 ≤ n ∧ n < 0x8000000000000000 then some n else none

/-- A natural number in digits of some base. -/
def natOfBase? (base : Nat) (cs : List Char) : Option Nat :=
  (digits? (Text.isDigitOf base) cs).map (Text.ofDigitsIn base)

/-- An integer: decimal with an optional sign, or in base 16, 8 or 2 behind its mark. -/
def integer? (cs : List Char) : Option Int :=
  match cs with
  | '0' :: 'x' :: rest => do fitting? (← natOfBase? 16 rest)
  | '0' :: 'o' :: rest => do fitting? (← natOfBase? 8 rest)
  | '0' :: 'b' :: rest => do fitting? (← natOfBase? 2 rest)
  | cs => do
    let (negative, cs) := splitSign cs
    let n := Text.ofDigits (← plainDigits? cs)
    fitting? (if negative then -(n : Int) else n)

/-- The exponent of a float behind its letter: any decimal digits with an optional sign. -/
def exponent? (cs : List Char) : Option Int := do
  let (negative, cs) := splitSign cs
  let n := Text.ofDigits (← digits? Char.isDigit cs)
  return if negative then -(n : Int) else n

/-- Whether a character marks an exponent. -/
def isExponentMark (c : Char) : Bool := c = 'e' || c = 'E'

/-- A float: whole digits, then a fraction or an exponent or both. One beyond all doubles is
refused if it is positive. -/
def float? (cs : List Char) : Option Double := do
  let (negative, cs) := splitSign cs
  if cs = ['i', 'n', 'f'] then return Double.ofNumber ⟨negative, BinaryFormat.double.infinity⟩
  if cs = ['n', 'a', 'n'] then return Double.ofNumber BinaryFormat.double.nan
  let mantissa := cs.takeWhile (!isExponentMark ·)
  let exponent ← match cs.dropWhile (!isExponentMark ·) with
    | [] => if mantissa.contains '.' then some 0 else none
    | _ :: rest => exponent? rest
  let whole ← plainDigits? (mantissa.takeWhile (· ≠ '.'))
  let fraction ← match mantissa.dropWhile (· ≠ '.') with
    | [] => some []
    | _ :: rest => digits? Char.isDigit rest
  let x := Double.ofDecimal negative (Text.ofDigits (whole ++ fraction))
    (exponent - fraction.length)
  if x.isInfinite && !negative then none else some x

/-! ## Dates and times -/

/-- Two decimal digits. -/
def two? (a b : Char) : Option Nat := Text.natural? [a, b]

/-- The number of days of a month. -/
def daysIn (year month : Nat) : Nat :=
  if month = 2 then
    if year % 4 = 0 ∧ (year % 100 ≠ 0 ∨ year % 400 = 0) then 29 else 28
  else if month = 4 ∨ month = 6 ∨ month = 9 ∨ month = 11 then 30
  else 31

/-- A date of the calendar. -/
def isDate : List Char → Bool
  | [y1, y2, y3, y4, '-', m1, m2, '-', d1, d2] =>
    match Text.natural? [y1, y2, y3, y4], two? m1 m2, two? d1 d2 with
    | some year, some month, some day =>
      1 ≤ month && month ≤ 12 && 1 ≤ day && day ≤ daysIn year month
    | _, _, _ => false
  | _ => false

/-- Hours and minutes. -/
def isClock : List Char → Bool
  | [h1, h2, ':', m1, m2] =>
    match two? h1 h2, two? m1 m2 with
    | some hour, some minute => hour < 24 && minute < 60
    | _, _ => false
  | _ => false

/-- A time with seconds, which may have a fraction and be a leap second. -/
def isTime (cs : List Char) : Bool :=
  isClock (cs.take 5) &&
    match cs.drop 5 with
    | ':' :: s1 :: s2 :: rest =>
      (two? s1 s2).any (· ≤ 60) &&
        match rest with
        | [] => true
        | '.' :: fraction => !fraction.isEmpty && fraction.all Char.isDigit
        | _ => false
    | _ => false

/-- How far a time is from the one of the zero meridian. -/
def isOffset : List Char → Bool
  | ['Z'] | ['z'] => true
  | '+' :: rest | '-' :: rest => isClock rest
  | _ => false

/-- A time, which may say how far it is from the one of the zero meridian. -/
def isTimeWithOffset (cs : List Char) : Bool :=
  let isMark (c : Char) : Bool := c = 'Z' || c = 'z' || c = '+' || c = '-'
  isTime (cs.takeWhile (!isMark ·)) &&
    (let rest := cs.dropWhile (!isMark ·); rest.isEmpty || isOffset rest)

/-- A date, a time, or a date with a time behind a `T`. -/
def isMoment (cs : List Char) : Bool :=
  isDate cs || isTime cs ||
    (isDate (cs.take 10) &&
      match cs.drop 10 with
      | 'T' :: rest | 't' :: rest => isTimeWithOffset rest
      | _ => false)

/-! ## Words -/

/-- The value of a word. -/
def Value.ofWord? (cs : List Char) : Option Value :=
  if cs = ['t', 'r', 'u', 'e'] then some (.boolean true)
  else if cs = ['f', 'a', 'l', 's', 'e'] then some (.boolean false)
  else if isMoment cs then some .moment
  else match integer? cs with
    | some n => some (.integer n)
    | none => (float? cs).map .float

end ScenePack.Toml
