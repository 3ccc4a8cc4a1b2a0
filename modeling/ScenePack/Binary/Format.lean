/-!
# Binary floating-point formats

A format is fixed by the width of its fraction and of its exponent. A number of a format is a sign
and a magnitude word; the words below infinity are the finite magnitudes in increasing order, the
words above it are not numbers.

* `units` reads a finite magnitude as a whole multiple of the least positive one, so that every
  finite number is an integer and arithmetic on numbers is arithmetic on integers.
* `round` gives the magnitude nearest to a fraction of units, ties to the even word; what lies too
  high becomes infinity.
* `add`, `mul`, `div` and `sqrt` are exact results rounded once.
-/

namespace ScenePack

/-- A binary floating-point format: how many bits its fraction and its exponent have. -/
structure BinaryFormat where
  fractionBits : Nat
  exponentBits : Nat
  deriving DecidableEq, Repr

/-- A number of some format: its sign, and its exponent and fraction as one magnitude word. -/
structure BinaryNumber where
  negative : Bool
  magnitude : Nat
  deriving DecidableEq, Repr, Inhabited

/-- The whole number nearest to `num / den`; a tie goes to the even one. -/
def roundHalfEven (num den : Nat) : Nat :=
  let q := num / den
  let r := num % den
  if 2 * r < den ∨ (2 * r = den ∧ q % 2 = 0) then q else q + 1

/-- The floor of the square root of `n`, for `n` of at most `digits` base-four digits. -/
def floorSqrtDigits : Nat → Nat → Nat
  | 0, _ => 0
  | digits + 1, n =>
    let r := 2 * floorSqrtDigits digits (n / 4)
    if (r + 1) * (r + 1) ≤ n then r + 1 else r

/-- The floor of the square root. -/
def floorSqrt (n : Nat) : Nat := floorSqrtDigits (n.log2 / 2 + 1) n

namespace BinaryFormat

/-- The 32-bit format. -/
def single : BinaryFormat := ⟨23, 8⟩

/-- The 64-bit format. -/
def double : BinaryFormat := ⟨52, 11⟩

variable (F : BinaryFormat)

/-- The bit before the fraction, which normal numbers have without writing it. -/
def hiddenBit : Nat := Nat.pow 2 F.fractionBits

/-- The magnitude word of infinity. -/
def infinity : Nat := (Nat.pow 2 F.exponentBits - 1) * F.hiddenBit

/-- The least positive number is `2 ^ (-F.unitExponent)`. -/
def unitExponent : Nat := Nat.pow 2 (F.exponentBits - 1) - 2 + F.fractionBits

/-- One, in units. -/
def one : Nat := Nat.pow 2 F.unitExponent

/-- The value of a finite magnitude word, as a multiple of the least positive number. -/
def units (w : Nat) : Nat :=
  if w < F.hiddenBit then w
  else (F.hiddenBit + w % F.hiddenBit) * Nat.pow 2 (w / F.hiddenBit - 1)

/-- The magnitude nearest to `num / den` units. The quotient loses as many binary places as it has
beyond the significand's width; the carry of a significand that rounds up to the next power of two
moves the word on to the next exponent by itself. -/
def round (num den : Nat) : Nat :=
  let shift := (num / den).log2 - F.fractionBits
  min (shift * F.hiddenBit + roundHalfEven num (den * Nat.pow 2 shift)) F.infinity

/-! ## Classes of numbers -/

/-- Neither infinite nor a NaN. -/
def isFinite (x : BinaryNumber) : Bool := x.magnitude < F.infinity

def isInfinite (x : BinaryNumber) : Bool := x.magnitude = F.infinity

def isNaN (x : BinaryNumber) : Bool := F.infinity < x.magnitude

/-- The NaN that invalid operations give. -/
def nan : BinaryNumber := ⟨false, F.infinity + F.hiddenBit / 2⟩

/-- The value of a finite number, in units. -/
def signedUnits (x : BinaryNumber) : Int :=
  if x.negative then -(F.units x.magnitude : Int) else F.units x.magnitude

/-! ## Arithmetic -/

/-- The number nearest to a fraction of units, with the given sign. -/
def ofFraction (negative : Bool) (num den : Nat) : BinaryNumber := ⟨negative, F.round num den⟩

/-- The number nearest to a natural number. -/
def ofNat (n : Nat) : BinaryNumber := F.ofFraction false (n * F.one) 1

/-- The number nearest to an integer. -/
def ofInt (n : Int) : BinaryNumber := F.ofFraction (n < 0) (n.natAbs * F.one) 1

/-- The number nearest to `coefficient * 10 ^ exponent`, with the given sign. Exponents so far out
that the answer is infinite or zero are not multiplied out. -/
def ofDecimal (negative : Bool) (coefficient : Nat) (exponent : Int) : BinaryNumber :=
  if coefficient = 0 then ⟨negative, 0⟩
  else if exponent > F.unitExponent then ⟨negative, F.infinity⟩
  else if exponent < -(F.unitExponent + coefficient.log2 + 2 : Int) then ⟨negative, 0⟩
  else if 0 ≤ exponent then
    F.ofFraction negative (coefficient * Nat.pow 10 exponent.toNat * F.one) 1
  else F.ofFraction negative (coefficient * F.one) (Nat.pow 10 (-exponent).toNat)

def neg (x : BinaryNumber) : BinaryNumber := { x with negative := !x.negative }

def add (x y : BinaryNumber) : BinaryNumber :=
  if F.isNaN x || F.isNaN y then F.nan
  else if F.isInfinite x then
    if F.isInfinite y && x.negative != y.negative then F.nan else x
  else if F.isInfinite y then y
  else
    let sum := F.signedUnits x + F.signedUnits y
    if sum = 0 then ⟨x.negative && y.negative, 0⟩
    else F.ofFraction (sum < 0) sum.natAbs 1

def sub (x y : BinaryNumber) : BinaryNumber := F.add x (neg y)

def mul (x y : BinaryNumber) : BinaryNumber :=
  let negative := x.negative != y.negative
  if F.isNaN x || F.isNaN y then F.nan
  else if F.isInfinite x || F.isInfinite y then
    if x.magnitude = 0 ∨ y.magnitude = 0 then F.nan else ⟨negative, F.infinity⟩
  else F.ofFraction negative (F.units x.magnitude * F.units y.magnitude) F.one

def div (x y : BinaryNumber) : BinaryNumber :=
  let negative := x.negative != y.negative
  if F.isNaN x || F.isNaN y then F.nan
  else if F.isInfinite x then if F.isInfinite y then F.nan else ⟨negative, F.infinity⟩
  else if F.isInfinite y then ⟨negative, 0⟩
  else if y.magnitude = 0 then if x.magnitude = 0 then F.nan else ⟨negative, F.infinity⟩
  else F.ofFraction negative (F.units x.magnitude * F.one) (F.units y.magnitude)

/-- The square root. The floor of the root of the units has more places than any significand, so
half a place above an inexact floor stands for what is lost below it. -/
def sqrt (x : BinaryNumber) : BinaryNumber :=
  if F.isNaN x then F.nan
  else if x.magnitude = 0 then x
  else if x.negative then F.nan
  else if F.isInfinite x then x
  else
    let square := F.units x.magnitude * F.one
    let root := floorSqrt square
    F.ofFraction false (2 * root + if root * root = square then 0 else 1) 2

/-- A number of one format as the nearest number of another. -/
def convert (G : BinaryFormat) (x : BinaryNumber) : BinaryNumber :=
  if F.isNaN x then G.nan
  else if F.isInfinite x then ⟨x.negative, G.infinity⟩
  else G.ofFraction x.negative (F.units x.magnitude * G.one) F.one

/-! ## Order -/

/-- An integer that grows with the number and is the same for the two zeros. -/
def orderKey (x : BinaryNumber) : Int :=
  if x.negative then -(x.magnitude : Int) else x.magnitude

def lt (x y : BinaryNumber) : Bool :=
  !F.isNaN x && !F.isNaN y && orderKey x < orderKey y

def le (x y : BinaryNumber) : Bool :=
  !F.isNaN x && !F.isNaN y && orderKey x ≤ orderKey y

/-- Equality of numbers: the zeros are equal, a NaN equals nothing. -/
def equal (x y : BinaryNumber) : Bool :=
  !F.isNaN x && !F.isNaN y && orderKey x = orderKey y

/-- The larger of two numbers; a NaN gives way to the other. -/
def max (x y : BinaryNumber) : BinaryNumber :=
  if F.isNaN x then y
  else if F.isNaN y then x
  else if orderKey x < orderKey y then y else x

end BinaryFormat

end ScenePack
