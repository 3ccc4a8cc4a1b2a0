import ScenePack.Binary.Single

/-!
# Double-precision numbers

A `Double` is its 64-bit word. JSON and TOML numbers that are not integers are doubles; scenes
narrow them to singles.
-/

namespace ScenePack

/-- A double-precision number, as its word. -/
structure Double where
  bits : UInt64
  deriving DecidableEq, Repr, Inhabited

namespace Double

/-- The bit of the sign. -/
def signBit : Nat := 0x8000000000000000

/-- Sign and magnitude. -/
def number (x : Double) : BinaryNumber :=
  ⟨signBit ≤ x.bits.toNat, x.bits.toNat % signBit⟩

/-- The word of a sign and a magnitude. -/
def ofNumber (x : BinaryNumber) : Double :=
  ⟨UInt64.ofNat ((if x.negative then signBit else 0) + x.magnitude)⟩

/-- The double nearest to an integer. -/
def ofInt (n : Int) : Double := ofNumber (BinaryFormat.double.ofInt n)

/-- The double nearest to a decimal. -/
def ofDecimal (negative : Bool) (coefficient : Nat) (exponent : Int) : Double :=
  ofNumber (BinaryFormat.double.ofDecimal negative coefficient exponent)

/-- The nearest single. -/
def toSingle (x : Double) : Single :=
  Single.ofNumber (BinaryFormat.double.convert BinaryFormat.single x.number)

def isFinite (x : Double) : Bool := BinaryFormat.double.isFinite x.number

def isInfinite (x : Double) : Bool := BinaryFormat.double.isInfinite x.number

def neg (x : Double) : Double := ofNumber (BinaryFormat.neg x.number)

def mul (x y : Double) : Double := ofNumber (BinaryFormat.double.mul x.number y.number)

def div (x y : Double) : Double := ofNumber (BinaryFormat.double.div x.number y.number)

/-- The value as a 32-bit count, if it is a whole number in range; negative zero is zero. -/
def toCount? (x : Double) : Option UInt32 :=
  let F := BinaryFormat.double
  let units := F.units x.number.magnitude
  let whole := units / F.one
  if F.isFinite x.number ∧ units % F.one = 0 ∧ whole < UInt32.size
      ∧ (x.number.negative = false ∨ whole = 0) then
    some (UInt32.ofNat whole)
  else none

end Double

/-- The double of the same value. -/
def Single.toDouble (x : Single) : Double :=
  Double.ofNumber (BinaryFormat.single.convert BinaryFormat.double x.number)

end ScenePack
