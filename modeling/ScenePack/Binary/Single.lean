import ScenePack.Binary.Format

/-!
# Single-precision numbers

A `Single` is its 32-bit word. `=` compares words; `==` compares numbers, so that the two zeros are
equal and a NaN differs from itself. Arithmetic is `BinaryFormat`'s in the 32-bit format.
-/

namespace ScenePack

/-- A single-precision number, as its word. -/
structure Single where
  bits : UInt32
  deriving DecidableEq, Repr, Inhabited

namespace Single

/-- The bit of the sign. -/
def signBit : Nat := 0x80000000

/-- Sign and magnitude. -/
def number (x : Single) : BinaryNumber :=
  ⟨signBit ≤ x.bits.toNat, x.bits.toNat % signBit⟩

/-- The word of a sign and a magnitude. -/
def ofNumber (x : BinaryNumber) : Single :=
  ⟨UInt32.ofNat ((if x.negative then signBit else 0) + x.magnitude)⟩

/-! ## Conversions -/

/-- The single nearest to a natural number. -/
def ofNat (n : Nat) : Single := ofNumber (BinaryFormat.single.ofNat n)

/-- The single nearest to an integer. -/
def ofInt (n : Int) : Single := ofNumber (BinaryFormat.single.ofInt n)

/-- The single nearest to a decimal. -/
def ofDecimal (negative : Bool) (coefficient : Nat) (exponent : Int) : Single :=
  ofNumber (BinaryFormat.single.ofDecimal negative coefficient exponent)

instance (n : Nat) : OfNat Single n := ⟨ofNat n⟩

instance : OfScientific Single :=
  ⟨fun coefficient below exponent =>
    ofDecimal false coefficient (if below then -(exponent : Int) else exponent)⟩

/-- The integer part, clamped to 32 bits; a NaN or a negative number gives 0. -/
def toUInt32 (x : Single) : UInt32 :=
  let F := BinaryFormat.single
  if F.isNaN x.number || x.number.negative then 0
  else UInt32.ofNat (min (F.units (min x.number.magnitude F.infinity) / F.one) (UInt32.size - 1))

/-! ## Classes -/

def isFinite (x : Single) : Bool := BinaryFormat.single.isFinite x.number

def isNaN (x : Single) : Bool := BinaryFormat.single.isNaN x.number

/-! ## Arithmetic -/

def add (x y : Single) : Single := ofNumber (BinaryFormat.single.add x.number y.number)

def sub (x y : Single) : Single := ofNumber (BinaryFormat.single.sub x.number y.number)

def mul (x y : Single) : Single := ofNumber (BinaryFormat.single.mul x.number y.number)

def sqrt (x : Single) : Single := ofNumber (BinaryFormat.single.sqrt x.number)

/-- The larger of two numbers; a NaN gives way to the other. -/
def max (x y : Single) : Single := ofNumber (BinaryFormat.single.max x.number y.number)

instance : Add Single := ⟨add⟩
instance : Sub Single := ⟨sub⟩
instance : Mul Single := ⟨mul⟩

/-! ## Comparison -/

def lt (x y : Single) : Bool := BinaryFormat.single.lt x.number y.number

def le (x y : Single) : Bool := BinaryFormat.single.le x.number y.number

instance : BEq Single := ⟨fun x y => BinaryFormat.single.equal x.number y.number⟩

/-- Greater than zero; false of a NaN. -/
def isPositive (x : Single) : Bool := lt 0 x

end Single

end ScenePack
