/-!
# Natural numbers in text

Digits and the numbers they stand for, in decimal and in other bases up to sixteen.
-/

namespace ScenePack.Text

/-- The value of a digit. -/
def digitValue (c : Char) : Nat :=
  if c.isDigit then c.toNat - '0'.toNat
  else if 'a' ≤ c then c.toNat - 'a'.toNat + 10
  else c.toNat - 'A'.toNat + 10

/-- Whether a character is a digit of a base up to sixteen. -/
def isDigitOf (base : Nat) (c : Char) : Bool :=
  (c.isDigit || ('a' ≤ c && c ≤ 'f') || ('A' ≤ c && c ≤ 'F')) && digitValue c < base

/-- The number that digits of some base stand for. -/
def ofDigitsIn (base : Nat) (cs : List Char) : Nat :=
  cs.foldl (fun n c => n * base + digitValue c) 0

/-- The number that decimal digits stand for. -/
def ofDigits (cs : List Char) : Nat := ofDigitsIn 10 cs

/-- A number of at least one decimal digit, and of nothing else. -/
def natural? (cs : List Char) : Option Nat :=
  if !cs.isEmpty && cs.all Char.isDigit then some (ofDigits cs) else none

/-- A 32-bit number in decimal digits; a plus sign may stand before them. -/
def count32? (cs : List Char) : Option UInt32 := do
  let n ← natural? (if cs.head? = some '+' then cs.drop 1 else cs)
  if n < UInt32.size then some (UInt32.ofNat n) else none

end ScenePack.Text
