import ScenePack.Decimal.Shortest

/-!
# Styles of decimal text

A `DecimalStyle` holds what one written format decides about numbers: which of two equally near
decimals it takes, from which exponents on it leaves positional notation, whether a whole number
keeps a point, and how it spells a NaN. `render` writes a binary number by its shortest decimal in
such a style.
-/

namespace ScenePack

/-- How a format writes numbers. -/
structure DecimalStyle where
  /-- Which of two equally near decimals is written. -/
  tie : Tie
  /-- The least and the greatest exponent of the leading digit that are written positionally;
  `none` when all are. -/
  positional : Option (Int × Int)
  /-- Whether a whole number ends in `.0`. -/
  point : Bool
  /-- The text of a NaN, whatever its sign. -/
  nan : String

namespace DecimalStyle

/-- Digits with the point `places` digits before their end, zeros filled in. -/
def positionalText (point : Bool) (digits : List Char) (exponent : Int) : List Char :=
  if 0 ≤ exponent then
    digits ++ List.replicate exponent.toNat '0' ++ (if point then ['.', '0'] else [])
  else
    let places := (-exponent).toNat
    if places < digits.length then
      digits.take (digits.length - places) ++ '.' :: digits.drop (digits.length - places)
    else '0' :: '.' :: (List.replicate (places - digits.length) '0' ++ digits)

/-- Digits as a number between one and ten, with the exponent of the leading digit behind it. -/
def exponentText (digits : List Char) (leading : Int) : List Char :=
  let fraction := digits.drop 1
  digits.take 1 ++ (if fraction.isEmpty then [] else '.' :: fraction)
    ++ 'e' :: (if leading < 0 then '-' else '+') :: Nat.toDigits 10 leading.natAbs

/-- The text of a decimal. -/
def decimalText (style : DecimalStyle) (d : Decimal) : List Char :=
  let digits := Nat.toDigits 10 d.coefficient
  let leading := d.exponent + digits.length - 1
  match style.positional with
  | none => positionalText style.point digits d.exponent
  | some (least, greatest) =>
    if least ≤ leading ∧ leading ≤ greatest then positionalText style.point digits d.exponent
    else exponentText digits leading

/-- The text of a number of format `F`. -/
def render (style : DecimalStyle) (F : BinaryFormat) (x : BinaryNumber) : String :=
  if F.isNaN x then style.nan
  else
    let text :=
      if F.isInfinite x then ['i', 'n', 'f']
      else if x.magnitude = 0 then style.decimalText ⟨0, 0⟩
      else style.decimalText (Decimal.shortest F style.tie x.magnitude)
    String.ofList (if x.negative then '-' :: text else text)

end DecimalStyle

end ScenePack
