import ScenePack.Binary.Format

/-!
# Shortest decimals

Of the decimals that lie among the reals rounding to a given binary number, the shortest are those
on the coarsest grid of powers of ten that has a point there; of these the nearest to the number is
chosen. Two can be equally near, and `Tie` says which one is taken.

* `Basin` is the interval of reals that round to a number.
* `Basin.nearest?` finds a grid's point in it; `search` tries finer and finer grids.
* `shortest` is the answer.
-/

namespace ScenePack

/-- Which of two equally near decimals is taken. -/
inductive Tie where
  | toEven
  | upward
  deriving DecidableEq, Repr

/-- The number `coefficient * 10 ^ exponent`. -/
structure Decimal where
  coefficient : Nat
  exponent : Int
  deriving DecidableEq, Repr

namespace Decimal

/-- The reals that round to a finite positive magnitude word, in half units: the sums with its two
neighbours bound them, and the bounds belong to them when the word is even. -/
structure Basin where
  low : Nat
  middle : Nat
  high : Nat
  closed : Bool

/-- The reals that round to the word `w`. -/
def Basin.of (F : BinaryFormat) (w : Nat) : Basin where
  low := F.units (w - 1) + F.units w
  middle := 2 * F.units w
  high := F.units w + F.units (w + 1)
  closed := w % 2 = 0

/-- Whether the point `n` of a grid lies in the basin, where a grid step is `step / scale` half
units. -/
def Basin.holds (b : Basin) (scale step n : Nat) : Bool :=
  if b.closed then b.low * scale ≤ n * step && n * step ≤ b.high * scale
  else b.low * scale < n * step && n * step < b.high * scale

/-- The point of the grid that is nearest to the middle, if it has a point in the basin. -/
def Basin.nearest? (b : Basin) (tie : Tie) (scale step : Nat) : Option Nat :=
  let below := b.middle * scale / step
  let twice := 2 * (b.middle * scale % step)
  let above := below + 1
  match b.holds scale step below, b.holds scale step above with
  | false, false => none
  | true, false => some below
  | false, true => some above
  | true, true =>
    if twice < step then some below
    else if step < twice then some above
    else match tie with
      | .upward => some above
      | .toEven => some (if below % 2 = 0 then below else above)

/-- The point on the grid of step `10 ^ exponent`. -/
def Basin.onGrid? (F : BinaryFormat) (b : Basin) (tie : Tie) (exponent : Int) : Option Nat :=
  if 0 ≤ exponent then b.nearest? tie 1 (2 * F.one * Nat.pow 10 exponent.toNat)
  else b.nearest? tie (Nat.pow 10 (-exponent).toNat) (2 * F.one)

/-- Search on finer and finer grids, `count` of them, from the grid of step `10 ^ exponent` on. -/
def search (F : BinaryFormat) (b : Basin) (tie : Tie) : Nat → Int → Decimal
  | 0, exponent => ⟨(b.onGrid? F tie exponent).getD 0, exponent⟩
  | count + 1, exponent =>
    match b.onGrid? F tie exponent with
    | some n => ⟨n, exponent⟩
    | none => search F b tie count (exponent - 1)

/-- An exponent of ten that no number below `2 ^ e` reaches. -/
def ceilingExponent (e : Int) : Int := e * 30103 / 100000 + 1

/-- The shortest decimal of a finite positive magnitude word. On the grid of the last resort a step
is less than half the least positive number, so that every basin has a point of it. -/
def shortest (F : BinaryFormat) (tie : Tie) (w : Nat) : Decimal :=
  let start := ceilingExponent ((F.units w).log2 + 1 - F.unitExponent)
  let last := -(F.unitExponent : Int)
  search F (Basin.of F w) tie (start - last).toNat start

end Decimal

end ScenePack
