import ScenePack.Proofs.Binary.Whole
import ScenePack.Proofs.Binary.Widen
import ScenePack.Proofs.Json.Reprint
import ScenePack.Scene.Reader

/-!
# One literal as a scalar and as a component

A scalar field rounds the number of a literal to a single. A vector takes the numbers of its
components to doubles first, and these to singles. For literals that are no integers that is the
same, as they are doubles to begin with; an integer is rounded once on the one way and twice on the
other.

* `Number.toComponent` is what a component reads, beside `Number.toSingle`.
* `ReadBothWays`: an integer's two singles, by what they round.

Results:
* `fits_of_spells`: a literal that is read as an integer has 64 bits.
* `readBothWays`: both ways for an integer, and when they part.
* **`literal_read_both_ways`**: both ways for any literal. They agree for all that are no integers
  and for integers of 53 bits, and part exactly where the double lies in the middle of two singles
  and the integer does not.
* `radius_differs_from_center`: a literal for which they part.
-/

namespace ScenePack

open BinaryFormat Json

/-- Singles are told apart by sign and magnitude. -/
theorem Single.number_injective : Function.Injective Single.number := by
  intro x y h
  rw [← Single.ofNumber_number x, h, Single.ofNumber_number]

namespace Json

/-- The single that a component of a vector reads: whatever the number, it goes through a double. -/
def Number.toComponent (n : Number) : Single := n.toDouble.toSingle

/-- Of 64 bits, if it is an integer. -/
def Number.Fits : Number → Prop
  | .integer k => k.natAbs < UInt64.size
  | .real _ => True

theorem fits_wholeNumber (negative : Bool) {significand : Nat} (h : significand < UInt64.size) :
    (wholeNumber negative significand).Fits := by
  unfold wholeNumber
  split
  · split
    · show (-(significand : Int)).natAbs < UInt64.size
      rwa [Int.natAbs_neg, Int.natAbs_natCast]
    · trivial
  · exact h

theorem readNumber_fits {negative : Bool} {taken offset : Nat} {cs : List Char} {e : Extent Number}
    (h : readNumber negative taken offset cs = .ok e) : e.value.Fits :=
  readNumber_gives (fun negative _ => fits_wholeNumber negative) (fun _ _ _ => trivial) h

/-- **A literal that is read as an integer has 64 bits.** -/
theorem fits_of_spells {w : List Char} {n : Number} (h : Spells w (.plain (.ok (.number n)))) :
    n.Fits := by
  obtain ⟨c, cs, next, -, hstep⟩ := h.step 0 [] fun _ => rfl
  have hfits : (Token.step 0 c (cs ++ [])).AllNumbers Number.Fits :=
    step_allNumbers fun _ _ _ _ _ => readNumber_fits
  rw [hstep] at hfits
  cases hfits with
  | number h => exact h

/-- **Both ways for an integer**: it is rounded to the 24 digits of a single, to `a`, or to the 53 of
a double, to `r`, and that to 24, to `b`. -/
structure ReadBothWays (k : Int) (r a b : Nat) : Prop where
  double : RoundsTo 53 k.natAbs r
  scalar : RoundsTo 24 k.natAbs a
  component : RoundsTo 24 r b
  toSingle : single.Represents (Number.integer k).toSingle.number (k < 0) a
  toComponent : single.Represents (Number.integer k).toComponent.number (k < 0) b
  /-- They part where the double lies in the middle of both, and the integer nearer to the one. -/
  part : (Number.integer k).toSingle ≠ (Number.integer k).toComponent ↔
    2 * r = a + b ∧ Nat.dist k.natAbs a < Nat.dist k.natAbs b

theorem readBothWays {k : Int} (hk : k.natAbs ≤ 2 ^ 64) : ∃ r a b, ReadBothWays k r a b := by
  obtain ⟨r, hr, hdouble⟩ := Double.represents_ofInt (Double.round_lt_infinity_of_le hk)
  obtain ⟨a, ha, hscalar⟩ := Single.represents_ofInt hk
  have hr64 : r ≤ 2 ^ 64 := hr.le_of_hasBits ⟨1, 64, by decide, by decide⟩ hk
  obtain ⟨b, hb, hcomponent⟩ := Double.represents_toSingle hdouble hr64
  refine ⟨r, a, b, hr, ha, hb, hscalar, hcomponent, ?_⟩
  rw [← RoundsTo.ne_iff (by decide) hr ha hb, ne_eq, ne_eq, ← Single.number_injective.eq_iff]
  exact not_congr (hscalar.eq_iff hcomponent)

/-- Integers of 53 bits are doubles, so that nothing is rounded on the way. -/
theorem toComponent_integer {k : Int} (hk : k.natAbs ≤ 2 ^ 53) :
    (Number.integer k).toComponent = (Number.integer k).toSingle := by
  obtain ⟨r, a, b, h⟩ := readBothWays (k := k) (hk.trans (by decide))
  have hr := h.double.eq_of_hasBits (hasBits_of_le (by decide) hk)
  have hab : a = b := h.scalar.unique (hr ▸ h.component)
  by_contra hne
  exact (RoundsTo.ne_iff (by decide) h.double h.scalar h.component).mpr (h.part.mp (Ne.symm hne)) hab

end Json

namespace Field

/-- **Both ways for any literal.** As a scalar, required or not, its number is read as `toSingle`, as
a component of a vector, wherever it stands in it, as `toComponent`. These are the same for all
numbers that are no integers, and for integers of 53 bits. -/
theorem literal_read_both_ways {w : List Char} {n : Number}
    (h : Spells w (.plain (.ok (.number n)))) :
    (Field.single (.number n)).result = .ok n.toSingle ∧
    (Field.nullable Field.single (.number n)).result = .ok (some n.toSingle) ∧
    (∀ items v, Field.vec3? (.array items) = some v →
      (∀ fallback, (Field.vec3 fallback (.array items)).result = .ok v) ∧
      (Field.sparseVec3 (.array items)).result = .ok (some v) ∧
      ∀ i < 3, items[i]? = some (.number n) → v.floats[i]? = some n.toComponent) ∧
    (∀ x, n = .real x → n.toComponent = n.toSingle) ∧
    (∀ k, n = .integer k → k.natAbs ≤ 2 ^ 53 → n.toComponent = n.toSingle) ∧
    ∀ k, n = .integer k → ∃ r a b, ReadBothWays k r a b := by
  refine ⟨rfl, rfl, fun items v hv => ?_, ?_, ?_, ?_⟩
  · have hsparse : Field.sparseVec3 (.array items) = pure (some v) := by
      unfold Field.sparseVec3
      rw [hv]
    refine ⟨fun fallback => ?_, by rw [hsparse]; rfl, fun i hi hitem => ?_⟩
    · unfold Field.vec3
      rw [hsparse]
      rfl
    · unfold Field.vec3? at hv
      split at hv
      · rename_i x y z rest heq
        obtain rfl := Value.array.inj heq
        obtain rfl := Option.some.inj hv
        -- the three components, each with the item that it is read from
        have hread (m : Number) (hm : some (Value.number m) = some (.number n)) :
            some m.toDouble.toSingle = some n.toComponent := by
          rw [Option.some.injEq, Value.number.injEq] at hm
          rw [hm]
          rfl
        obtain rfl | rfl | rfl : i = 0 ∨ i = 1 ∨ i = 2 := by omega
        · exact hread x hitem
        · exact hread y hitem
        · exact hread z hitem
      · cases hv
  · rintro x rfl
    rfl
  · rintro k rfl hk
    exact toComponent_integer hk
  · rintro k rfl
    exact readBothWays (Nat.le_of_lt (fits_of_spells h))

/-- An integer that lies next to the middle between two singles, on the side that doubles do not
show. -/
def nearMiddle : Nat := 9007199791611905

theorem literal_read_both_ways_near_middle :
    Spells "9007199791611905".toList (.plain (.ok (.number (.integer nearMiddle)))) ∧
    (Field.single (.number (.integer nearMiddle))).result = .ok ⟨0x5a000001⟩ ∧
    (Field.sparseVec3 (.array (List.replicate 3 (.number (.integer nearMiddle))))).result =
      .ok (some (.replicate ⟨0x5a000000⟩)) ∧
    ∃ r a b, ReadBothWays nearMiddle r a b ∧ 2 * r = a + b := by
  have hdigits : Text.PlainDigits "9007199791611905".toList := ⟨by decide, by decide⟩
  have hspells : Spells "9007199791611905".toList (.plain (.ok (.number (.integer nearMiddle)))) :=
    Json.spells_integer false hdigits (by decide)
  have hscalar : (Number.integer nearMiddle).toSingle = ⟨0x5a000001⟩ := by decide +kernel
  have hcomponent : (Number.integer nearMiddle).toComponent = ⟨0x5a000000⟩ := by decide +kernel
  obtain ⟨hsingle, -, hvector, -, -, hways⟩ := literal_read_both_ways hspells
  obtain ⟨r, a, b, hread⟩ := hways _ rfl
  have hpart : (Number.integer nearMiddle).toSingle ≠ (Number.integer nearMiddle).toComponent := by
    rw [hscalar, hcomponent]
    decide
  refine ⟨hspells, hscalar ▸ hsingle, ?_, r, a, b, hread, (hread.part.mp hpart).1⟩
  rw [← hcomponent]
  exact (hvector _ _ rfl).2.1

end Field

/-- The text of a scene of one sphere whose radius is a literal and whose centre has it as its
first component. -/
def ballText (literal : String) : String :=
  "\x7b\"objects\":[\x7b\"radius\":" ++ literal ++ ",\"center\":[" ++ literal ++ ",0,0]\x7d]\x7d"

/-- **One literal, two singles**: a radius and a component of a centre that are written alike. -/
theorem SceneDescription.radius_differs_from_center :
    (parse false (ballText "9007199791611905")).result.toOption.map
      (fun d => d.objects.map fun o => (o.geometry.radius.bits, o.geometry.center.x.bits)) =
    some [(0x5a000001, 0x5a000000)] := by
  decide +kernel

end ScenePack
