import ScenePack.Binary.Double
import ScenePack.Proofs.Binary.Length

/-!
# Operations that give no NaN

A number is ordered if it is not a NaN. Rounding gives ordered numbers and so does every conversion
of one; of the operations, a product is in danger only where a zero meets an infinity, a quotient
where two zeros or two infinities meet, a sum where two infinities of different signs meet, a root
below zero. None of this happens to numbers scaled by a finite number other than zero, and none of
it on the way of a vector to its length, infinite components and overflow on the way included:
squares have no sign.

* `BinaryFormat.Ordered`, `NaNFree`: not a NaN, and of a list that none is.

Results:
* `Ordered.mul_scale`, `Ordered.div_scale`: scaling keeps numbers ordered.
* `Ordered.square`: a square is ordered and has no sign.
* `Single.isNaN_mul`, **`Vec3.isNaN_norm`**, `Double.isNaN_toSingle`: the same on words.
* `Single.beq_self_iff`: the numbers that equal themselves.
-/

namespace ScenePack

namespace BinaryFormat

variable {F G : BinaryFormat} {x y : BinaryNumber}

/-- Not a NaN. -/
def Ordered (F : BinaryFormat) (x : BinaryNumber) : Prop := x.magnitude ≤ F.infinity

/-- Finite and not zero. -/
def IsScale (F : BinaryFormat) (x : BinaryNumber) : Prop :=
  0 < x.magnitude ∧ x.magnitude < F.infinity

instance (F : BinaryFormat) (x : BinaryNumber) : Decidable (F.IsScale x) :=
  inferInstanceAs (Decidable (_ ∧ _))

theorem isNaN_eq_false_iff : F.isNaN x = false ↔ F.Ordered x := by
  rw [isNaN, decide_eq_false_iff_not, Nat.not_lt, Ordered]

theorem ordered_ofFraction (negative : Bool) (num den : Nat) :
    F.Ordered (F.ofFraction negative num den) := round_le_infinity num den

namespace Ordered

variable (hx : F.Ordered x)

include hx

theorem neg : F.Ordered (BinaryFormat.neg x) := hx

theorem convert : G.Ordered (F.convert G x) := by
  unfold BinaryFormat.convert
  rw [isNaN_eq_false_iff.mpr hx]
  split
  · contradiction
  · split
    · exact Nat.le_refl _
    · exact ordered_ofFraction _ _ _

/-- An infinity does not meet a zero where one factor is neither. -/
theorem mul_scale (hy : F.IsScale y) : F.Ordered (F.mul x y) := by
  obtain ⟨hpos, hfinite⟩ := hy
  have hyinf : F.isInfinite y = false := decide_eq_false hfinite.ne
  unfold BinaryFormat.mul
  dsimp only
  rw [isNaN_eq_false_iff.mpr hx, isNaN_eq_false_iff.mpr hfinite.le, hyinf]
  split
  · contradiction
  · split
    · rename_i hxinf
      have hxinf : x.magnitude = F.infinity := by simpa [isInfinite] using hxinf
      rw [if_neg (by omega)]
      exact Nat.le_refl _
    · exact ordered_ofFraction _ _ _

theorem div_scale (hy : F.IsScale y) : F.Ordered (F.div x y) := by
  obtain ⟨hpos, hfinite⟩ := hy
  have hyinf : F.isInfinite y = false := decide_eq_false hfinite.ne
  unfold BinaryFormat.div
  dsimp only
  rw [isNaN_eq_false_iff.mpr hx, isNaN_eq_false_iff.mpr hfinite.le, hyinf, if_neg hpos.ne']
  split
  · contradiction
  · split
    · exact Nat.le_refl _
    · exact ordered_ofFraction _ _ _

/-- **A square is ordered and has no sign**: no zero meets an infinity in it. -/
theorem square (hinf : 0 < F.infinity) : ∃ w ≤ F.infinity, F.mul x x = ⟨false, w⟩ := by
  unfold BinaryFormat.mul
  dsimp only
  rw [isNaN_eq_false_iff.mpr hx, bne_self_eq_false, Bool.or_self, Bool.or_self]
  split
  · contradiction
  · split
    · rename_i hxinf
      have hxinf : x.magnitude = F.infinity := by simpa [isInfinite] using hxinf
      rw [if_neg (by omega)]
      exact ⟨_, Nat.le_refl _, rfl⟩
    · exact ⟨_, round_le_infinity _ _, rfl⟩

end Ordered

end BinaryFormat

/-! ## Doubles -/

namespace Double

open BinaryFormat

variable {x y : Double}

/-- Not a NaN. -/
def Ordered (x : Double) : Prop := double.Ordered x.number

theorem number_ofNumber {x : BinaryNumber} (h : x.magnitude < signBit) : (ofNumber x).number = x := by
  obtain ⟨negative, w⟩ := x
  have hw : w < 9223372036854775808 := h
  cases negative <;> simp [ofNumber, number, signBit] <;> omega

theorem number_ofNumber_of_ordered {x : BinaryNumber} (h : double.Ordered x) :
    (ofNumber x).number = x :=
  number_ofNumber (Nat.lt_of_le_of_lt h (by decide))

theorem ordered_ofNumber {x : BinaryNumber} (h : double.Ordered x) : (ofNumber x).Ordered := by
  rw [Ordered, number_ofNumber_of_ordered h]
  exact h

theorem ordered_ofInt (n : Int) : (ofInt n).Ordered := ordered_ofNumber (ordered_ofFraction _ _ _)

theorem Ordered.neg (h : x.Ordered) : x.neg.Ordered := ordered_ofNumber (BinaryFormat.Ordered.neg h)

theorem Ordered.mul_scale (hx : x.Ordered) (hy : double.IsScale y.number) : (x.mul y).Ordered :=
  ordered_ofNumber (BinaryFormat.Ordered.mul_scale hx hy)

theorem Ordered.div_scale (hx : x.Ordered) (hy : double.IsScale y.number) : (x.div y).Ordered :=
  ordered_ofNumber (BinaryFormat.Ordered.div_scale hx hy)

end Double

/-! ## Singles -/

namespace Single

open BinaryFormat

variable {x y : Single}

theorem isNaN_eq_false_iff : x.isNaN = false ↔ single.Ordered x.number :=
  BinaryFormat.isNaN_eq_false_iff

theorem isNaN_ofNumber {x : BinaryNumber} (h : single.Ordered x) : (ofNumber x).isNaN = false := by
  rw [isNaN_eq_false_iff, number_ofNumber (Nat.lt_of_le_of_lt h (by decide))]
  exact h

theorem isNaN_ofNat (n : Nat) : (ofNat n).isNaN = false := isNaN_ofNumber (ordered_ofFraction _ _ _)

theorem isNaN_ofInt (n : Int) : (ofInt n).isNaN = false := isNaN_ofNumber (ordered_ofFraction _ _ _)

theorem isNaN_mul_scale (hx : x.isNaN = false) (hy : single.IsScale y.number) :
    (x * y).isNaN = false :=
  isNaN_ofNumber (Ordered.mul_scale (isNaN_eq_false_iff.mp hx) hy)

/-- Up to infinity there are neither signs nor NaNs. -/
theorem isNaN_of_le_infinity (h : x.bits.toNat ≤ single.infinity) : x.isNaN = false := by
  rw [isNaN_eq_false_iff, number_unsigned (lt_signBit h)]
  exact h

theorem square_le_infinity (hx : x.isNaN = false) : (x * x).bits.toNat ≤ single.infinity := by
  obtain ⟨w, hw, hsquare⟩ := Ordered.square (isNaN_eq_false_iff.mp hx) (by decide)
  show (ofNumber (single.mul x.number x.number)).bits.toNat ≤ single.infinity
  rw [hsquare, bits_ofNumber (lt_signBit hw)]
  exact hw

/-- **A number equals itself iff it is not a NaN.** -/
theorem beq_self_iff : (x == x) = true ↔ x.isNaN = false := by
  show single.equal x.number x.number = true ↔ single.isNaN x.number = false
  simp [equal]

end Single

theorem Double.isNaN_toSingle {x : Double} (h : x.Ordered) : x.toSingle.isNaN = false :=
  Single.isNaN_ofNumber h.convert

/-! ## Vectors -/

/-- None of the numbers is a NaN. -/
def NaNFree (xs : List Single) : Prop := ∀ x ∈ xs, x.isNaN = false

instance (xs : List Single) : Decidable (NaNFree xs) :=
  inferInstanceAs (Decidable (∀ x ∈ xs, x.isNaN = false))

namespace NaNFree

variable {x : Single} {xs ys : List Single}

@[simp] theorem nil : NaNFree [] := fun _ h => absurd h List.not_mem_nil

@[simp] theorem cons_iff : NaNFree (x :: xs) ↔ x.isNaN = false ∧ NaNFree xs := List.forall_mem_cons

@[simp] theorem append_iff : NaNFree (xs ++ ys) ↔ NaNFree xs ∧ NaNFree ys := List.forall_mem_append

@[simp] theorem flatMap_iff {α : Type} {as : List α} {f : α → List Single} :
    NaNFree (as.flatMap f) ↔ ∀ a ∈ as, NaNFree (f a) := by
  simp only [NaNFree, List.mem_flatMap]
  constructor
  · exact fun h a ha x hx => h x ⟨a, ha, hx⟩
  · rintro h x ⟨a, ha, hx⟩
    exact h a ha x hx

end NaNFree

namespace Vec3

variable {v : Vec3}

/-- The components in order, as numbers. -/
def floats (v : Vec3) : List Single := [v.x, v.y, v.z]

theorem nanFree_floats_iff :
    NaNFree v.floats ↔ v.x.isNaN = false ∧ v.y.isNaN = false ∧ v.z.isNaN = false := by
  simp [floats]

theorem nanFree_scale {s : Single} (hv : NaNFree v.floats)
    (hs : BinaryFormat.single.IsScale s.number) : NaNFree (v.scale s).floats := by
  obtain ⟨hx, hy, hz⟩ := nanFree_floats_iff.mp hv
  exact nanFree_floats_iff.mpr ⟨Single.isNaN_mul_scale hx hs, Single.isNaN_mul_scale hy hs,
    Single.isNaN_mul_scale hz hs⟩

/-- **A vector without NaNs has a length that is not one**, whatever overflows on the way. -/
theorem isNaN_norm (hv : NaNFree v.floats) : v.norm.isNaN = false := by
  obtain ⟨hx, hy, hz⟩ := nanFree_floats_iff.mp hv
  have hxx := Single.square_le_infinity hx
  have hyy := Single.square_le_infinity hy
  have hzz := Single.square_le_infinity hz
  have hxy : (v.x * v.x + v.y * v.y).bits.toNat ≤ BinaryFormat.single.infinity :=
    (Single.bits_add hxx hyy).trans_le (BinaryFormat.plus_le_infinity _ _ _)
  have hsum : (v.x * v.x + v.y * v.y + v.z * v.z).bits.toNat ≤ BinaryFormat.single.infinity :=
    (Single.bits_add hxy hzz).trans_le (BinaryFormat.plus_le_infinity _ _ _)
  exact Single.isNaN_of_le_infinity
    ((Single.bits_sqrt hsum).trans_le (Single.root_le_infinity hsum))

/-- **A vector equals itself iff none of its components is a NaN.** -/
theorem beq_self_iff : (v == v) = true ↔ NaNFree v.floats := by
  show (_ && (_ && _)) = true ↔ _
  simp only [Bool.and_eq_true, Single.beq_self_iff, nanFree_floats_iff]

end Vec3

end ScenePack
