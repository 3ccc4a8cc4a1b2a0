import ScenePack.Vec3

/-!
# Classes of singles, read off their words

A single's class is a range of its word: above the sign bit lies nothing but the sign, and the
magnitudes below the word of infinity are the finite ones.

* `Single.Finite`, `Single.Positive`, `Vec3.Finite` say on words what the tests decide.
* **`Single.isFinite_iff`**, **`Single.isPositive_iff`**: the tests decide them.
* `Single.le_zero_iff`: of finite numbers, "not at most zero" is "positive". Of a NaN it is not.
* `Single.lt_of_lt_of_le`: the tests compose, NaNs included, since they hold of none.
-/

namespace ScenePack

namespace Single

/-- The magnitude word of infinity. -/
def infinityWord : Nat := 0x7f800000

/-- The exponent is not the one of infinities and NaNs. -/
def Finite (x : Single) : Prop := x.bits.toNat % signBit < infinityWord

/-- No sign, not zero, and not a NaN; infinity is positive. -/
def Positive (x : Single) : Prop := 0 < x.bits.toNat ∧ x.bits.toNat ≤ infinityWord

instance (x : Single) : Decidable x.Finite := inferInstanceAs (Decidable (_ < _))

instance (x : Single) : Decidable x.Positive := inferInstanceAs (Decidable (_ ∧ _))

theorem infinity_single : BinaryFormat.single.infinity = infinityWord := by decide

theorem bits_inj {x y : Single} : x.bits = y.bits ↔ x = y := by
  cases x
  cases y
  rw [mk.injEq]

/-- A number with room for its sign is read back from its word. -/
theorem number_ofNumber {x : BinaryNumber} (h : x.magnitude < signBit) : (ofNumber x).number = x := by
  obtain ⟨negative, w⟩ := x
  have hw : w < 2147483648 := h
  cases negative <;> simp [ofNumber, number, signBit] <;> omega

/-- Words with the sign bit are ordered downwards. -/
theorem orderKey_of_signBit_le {x : Single} (h : signBit ≤ x.bits.toNat) :
    BinaryFormat.orderKey x.number = -((x.bits.toNat % signBit : Nat) : Int) := by
  simp only [BinaryFormat.orderKey, number, decide_eq_true_eq, if_pos h]

/-- Words without it are ordered upwards. -/
theorem orderKey_of_lt_signBit {x : Single} (h : x.bits.toNat < signBit) :
    BinaryFormat.orderKey x.number = x.bits.toNat := by
  simp only [BinaryFormat.orderKey, number, decide_eq_true_eq, if_neg (Nat.not_le.mpr h),
    Nat.mod_eq_of_lt h]

theorem isFinite_iff (x : Single) : x.isFinite = true ↔ x.Finite := by
  simp only [isFinite, BinaryFormat.isFinite, infinity_single, number, Finite, decide_eq_true_eq]

theorem isNaN_iff (x : Single) : x.isNaN = true ↔ infinityWord < x.bits.toNat % signBit := by
  simp only [isNaN, BinaryFormat.isNaN, infinity_single, number, decide_eq_true_eq]

theorem lt_iff (x y : Single) : x.lt y = true ↔
    x.isNaN = false ∧ y.isNaN = false ∧
      BinaryFormat.orderKey x.number < BinaryFormat.orderKey y.number := by
  simp only [lt, BinaryFormat.lt, isNaN, Bool.and_eq_true, Bool.not_eq_true', decide_eq_true_eq,
    and_assoc]

theorem le_iff (x y : Single) : x.le y = true ↔
    x.isNaN = false ∧ y.isNaN = false ∧
      BinaryFormat.orderKey x.number ≤ BinaryFormat.orderKey y.number := by
  simp only [le, BinaryFormat.le, isNaN, Bool.and_eq_true, Bool.not_eq_true', decide_eq_true_eq,
    and_assoc]

theorem lt_of_lt_of_le {x y z : Single} (hxy : x.lt y = true) (hyz : y.le z = true) :
    x.lt z = true := by
  obtain ⟨hx, -, hxy⟩ := (lt_iff x y).mp hxy
  obtain ⟨-, hz, hyz⟩ := (le_iff y z).mp hyz
  exact (lt_iff x z).mpr ⟨hx, hz, Int.lt_of_lt_of_le hxy hyz⟩

theorem isNaN_zero : (0 : Single).isNaN = false := by decide

theorem orderKey_zero : BinaryFormat.orderKey (0 : Single).number = 0 := by decide

/-- **A single is greater than zero iff its word is.** Words of negative numbers begin at the sign
bit, and those of NaNs lie above infinity. -/
theorem isPositive_iff (x : Single) : x.isPositive = true ↔ x.Positive := by
  have hx : x.bits.toNat < 4294967296 := x.bits.toNat_lt
  unfold isPositive Positive
  rw [lt_iff, orderKey_zero, ← Bool.not_eq_true x.isNaN, isNaN_iff]
  rcases Nat.lt_or_ge x.bits.toNat signBit with hs | hs
  · rw [orderKey_of_lt_signBit hs]
    simp only [isNaN_zero, signBit, infinityWord, true_and] at hs ⊢
    omega
  · rw [orderKey_of_signBit_le hs]
    simp only [isNaN_zero, signBit, infinityWord, true_and] at hs ⊢
    omega

/-- A finite number that is not at most zero is positive. -/
theorem le_zero_iff {x : Single} (h : x.Finite) : x.le 0 = false ↔ x.Positive := by
  have hx : x.bits.toNat < 4294967296 := x.bits.toNat_lt
  unfold Finite at h
  unfold Positive
  rw [← Bool.not_eq_true, le_iff, orderKey_zero, ← Bool.not_eq_true x.isNaN, isNaN_iff]
  rcases Nat.lt_or_ge x.bits.toNat signBit with hs | hs
  · rw [orderKey_of_lt_signBit hs]
    simp only [isNaN_zero, signBit, infinityWord, true_and] at h hs ⊢
    omega
  · rw [orderKey_of_signBit_le hs]
    simp only [isNaN_zero, signBit, infinityWord, true_and] at h hs ⊢
    omega

/-- Not so of NaNs: they are neither at most zero nor positive. -/
example : (⟨0x7fc00000⟩ : Single).le 0 = false ∧ (⟨0x7fc00000⟩ : Single).isPositive = false := by
  decide

end Single

namespace Vec3

/-- Every component is finite. -/
def Finite (v : Vec3) : Prop := v.x.Finite ∧ v.y.Finite ∧ v.z.Finite

theorem words_inj {v w : Vec3} : v.words = w.words ↔ v = w := by
  cases v
  cases w
  simp [words, Single.bits_inj]

theorem allFinite_iff (v : Vec3) : v.allFinite = true ↔ v.Finite := by
  simp only [allFinite, Finite, Bool.and_eq_true, Single.isFinite_iff, and_assoc]

end Vec3

end ScenePack
