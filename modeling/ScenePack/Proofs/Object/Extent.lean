import ScenePack.Proofs.Binary.Length
import ScenePack.Proofs.Object.Measured

/-!
# Extents and bounding radii

Validation looks at the measures of an object; what is packed are extents and a bounding radius that
are computed from them. Extents of accepted objects are finite, but half of the least positive size
is zero. The bounding radius of a sphere is its radius; of every other shape it is the length of the
extents, for which they are squared. Squares of numbers below `2 ^ -63` lose places, and those of
numbers up to `2 ^ -75` all of them; the squares of numbers above `2 ^ 63` may add up to infinity.
In between, the bounding radius is finite and holds the extents, so that rounding never makes it too
small.

* `ObjectRecord.Sane`: the extents are finite and positive, and so is the bounding radius, which is
  not below any of them.

Results:
* `half_pos_iff`: halving gives zero for the least positive number only.
* `le_norm`, `norm_finite`: when a length holds the components, and when it is finite.
* `norm_eq_zero_iff`, `norm_replicate_iff`: when a length is zero, and for which three equal
  components it is neither zero nor infinite.
* **`packed_sane_within`**: which records of an accepted scene are sane.
* `extremes_not_sane`: not all are.
-/

namespace ScenePack

open BinaryFormat

/-! ## Numbers without a sign -/

namespace Single

variable {x y : Single}

theorem finite_and_positive_iff (x : Single) :
    x.Finite ∧ x.Positive ↔ 0 < x.bits.toNat ∧ x.bits.toNat < infinityWord := by
  unfold Finite Positive signBit infinityWord
  omega

theorem finite_of_lt (h : x.bits.toNat < infinityWord) : x.Finite := by
  unfold Finite
  rw [Nat.mod_eq_of_lt (lt_signBit h.le)]
  exact h

theorem forall_finite {ws : List UInt32} (h : ∀ w ∈ ws, w.toNat < infinityWord) :
    ∀ w ∈ ws, (⟨w⟩ : Single).Finite := fun w hw => finite_of_lt (h w hw)

theorem forall_positive_iff {ws : List UInt32} (h : ∀ w ∈ ws, w.toNat < infinityWord) :
    (∀ w ∈ ws, (⟨w⟩ : Single).Positive) ↔ ∀ w ∈ ws, 0 < w.toNat :=
  forall₂_congr fun w hw => and_iff_left (h w hw).le

theorem le_iff_of_unsigned (hx : x.bits.toNat ≤ infinityWord) (hy : y.bits.toNat ≤ infinityWord) :
    x.le y = true ↔ x.bits.toNat ≤ y.bits.toNat := by
  rw [le_iff, ← Bool.not_eq_true, ← Bool.not_eq_true, isNaN_iff, isNaN_iff,
    orderKey_of_lt_signBit (lt_signBit hx), orderKey_of_lt_signBit (lt_signBit hy),
    Nat.mod_eq_of_lt (lt_signBit hx), Nat.mod_eq_of_lt (lt_signBit hy)]
  omega

/-! ## Halves -/

/-- The word of a half. -/
def halfWord : Nat := 0x3f000000

theorem bits_half (hx : x.bits.toNat < infinityWord) :
    (x * 0.5).bits.toNat = single.times x.bits.toNat halfWord := by
  have hhalf : (0.5 : Single).bits.toNat = halfWord := by decide
  rw [bits_mul hx (by rw [hhalf]; decide), hhalf]

/-- Half a number is not above the number. -/
theorem half_le (w : Nat) : single.times w halfWord ≤ w := by
  refine round_le_of_le_units (by decide) single.one_pos ?_
  exact Nat.mul_le_mul_left _ (by decide)

/-- **Halving gives zero for the least positive number only.** -/
theorem half_pos_iff (w : Nat) : 0 < single.times w halfWord ↔ 1 < w := by
  have hone : single.units 1 = 1 := by decide
  have hzero : single.middle 0 = 1 := by decide
  have htwo : single.one = 2 * single.units halfWord := by decide
  have hhalf : 0 < single.units halfWord := by decide
  have hword : 1 < single.units w ↔ 1 < w := by
    rw [← hone]
    exact single.units_strictMono.lt_iff_lt
  unfold times
  rw [lt_round_iff (by decide) single.one_pos (by decide), hzero, htwo, or_iff_left (by omega),
    Nat.one_mul, Nat.mul_lt_mul_left Nat.two_pos, Nat.lt_mul_iff_one_lt_left hhalf, hword]

/-- Half of a finite positive number. -/
theorem half_spec (hx : 0 < x.bits.toNat ∧ x.bits.toNat < infinityWord) :
    (x * 0.5).bits.toNat < infinityWord ∧ (0 < (x * 0.5).bits.toNat ↔ x.bits ≠ 1) := by
  rw [bits_half hx.2, half_pos_iff]
  refine ⟨Nat.lt_of_le_of_lt (half_le _) hx.2, ?_⟩
  rw [← not_iff_not, not_not, ← UInt32.toNat_inj]
  have hone : (1 : UInt32).toNat = 1 := rfl
  omega

end Single

/-! ## Lengths -/

/-- The word of `2 ^ -75`, up to which squares are zero. -/
def vanishingWord : Nat := 0x1a000000

/-- The word of `2 ^ -63`, from which on squares have all their places. -/
def lowestWord : Nat := 0x20000000

/-- The word of `2 ^ 63`, up to which three squares add up to a finite number. -/
def highestWord : Nat := 0x5f000000

/-- The word of the largest number of which three equal squares add up to a finite number. -/
def widestWord : Nat := 0x5f13cd3a

/-- Only of numbers up to `2 ^ -75` the square is zero. -/
theorem times_pos_iff {w : Nat} : 0 < single.times w w ↔ vanishingWord < w := by
  have hvanish : single.times vanishingWord vanishingWord = 0 := by decide
  have hremain : 0 < single.times (vanishingWord + 1) (vanishingWord + 1) := by decide
  constructor
  · intro hpos
    by_contra hlow
    have hle := Nat.le_of_not_lt hlow
    exact absurd (hpos.trans_le (times_mono (by decide) hle hle)) hvanish.not_gt
  · intro hlow
    exact hremain.trans_le (times_mono (by decide) hlow hlow)

namespace Vec3

variable {v : Vec3}

theorem mem_words_iff {w : UInt32} (hw : w ∈ v.words) :
    w.toNat = v.x.bits.toNat ∨ w.toNat = v.y.bits.toNat ∨ w.toNat = v.z.bits.toNat := by
  simp only [words, List.mem_cons, List.not_mem_nil, or_false] at hw
  rcases hw with rfl | rfl | rfl <;> simp

theorem norm_le_infinity (hv : v.Unsigned) : v.norm.bits.toNat ≤ Single.infinityWord := by
  rw [bits_norm hv]
  exact Single.root_le_infinity (squares_le_infinity _ _ _ _)

/-- **A component is not above the length**, unless it and all others are below `2 ^ -63`. -/
theorem le_norm (hv : v.Unsigned) (hlow : ∃ w ∈ v.words, lowestWord ≤ w.toNat) :
    ∀ w ∈ v.words, w.toNat ≤ v.norm.bits.toNat := by
  have hfull : single.hiddenBit ≤ single.times lowestWord lowestWord := by decide
  have hle : ∀ w ∈ v.words, lowestWord ≤ w.toNat → w.toNat ≤ v.norm.bits.toNat := by
    intro w hw hlow
    rw [bits_norm hv]
    exact le_length (by decide) (mem_words_iff hw) (Nat.lt_of_lt_of_le (by decide) hlow)
      (hv w hw).le (hfull.trans (times_mono (by decide) hlow hlow))
  obtain ⟨u, hu, hlow⟩ := hlow
  intro w hw
  rcases Nat.le_total w.toNat u.toNat with h | h
  · exact h.trans (hle u hu hlow)
  · exact hle w hw (hlow.trans h)

/-- **A length is zero** exactly if no component is above `2 ^ -75`. -/
theorem norm_eq_zero_iff (hv : v.Unsigned) :
    v.norm.bits.toNat = 0 ↔ ∀ w ∈ v.words, w.toNat ≤ vanishingWord := by
  rw [bits_norm hv]
  constructor
  · intro hzero w hw
    by_contra hlow
    have hsquare : 0 < single.times w.toNat w.toNat := times_pos_iff.mpr (Nat.lt_of_not_le hlow)
    have hsquares := hsquare.trans_le (times_le_squares (by decide) (mem_words_iff hw))
    exact (length_pos (by decide) hsquares.ne').ne' hzero
  · intro hlow
    obtain ⟨hx, hy, hz⟩ := forall_mem_words.mp hlow
    have hvanish : single.squares vanishingWord vanishingWord vanishingWord = 0 := by decide
    have hsquares := Nat.le_zero.mp ((squares_mono (by decide) hx hy hz).trans_eq hvanish)
    unfold length
    rw [hsquares]
    rfl

/-- **A length is finite**, unless a component is above `2 ^ 63`. -/
theorem norm_finite (hv : v.Unsigned) (hhigh : ∀ w ∈ v.words, w.toNat ≤ highestWord) :
    v.norm.bits.toNat < Single.infinityWord := by
  obtain ⟨hx, hy, hz⟩ := forall_mem_words.mp hhigh
  have hsquares : single.squares highestWord highestWord highestWord < single.infinity := by
    decide
  rw [bits_norm hv]
  exact Single.root_lt_infinity
    (Nat.lt_of_le_of_lt (squares_mono (by decide) hx hy hz) hsquares)

/-! ### Three equal components -/

theorem squares_widestWord :
    single.squares widestWord widestWord widestWord < single.infinity := by
  decide

theorem replicate_unsigned {x : Single} (hx : x.bits.toNat < Single.infinityWord) :
    (replicate x).Unsigned := forall_mem_words.mpr ⟨hx, hx, hx⟩

/-- **The length of three equal components is neither zero nor infinite** exactly between two
bounds. -/
theorem norm_replicate_iff {x : Single} (hx : x.bits.toNat < Single.infinityWord) :
    0 < (replicate x).norm.bits.toNat ∧ (replicate x).norm.bits.toNat < Single.infinityWord ↔
      vanishingWord < x.bits.toNat ∧ x.bits.toNat ≤ widestWord := by
  have hunsigned := replicate_unsigned hx
  have hzero : (replicate x).norm.bits.toNat = 0 ↔ x.bits.toNat ≤ vanishingWord := by
    rw [norm_eq_zero_iff hunsigned, forall_mem_words]
    exact ⟨fun h => h.1, fun h => ⟨h, h, h⟩⟩
  have hfinite : (replicate x).norm.bits.toNat < Single.infinityWord ↔
      x.bits.toNat ≤ widestWord := by
    rw [bits_norm hunsigned]
    constructor
    · intro hlt
      by_contra hw
      have hw : widestWord + 1 ≤ x.bits.toNat := Nat.lt_of_not_le hw
      have hover : single.squares (widestWord + 1) (widestWord + 1) (widestWord + 1) =
          single.infinity := by decide
      have hsquares := Nat.le_antisymm (squares_le_infinity _ _ _ _)
        (hover.symm.trans_le (squares_mono (by decide) hw hw hw))
      refine hlt.ne ?_
      show single.root (single.squares x.bits.toNat x.bits.toNat x.bits.toNat) = single.infinity
      rw [hsquares, root_infinity]
    · intro hw
      exact Single.root_lt_infinity
        (Nat.lt_of_le_of_lt (squares_mono (by decide) hw hw hw) squares_widestWord)
  omega

/-- **Then none of them is above it.** -/
theorem le_norm_replicate {x : Single} (hx : x.bits.toNat < Single.infinityWord)
    (hlow : vanishingWord < x.bits.toNat) (hhigh : x.bits.toNat ≤ widestWord) :
    x.bits.toNat ≤ (replicate x).norm.bits.toNat := by
  rw [bits_norm (replicate_unsigned hx)]
  refine le_length_replicate (by decide) hx.le (times_pos_iff.mpr hlow).ne' ?_
  exact Nat.lt_of_le_of_lt (squares_mono (by decide) hhigh hhigh hhigh) squares_widestWord

end Vec3

/-! ## Packed objects -/

/-- The extents of an object are finite and positive, and so is its bounding radius, which is not
below any of them. -/
structure ObjectRecord.Sane (r : ObjectRecord) : Prop where
  extents_finite : ∀ w ∈ r.scale.xyz, (⟨w⟩ : Single).Finite
  extents_positive : ∀ w ∈ r.scale.xyz, (⟨w⟩ : Single).Positive
  radius_finite : r.bounds.w.Finite
  radius_positive : r.bounds.w.Positive
  holds : ∀ w ∈ r.scale.xyz, (⟨w⟩ : Single).le r.bounds.w = true

namespace ObjectRecord

variable {r : ObjectRecord}

/-- A property of the three extents is decided on them alone, not on all words. -/
def decidableExtents (r : ObjectRecord) (p : UInt32 → Prop) [DecidablePred p] :
    Decidable (∀ w ∈ r.scale.xyz, p w) := List.decidableBAll p r.scale.xyz

instance : Decidable r.Sane :=
  have := r.decidableExtents fun w => (⟨w⟩ : Single).Finite
  have := r.decidableExtents fun w => (⟨w⟩ : Single).Positive
  have := r.decidableExtents fun w => (⟨w⟩ : Single).le r.bounds.w = true
  decidable_of_iff
    ((∀ w ∈ r.scale.xyz, (⟨w⟩ : Single).Finite) ∧ (∀ w ∈ r.scale.xyz, (⟨w⟩ : Single).Positive) ∧
      r.bounds.w.Finite ∧ r.bounds.w.Positive ∧
      ∀ w ∈ r.scale.xyz, (⟨w⟩ : Single).le r.bounds.w = true)
    ⟨fun ⟨hf, hp, hrf, hrp, hle⟩ => ⟨hf, hp, hrf, hrp, hle⟩,
      fun ⟨hf, hp, hrf, hrp, hle⟩ => ⟨hf, hp, hrf, hrp, hle⟩⟩

section Scale

variable {v : Vec3} (hv : v.Unsigned) (hscale : r.scale.xyz = v.words)

include hv hscale

/-- Of numbers without a sign it is the words that count. -/
theorem sane_iff (hradius : r.bounds.w.bits.toNat ≤ Single.infinityWord) :
    r.Sane ↔ (∀ w ∈ v.words, 0 < w.toNat) ∧
      (0 < r.bounds.w.bits.toNat ∧ r.bounds.w.bits.toNat < Single.infinityWord) ∧
      ∀ w ∈ v.words, w.toNat ≤ r.bounds.w.bits.toNat := by
  have hle (w : UInt32) (hw : w ∈ v.words) :
      (⟨w⟩ : Single).le r.bounds.w = true ↔ w.toNat ≤ r.bounds.w.bits.toNat :=
    Single.le_iff_of_unsigned (hv w hw).le hradius
  rw [← Single.finite_and_positive_iff, ← Single.forall_positive_iff hv]
  constructor
  · rintro ⟨-, hpos, hfin, hrad, hholds⟩
    rw [hscale] at hpos hholds
    exact ⟨hpos, ⟨hfin, hrad⟩, fun w hw => (hle w hw).mp (hholds w hw)⟩
  · rintro ⟨hpos, ⟨hfin, hrad⟩, hholds⟩
    have hfinite := Single.forall_finite hv
    rw [← hscale] at hfinite hpos
    exact ⟨hfinite, hpos, hfin, hrad, hscale ▸ fun w hw => (hle w hw).mpr (hholds w hw)⟩

/-- A bounding radius that is the length of the extents, one of which has a square with all its
places. -/
theorem sane_iff_of_large (hradius : r.bounds.w = v.norm)
    (hlow : ∃ w ∈ v.words, lowestWord ≤ w.toNat) :
    r.Sane ↔ (∀ w ∈ v.words, (⟨w⟩ : Single).Positive) ∧ r.bounds.w.Finite := by
  have hinf := Vec3.norm_le_infinity hv
  have hle := Vec3.le_norm hv hlow
  rw [← hradius] at hinf hle
  obtain ⟨w, hw, hlow⟩ := hlow
  have hrad : r.bounds.w.Positive :=
    ⟨Nat.lt_of_lt_of_le (by decide) (hlow.trans (hle w hw)), hinf⟩
  rw [sane_iff hv hscale hinf, ← Single.finite_and_positive_iff, ← Single.forall_positive_iff hv]
  constructor
  · rintro ⟨hpos, ⟨hfin, -⟩, -⟩
    exact ⟨hpos, hfin⟩
  · rintro ⟨hpos, hfin⟩
    exact ⟨hpos, ⟨hfin, hrad⟩, hle⟩

end Scale

section Replicate

variable {x : Single} (hx : 0 < x.bits.toNat ∧ x.bits.toNat < Single.infinityWord)
  (hscale : r.scale.xyz = (Vec3.replicate x).words)

include hx hscale

/-- A bounding radius that is the extent all around. -/
theorem sane_of_radius_eq (hradius : r.bounds.w = x) : r.Sane := by
  rw [sane_iff (Vec3.replicate_unsigned hx.2) hscale (by rw [hradius]; exact hx.2.le), hradius,
    Vec3.forall_mem_words, Vec3.forall_mem_words]
  exact ⟨⟨hx.1, hx.1, hx.1⟩, hx, ⟨Nat.le_refl _, Nat.le_refl _, Nat.le_refl _⟩⟩

/-- A bounding radius that is the length of the same extent three times. -/
theorem sane_replicate_iff (hradius : r.bounds.w = (Vec3.replicate x).norm) :
    r.Sane ↔ vanishingWord < x.bits.toNat ∧ x.bits.toNat ≤ widestWord := by
  have hunsigned := Vec3.replicate_unsigned hx.2
  have hinf := Vec3.norm_le_infinity hunsigned
  rw [← hradius] at hinf
  rw [sane_iff hunsigned hscale hinf, hradius, Vec3.norm_replicate_iff hx.2, Vec3.forall_mem_words,
    Vec3.forall_mem_words]
  constructor
  · rintro ⟨-, hwithin, -⟩
    exact hwithin
  · intro hwithin
    have hle := Vec3.le_norm_replicate hx.2 hwithin.1 hwithin.2
    exact ⟨⟨hx.1, hx.1, hx.1⟩, hwithin, ⟨hle, hle, hle⟩⟩

end Replicate

end ObjectRecord

/-- The shapes besides the sphere that are given by a radius alone. -/
def Shape.solids : List Shape := [pyramid, tetrahedron, dodecahedron, icosahedron]

/-- How far the record of an object is sane. -/
structure SceneObject.SaneWithin (o : SceneObject) (r : ObjectRecord) : Prop where
  finite : ∀ w ∈ r.scale.xyz, (⟨w⟩ : Single).Finite
  /-- Half of the least positive number is zero. -/
  positive_iff : (∀ w ∈ r.scale.xyz, (⟨w⟩ : Single).Positive) ↔
    (o.shape = .box → ∀ w ∈ o.geometry.size.words, w ≠ 1)
  /-- No sign and no NaN. -/
  radius_le : r.bounds.w.bits.toNat ≤ Single.infinityWord
  sphere : o.shape = .sphere → r.Sane
  vanishing : o.shape ≠ .sphere →
    (r.bounds.w.bits.toNat = 0 ↔ ∀ w ∈ r.scale.xyz, w.toNat ≤ vanishingWord)
  solid : o.shape ∈ Shape.solids →
    (r.Sane ↔ vanishingWord < o.geometry.radius.bits.toNat ∧
      o.geometry.radius.bits.toNat ≤ widestWord)
  /-- Nothing but an infinite radius or an extent that is halved to zero breaks a record with an
  extent from `2 ^ -63` on. -/
  large : (∃ w ∈ r.scale.xyz, lowestWord ≤ w.toNat) →
    (r.Sane ↔ (∀ w ∈ r.scale.xyz, (⟨w⟩ : Single).Positive) ∧ r.bounds.w.Finite)
  /-- The radius is finite if no extent is above `2 ^ 63`. -/
  small : (∀ w ∈ r.scale.xyz, w.toNat ≤ highestWord) → r.bounds.w.Finite

theorem Shape.boundingRadius_of_ne {shape : Shape} (h : shape ≠ .sphere) (extents : Vec3) :
    shape.boundingRadius extents = extents.norm := by
  cases shape with
  | sphere => exact absurd rfl h
  | _ => rfl

theorem Shape.of_mem_solids {shape : Shape} {g : Geometry} (h : shape ∈ solids) :
    shape.extents g = .replicate g.radius ∧ shape ≠ .sphere ∧ shape ≠ .box := by
  simp only [solids, List.mem_cons, List.not_mem_nil, or_false] at h
  rcases h with rfl | rfl | rfl | rfl
  all_goals exact ⟨rfl, nofun, nofun⟩

namespace SceneObject

variable {o : SceneObject}

theorem scale_pack (h : o.shape ≠ .plane) (material : UInt32) :
    (o.pack material).scale.xyz = (o.shape.extents o.geometry).words := by
  unfold pack
  cases hs : o.shape with
  | plane => exact absurd hs h
  | _ => rfl

theorem radius_pack (h : o.shape ≠ .plane) (material : UInt32) :
    (o.pack material).bounds.w = o.shape.boundingRadius (o.shape.extents o.geometry) := by
  unfold pack
  cases hs : o.shape with
  | plane => exact absurd hs h
  | _ => rfl

/-- The extents of an object that keeps the rules of its shape are finite and have no sign; they
are positive unless a size is halved to zero. -/
theorem extents_of_allHold {epsilon : Single} {k : Nat}
    (h : Rule.AllHold (Rule.ofGeometry epsilon k o)) (hplane : o.shape ≠ .plane) :
    (o.shape.extents o.geometry).Unsigned ∧
      ((∀ w ∈ (o.shape.extents o.geometry).words, 0 < w.toNat) ↔
        (o.shape = .box → ∀ w ∈ o.geometry.size.words, w ≠ 1)) := by
  have measured {x : Single} (hfinite : x.Finite) (hpositive : x.Positive) :=
    (Single.finite_and_positive_iff x).mp ⟨hfinite, hpositive⟩
  unfold Rule.ofGeometry at h
  unfold Vec3.Unsigned
  rw [Vec3.forall_mem_words, Vec3.forall_mem_words, Vec3.forall_mem_words]
  cases hs : o.shape with
  | plane => exact absurd hs hplane
  | box =>
    simp only [hs, Rule.allHold_cons, Rule.finite, Rule.positiveSize] at h
    obtain ⟨⟨hfx, hfy, hfz⟩, ⟨hpx, hpy, hpz⟩, -⟩ := h
    have hx := Single.half_spec (measured hfx hpx)
    have hy := Single.half_spec (measured hfy hpy)
    have hz := Single.half_spec (measured hfz hpz)
    refine ⟨⟨hx.1, hy.1, hz.1⟩, ?_⟩
    rw [forall_prop_of_true rfl]
    exact and_congr hx.2 (and_congr hy.2 hz.2)
  | cylinder | cone | prism =>
    simp only [hs, Rule.allHold_cons, Rule.finite, Rule.positiveRadius, Rule.positiveHeight] at h
    obtain ⟨hpr, hph, hfr, hfh, -⟩ := h
    have hr := measured hfr hpr
    have hh := measured hfh hph
    exact ⟨⟨hr.2, hh.2, hr.2⟩, iff_of_true ⟨hr.1, hh.1, hr.1⟩ fun h => absurd h (by decide)⟩
  | sphere | pyramid | tetrahedron | dodecahedron | icosahedron =>
    simp only [hs, Rule.allHold_cons, Rule.finite, Rule.positiveRadius] at h
    obtain ⟨hpr, hfr, -⟩ := h
    have hr := measured hfr hpr
    exact ⟨⟨hr.2, hr.2, hr.2⟩, iff_of_true ⟨hr.1, hr.1, hr.1⟩ fun h => absurd h (by decide)⟩

/-- A radius that gives an object its extents all around is finite and positive. -/
theorem radius_of_unsigned {x : Single} (hunsigned : (Vec3.replicate x).Unsigned)
    (hpos : ∀ w ∈ (Vec3.replicate x).words, 0 < w.toNat) :
    0 < x.bits.toNat ∧ x.bits.toNat < Single.infinityWord :=
  ⟨(Vec3.forall_mem_words.mp hpos).1, (Vec3.forall_mem_words.mp hunsigned).1⟩

/-- **The record of an object that keeps the rules of its shape is sane as far as that goes.** -/
theorem saneWithin_pack {epsilon : Single} {k : Nat}
    (h : Rule.AllHold (Rule.ofGeometry epsilon k o)) (hplane : o.shape ≠ .plane)
    (material : UInt32) : o.SaneWithin (o.pack material) := by
  obtain ⟨hunsigned, hpositive⟩ := extents_of_allHold h hplane
  have hscale := scale_pack hplane material
  have hradius := radius_pack hplane material
  generalize o.pack material = r at *
  have hsphere (hs : o.shape = .sphere) : r.Sane := by
    rw [hs] at hscale hradius hunsigned hpositive
    exact ObjectRecord.sane_of_radius_eq
      (radius_of_unsigned hunsigned (hpositive.mpr nofun)) hscale hradius
  have hnorm (hs : o.shape ≠ .sphere) : r.bounds.w = (o.shape.extents o.geometry).norm := by
    rw [hradius, Shape.boundingRadius_of_ne hs]
  constructor
  case finite =>
    rw [hscale]
    exact Single.forall_finite hunsigned
  case positive_iff =>
    rw [hscale, Single.forall_positive_iff hunsigned]
    exact hpositive
  case radius_le =>
    rcases eq_or_ne o.shape .sphere with hs | hs
    · exact (hsphere hs).radius_positive.2
    · rw [hnorm hs]
      exact Vec3.norm_le_infinity hunsigned
  case sphere => exact hsphere
  case vanishing =>
    intro hs
    rw [hnorm hs, hscale]
    exact Vec3.norm_eq_zero_iff hunsigned
  case solid =>
    intro hsolid
    obtain ⟨hextents, hs, hbox⟩ := Shape.of_mem_solids hsolid
    have hradius := hnorm hs
    rw [hextents] at hscale hunsigned hpositive hradius
    have hpos := hpositive.mpr fun h => absurd h hbox
    exact ObjectRecord.sane_replicate_iff (radius_of_unsigned hunsigned hpos) hscale hradius
  case large =>
    intro hlow
    rcases eq_or_ne o.shape .sphere with hs | hs
    · have hsane := hsphere hs
      exact iff_of_true hsane ⟨hsane.extents_positive, hsane.radius_finite⟩
    · rw [hscale] at hlow ⊢
      exact ObjectRecord.sane_iff_of_large hunsigned hscale (hnorm hs) hlow
  case small =>
    intro hhigh
    rcases eq_or_ne o.shape .sphere with hs | hs
    · exact (hsphere hs).radius_finite
    · rw [hscale] at hhigh
      rw [hnorm hs]
      exact Single.finite_of_lt (Vec3.norm_finite hunsigned hhigh)

end SceneObject

namespace CompiledScene

open SceneDescription

/-- **Which records of an accepted scene are sane.** The extents are finite, and positive unless a
size of a box is halved to zero. The bounding radius has no sign and is no NaN. Spheres are sane. The
bounding radius of other shapes is zero exactly if no extent is above `2 ^ -75`; of those that are
given by a radius alone it is said for which radii they are sane. With an extent from `2 ^ -63` on,
only an infinite bounding radius or an extent of zero breaks the record, and with extents up to
`2 ^ 63` the bounding radius is finite. -/
theorem packed_sane_within (s : Settings) (d : SceneDescription) (hv : d.validate s = .ok ())
    (records : Array ObjectRecord) (hrecords : (ofDescription d).1.objects = .generic records)
    (k : Nat) (hk : k < d.objects.length) (hplane : d.objects[k].shape ≠ .plane) :
    ∃ r, records[k]? = some r ∧ d.objects[k].SaneWithin r := by
  have hd := validate_eq_ok_iff_accepted.mp hv
  refine ⟨_, getElem?_generic hrecords hk, ?_⟩
  exact SceneObject.saneWithin_pack (hd.geometry _ (List.getElem_mem hk)) hplane _

/-- A scene of objects of one material. -/
def sceneOf (objects : List SceneObject) : SceneDescription where
  info := .default
  camera := .default
  sky := .default
  render := .default
  materials := [⟨"a", .default, .none⟩]
  objects := objects

/-- An object of that material. -/
def objectOf (shape : Shape) (g : Geometry) : SceneObject := ⟨shape, "a", false, g⟩

/-- A pyramid of a radius. -/
def pyramid (radius : Single) : SceneObject :=
  objectOf .pyramid { Geometry.default with radius := radius }

theorem packed_sane_within_ordinary :
    (sceneOf [pyramid 2]).validate .default = .ok () ∧ Shape.pyramid ≠ .plane ∧
      ∃ records, (ofDescription (sceneOf [pyramid 2])).1.objects = .generic records ∧
        ∃ r, records[0]? = some r ∧ (pyramid 2).SaneWithin r ∧ r.Sane := by
  have hvalid : (sceneOf [pyramid 2]).validate .default = .ok () :=
    Outcome.eq_ok_of_isOk (by decide)
  have hrecords : (ofDescription (sceneOf [pyramid 2])).1.objects = .generic _ :=
    ofDescription_objects _
  obtain ⟨r, hr, hwithin⟩ := packed_sane_within _ _ hvalid _ hrecords 0 Nat.one_pos nofun
  exact ⟨hvalid, nofun, _, hrecords, r, hr, hwithin,
    (hwithin.solid (by decide)).mpr (by decide)⟩

/-- Two pyramids whose squares are zero and infinite, and a box that is halved to zero. -/
def extremes : List SceneObject :=
  [pyramid 1e-30, pyramid 1e30,
   objectOf .box { Geometry.default with size := .replicate ⟨1⟩ }]

/-- **Not all records of an accepted scene are sane**, though no object is a plane. -/
theorem extremes_not_sane :
    (sceneOf extremes).validate .default = .ok () ∧ (∀ o ∈ extremes, o.shape ≠ .plane) ∧
      ∃ records, (ofDescription (sceneOf extremes)).1.objects = .generic records ∧
        records.size = 3 ∧ ∀ r ∈ records.toList, ¬ r.Sane := by
  have hrecords : (ofDescription (sceneOf extremes)).1.objects = .generic _ :=
    ofDescription_objects _
  refine ⟨Outcome.eq_ok_of_isOk (by decide), by decide, _, hrecords, rfl, ?_⟩
  decide +kernel

end CompiledScene

end ScenePack
