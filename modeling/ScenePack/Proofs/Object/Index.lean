import ScenePack.Object.Record
import ScenePack.Proofs.Binary.Whole

/-!
# Positions of materials in records

A record holds the position of its object's material as a single, and its consumer
(`CompiledObject::material_index`) takes the whole part of that. A single has 24 significant digits,
so that positions up to `2 ^ 24` come back, and those beyond come back rounded. The id of a shape is
small enough to come back always.

Results:
* **`Single.toUInt32_ofNat`**: a number below `2 ^ 32` comes back rounded, and clamped to 32 bits.
* `Single.toUInt32_ofNat_of_le`: up to `2 ^ 24` it comes back as it is.
* **`SceneObject.decode_pack`**: what is read back from a record.
-/

namespace ScenePack

namespace Single

open BinaryFormat

variable {n : Nat}

/-- **A number of 32 bits comes back rounded to 24 digits**, and clamped to 32 bits. -/
theorem toUInt32_ofNat (hn : n < 2 ^ 32) :
    ∃ r, RoundsTo 24 n r ∧ (ofNat n).toUInt32.toNat = min r (2 ^ 32 - 1) := by
  have hfinite := round_lt_infinity_of_le (n := n) (by omega)
  obtain ⟨r, hr, hunits⟩ := roundsTo_round (by decide) hfinite
  have hnumber : (ofNat n).number = ⟨false, single.round (n * single.one) 1⟩ :=
    number_ofNumber (hfinite.trans (by decide))
  have hnan : single.isNaN ⟨false, single.round (n * single.one) 1⟩ = false :=
    decide_eq_false (Nat.lt_asymm hfinite)
  refine ⟨r, hr, ?_⟩
  unfold toUInt32
  rw [hnumber]
  dsimp only
  rw [hnan, Bool.or_false, if_neg Bool.false_ne_true, Nat.min_eq_left hfinite.le, hunits,
    Nat.mul_div_cancel _ single.one_pos]
  exact UInt32.toNat_ofNat_of_lt' (by unfold UInt32.size; omega)

theorem toUInt32_ofNat_of_le (hn : n ≤ 2 ^ 24) : (ofNat n).toUInt32.toNat = n := by
  obtain ⟨r, hr, hword⟩ := toUInt32_ofNat (n := n) (by omega)
  have hbits : HasBits 24 n := hasBits_of_le (by decide) hn
  rw [hword, hr.unique (.of_hasBits hbits)]
  omega

end Single

namespace SceneObject

theorem materialIndex_pack (o : SceneObject) (n : UInt32) :
    (o.pack n).materialIndex = (Single.ofNat n.toNat).toUInt32 := by
  unfold pack
  cases o.shape <;> rfl

theorem shapeId_pack (o : SceneObject) (n : UInt32) :
    (o.pack n).shapeId = (Single.ofNat o.shape.id).toUInt32 := by
  unfold pack
  cases o.shape <;> rfl

/-- **What is read back from a record.** The shape comes back, and the position of the material comes
back rounded to 24 significant digits and clamped to 32 bits. So positions up to `2 ^ 24` come back
as they are and stay apart, and no positions change their order; the first that comes back as
another is `2 ^ 24 + 1`. -/
theorem decode_pack :
    (∀ (o : SceneObject) (n : UInt32), (o.pack n).shapeId.toNat = o.shape.id ∧
      ∃ r, (∀ m, RoundsTo 24 n.toNat m ↔ m = r) ∧
        (o.pack n).materialIndex.toNat = min r (2 ^ 32 - 1)) ∧
    (∀ (o : SceneObject) (n : UInt32), n.toNat ≤ 2 ^ 24 → (o.pack n).materialIndex = n) ∧
    (∀ (o o' : SceneObject) (m n : UInt32), m.toNat ≤ 2 ^ 24 → n.toNat ≤ 2 ^ 24 → m ≠ n →
      (o.pack m).materialIndex ≠ (o'.pack n).materialIndex) ∧
    (∀ (o o' : SceneObject) (m n : UInt32), m ≤ n →
      (o.pack m).materialIndex ≤ (o'.pack n).materialIndex) ∧
    ∀ o : SceneObject, (o.pack (.ofNat (2 ^ 24 + 1))).materialIndex = .ofNat (2 ^ 24) := by
  have hexact (o : SceneObject) (n : UInt32) (hn : n.toNat ≤ 2 ^ 24) :
      (o.pack n).materialIndex = n := by
    rw [materialIndex_pack]
    exact UInt32.toNat_inj.mp (Single.toUInt32_ofNat_of_le hn)
  refine ⟨fun o n => ⟨?_, ?_⟩, hexact, fun o o' m n hm hn hne => ?_, fun o o' m n hle => ?_,
    fun o => ?_⟩
  · have hid : o.shape.id ≤ 2 ^ 24 := by cases o.shape <;> decide
    rw [shapeId_pack, Single.toUInt32_ofNat_of_le hid]
  · obtain ⟨r, hr, hword⟩ := Single.toUInt32_ofNat n.toNat_lt
    rw [materialIndex_pack, hword]
    exact ⟨r, fun m => ⟨fun hm => hm.unique hr, fun hm => hm ▸ hr⟩, rfl⟩
  · rw [hexact o m hm, hexact o' n hn]
    exact hne
  · obtain ⟨r, hr, hword⟩ := Single.toUInt32_ofNat m.toNat_lt
    obtain ⟨r', hr', hword'⟩ := Single.toUInt32_ofNat n.toNat_lt
    have hmono := hr.mono hr' (UInt32.le_iff_toNat_le.mp hle)
    rw [materialIndex_pack, materialIndex_pack, UInt32.le_iff_toNat_le, hword, hword']
    omega
  · rw [materialIndex_pack]
    decide

/-- At the greatest position that comes back as it is, and between it and the next. -/
theorem decode_pack_edge :
    ((default : SceneObject).pack (.ofNat (2 ^ 24))).materialIndex = .ofNat (2 ^ 24) ∧
      ((default : SceneObject).pack (.ofNat (2 ^ 24))).materialIndex ≠
        ((default : SceneObject).pack (.ofNat (2 ^ 24 - 1))).materialIndex ∧
      ((default : SceneObject).pack (.ofNat (2 ^ 24))).materialIndex ≤
        ((default : SceneObject).pack (.ofNat (2 ^ 32 - 1))).materialIndex := by
  obtain ⟨-, hexact, hapart, hmono, -⟩ := decode_pack
  exact ⟨hexact default _ (by decide), hapart default default _ _ (by decide) (by decide) (by decide),
    hmono default default _ _ (by decide)⟩

end SceneObject

end ScenePack
