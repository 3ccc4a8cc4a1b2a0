import ScenePack.Compiled

/-!
# Bytes at their places

The arrays are uploaded as blocks of one size, one after another, so that a consumer finds a block,
and a word within it, by arithmetic.

Results:
* `length_flatMap_block`, `drop_flatMap_block`, `take_flatMap_block`: blocks of one size lie at the
  multiples of that size.
* **`itemsAt_flatMap_block`**: what lies within a block, seen from the start of the array.
* `itemsAt_flatMap_wordBytes`: words lie at the multiples of four.
* `getElem?_eq_of_itemsAt_eq`: from equal stretches to equal items.
-/

namespace ScenePack

variable {α β : Type}

/-! ## Blocks -/

section Blocks

variable {f : α → List β} {size : Nat}

theorem length_flatMap_block (hf : ∀ a, (f a).length = size) :
    ∀ as : List α, (as.flatMap f).length = size * as.length
  | [] => rfl
  | a :: as => by
    rw [List.flatMap_cons, List.length_append, hf, length_flatMap_block hf as, List.length_cons,
      Nat.mul_succ, Nat.add_comm]

theorem drop_flatMap_block (hf : ∀ a, (f a).length = size) :
    ∀ (i : Nat) (as : List α), (as.flatMap f).drop (size * i) = (as.drop i).flatMap f
  | 0, _ => rfl
  | _ + 1, [] => List.drop_nil
  | i + 1, a :: as => by
    rw [List.flatMap_cons, Nat.mul_succ, Nat.add_comm, ← List.drop_drop,
      List.drop_left' (hf a), drop_flatMap_block hf i as, List.drop_succ_cons]

theorem take_flatMap_block (hf : ∀ a, (f a).length = size) :
    ∀ (k : Nat) (as : List α), (as.flatMap f).take (size * k) = (as.take k).flatMap f
  | 0, _ => by rw [Nat.mul_zero, List.take_zero, List.take_zero, List.flatMap_nil]
  | _ + 1, [] => List.take_nil
  | k + 1, a :: as => by
    rw [List.flatMap_cons, Nat.mul_succ, Nat.add_comm, ← hf a, List.take_length_add_append, hf a,
      take_flatMap_block hf k as, List.take_succ_cons, List.flatMap_cons]

end Blocks

/-! ## Stretches of an array -/

/-- The `count` items from `start` on. -/
def itemsAt (items : List β) (start count : Nat) : List β := (items.drop start).take count

/-- **What lies within a block** lies behind all blocks before it. -/
theorem itemsAt_flatMap_block {f : α → List β} {size : Nat} (hf : ∀ a, (f a).length = size)
    {as : List α} {i : Nat} (hi : i < as.length) {start count : Nat} (h : start + count ≤ size) :
    itemsAt (as.flatMap f) (size * i + start) count = itemsAt (f as[i]) start count := by
  have hstart : start ≤ (f as[i]).length := by
    rw [hf]
    exact Nat.le_of_add_right_le h
  have hcount : count ≤ ((f as[i]).drop start).length := by
    rw [List.length_drop, hf]
    exact Nat.le_sub_of_add_le' h
  unfold itemsAt
  rw [← List.drop_drop, drop_flatMap_block hf, List.drop_eq_getElem_cons hi, List.flatMap_cons,
    List.drop_append_of_le_length hstart, List.take_append_of_le_length hcount]

theorem length_wordBytes (w : UInt32) : (wordBytes w).length = 4 := rfl

/-- Words lie at the multiples of four. -/
theorem itemsAt_flatMap_wordBytes (words : List UInt32) (i k : Nat) :
    itemsAt (words.flatMap wordBytes) (4 * i) (4 * k) = (itemsAt words i k).flatMap wordBytes := by
  unfold itemsAt
  rw [drop_flatMap_block length_wordBytes, take_flatMap_block length_wordBytes]

/-- Two arrays that have the same stretch behind `p` and behind `q` have the same items in it. -/
theorem getElem?_eq_of_itemsAt_eq {xs ys : List β} {p q start count k : Nat}
    (h : itemsAt xs (p + start) count = itemsAt ys (q + start) count) (hle : start ≤ k)
    (hlt : k < start + count) : xs[p + k]? = ys[q + k]? := by
  obtain ⟨i, rfl⟩ := Nat.exists_eq_add_of_le hle
  have hi : i < count := Nat.lt_of_add_lt_add_left hlt
  have hitem (zs : List β) (r : Nat) :
      zs[r + (start + i)]? = (itemsAt zs (r + start) count)[i]? := by
    rw [itemsAt, List.getElem?_take_of_lt hi, List.getElem?_drop, Nat.add_assoc]
  rw [hitem, h, hitem]

end ScenePack
