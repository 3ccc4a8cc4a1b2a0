import ScenePack.Json.Value

/-!
# Editing trees

Two scenes are compared by changing one tree into another: at a key of an object, in every item of
an array, or by taking a key out. Readers see the fields of an object through `Fields.get?` alone,
so an edit is known by what `get?` answers after it.

* `Fields.mapAt`, `Fields.erase`, `Fields.keep`: change the value of a key, take a key out, keep the
  keys of some kind.
* `Value.mapObject`, `Value.mapItems`, `Value.mapItem`: change an object, the items of an array, or
  one of them.

Results:
* `get?_mapAt_self`, `get?_mapAt_of_ne`, `get?_erase_self`, `get?_erase_of_ne`, `get?_keep`,
  `get?_insert_of_ne`: what is found after an edit.
-/

namespace ScenePack.Json

/-! ## Fields -/

namespace Fields

/-- Change the value of a key, where there is one. -/
def mapAt (key : String) (f : Value → Value) (fields : Fields) : Fields :=
  fields.map fun field => (field.1, if field.1 = key then f field.2 else field.2)

/-- Take a key out. -/
def erase (key : String) (fields : Fields) : Fields := fields.filter (·.1 ≠ key)

/-- Keep the fields whose keys are of some kind. -/
def keep (p : String → Bool) (fields : Fields) : Fields := fields.filter (p ·.1)

variable {key k : String} {f : Value → Value} {fields : Fields}

theorem get?_mapAt : (mapAt key f fields).get? k =
    (fields.get? k).map fun v => if k = key then f v else v := by
  unfold get? mapAt
  rw [List.find?_map, Option.map_map, Option.map_map]
  -- the key of what is found is the key that was looked for
  refine Option.map_congr fun field hfield => ?_
  have hk : field.1 = k := by simpa using List.find?_some hfield
  simp [hk]

theorem get?_mapAt_self : (mapAt key f fields).get? key = (fields.get? key).map f := by
  rw [get?_mapAt]
  simp

theorem get?_mapAt_of_ne (h : k ≠ key) : (mapAt key f fields).get? k = fields.get? k := by
  rw [get?_mapAt]
  simp [h]

theorem get?_erase_self : (erase key fields).get? key = none := by
  simp [get?, erase]

theorem get?_erase_of_ne (h : k ≠ key) : (erase key fields).get? k = fields.get? k := by
  unfold get? erase
  rw [List.find?_filter]
  congr 2
  funext field
  by_cases hf : field.1 = k
  · simp [hf, h]
  · simp [hf]

theorem get?_keep {p : String → Bool} :
    (keep p fields).get? k = if p k then fields.get? k else none := by
  unfold get? keep
  rw [List.find?_filter]
  by_cases hk : p k = true
  · rw [if_pos hk]
    congr 2
    funext field
    by_cases hf : field.1 = k
    · simp [hf, hk]
    · simp [hf]
  · rw [if_neg hk, Option.map_eq_none_iff, List.find?_eq_none]
    intro field _ hfield
    simp only [decide_eq_true_eq] at hfield
    obtain ⟨hp, rfl⟩ := hfield
    exact hk hp

/-- Writing one key leaves the others. -/
theorem get?_insert_of_ne {v : Value} (h : k ≠ key) :
    (insert key v fields).get? k = fields.get? k := by
  have hne : ¬ key = k := fun hkey => h hkey.symm
  unfold get?
  induction fields with
  | nil => simp [insert, hne]
  | cons field rest ih =>
    obtain ⟨k', w⟩ := field
    unfold insert
    split
    · simp [hne]
    · split
      · rename_i hkey
        have hk' : ¬ k' = k := fun hk' => hne (hkey.trans hk')
        simp [hne, hk']
      · by_cases hk' : k' = k
        · simp [hk']
        · simpa [hk'] using ih

end Fields

/-! ## Values -/

namespace Value

/-- Change the fields of an object; anything else stays. -/
def mapObject (f : Fields → Fields) : Value → Value
  | object fields => object (f fields)
  | v => v

/-- Change each item of an array; anything else stays. -/
def mapItems (f : Value → Value) : Value → Value
  | array items => array (items.map f)
  | v => v

/-- Change the item of an array at a position; anything else stays. -/
def mapItem (i : Nat) (f : Value → Value) : Value → Value
  | array items => array (items.modify i f)
  | v => v

end Value

end ScenePack.Json
