import ScenePack.Compiled

/-!
# The table of names, through the material pass

A table is known by what it gives each name. Recording a name changes nothing but that name, and not
even that when it was there before; so the pass over the materials leaves each name with the first
position it stands at.

Results:
* `get?_insert`: what one recording does; `insert_of_some`, `pairs_insert_of_none`: to the pairs.
* `consistent_nameMaterials`: a table lists each name with the position that it gives it.
* **`get?_nameMaterials`**: what the pass leaves, from any table and position on, and
  `get?_nameMaterials_empty` from the start.
* **`get?_nameMaterials_iff`**: where names differ, a name has a position iff it stands there.
-/

namespace ScenePack

namespace NameTable

theorem get?_empty (n : String) : empty.get? n = none := rfl

theorem lookup_singleton (name n : String) (position : UInt32) :
    [(name, position)].lookup n = if name = n then some position else none := by
  by_cases hn : name = n
  · rw [if_pos hn, hn, List.lookup_cons_self]
  · rw [if_neg hn, List.lookup_cons, beq_false_of_ne (Ne.symm hn), List.lookup_nil]

/-- A name keeps the position it has; one that has none gets the new one. -/
theorem get?_insert (t : NameTable) (name n : String) (position : UInt32) :
    (t.insert name position).get? n =
      (t.get? n).or (if name = n then some position else none) := by
  unfold insert
  cases h : t.get? name with
  | some p =>
    by_cases hn : name = n
    · rw [if_pos hn, ← hn, h]; rfl
    · rw [if_neg hn, Option.or_none]
  | none =>
    show (t.pairs ++ [(name, position)]).lookup n = _
    rw [List.lookup_append, lookup_singleton]
    rfl

/-- A name that is there is not recorded again. -/
theorem insert_of_some {t : NameTable} {name : String} {p : UInt32} (h : t.get? name = some p)
    (position : UInt32) : t.insert name position = t := by
  rw [insert, h]

/-- A name that is not there is added at the end. -/
theorem pairs_insert_of_none {t : NameTable} {name : String} (h : t.get? name = none)
    (position : UInt32) : (t.insert name position).pairs = t.pairs ++ [(name, position)] := by
  rw [insert, h]

/-- Every name that is listed is found with the position it is listed with. -/
def Consistent (t : NameTable) : Prop := ∀ pair ∈ t.pairs, t.get? pair.1 = some pair.2

theorem consistent_empty : empty.Consistent := fun _ h => absurd h List.not_mem_nil

theorem Consistent.insert {t : NameTable} (h : t.Consistent) (name : String) (position : UInt32) :
    (t.insert name position).Consistent := by
  intro pair hpair
  rw [get?_insert]
  cases hname : t.get? name with
  | some p =>
    rw [insert_of_some hname] at hpair
    rw [h pair hpair, Option.some_or]
  | none =>
    rw [pairs_insert_of_none hname] at hpair
    rcases List.mem_append.mp hpair with hold | hnew
    · rw [h pair hold, Option.some_or]
    · rw [List.mem_singleton.mp hnew, hname, Option.none_or, if_pos rfl]

/-- A table that is consistent equals itself. -/
theorem Consistent.beq_self {t : NameTable} (h : t.Consistent) : (t == t) = true := by
  show (decide (t.size = t.size) && t.pairs.all fun pair =>
    decide (t.get? pair.1 = some pair.2)) = true
  rw [decide_eq_true rfl, Bool.true_and, List.all_eq_true]
  exact fun pair hpair => decide_eq_true (h pair hpair)

end NameTable

namespace CompiledScene

theorem consistent_nameMaterials : ∀ (ms : List Material) {t : NameTable} (position : Nat),
    t.Consistent → (nameMaterials t position ms).Consistent
  | [], _, _, h => h
  | m :: ms, _, position, h => consistent_nameMaterials ms (position + 1) (h.insert m.name _)

/-- **What the material pass leaves a name with**: the position it had, else the first one it
stands at. -/
theorem get?_nameMaterials : ∀ (ms : List Material) (t : NameTable) (position : Nat) (n : String),
    (nameMaterials t position ms).get? n =
      (t.get? n).or ((ms.findIdx? fun m => m.name = n).map fun i => UInt32.ofNat (position + i))
  | [], t, position, n => by
    rw [List.findIdx?_nil, Option.map_none, Option.or_none]
    rfl
  | m :: ms, t, position, n => by
    rw [nameMaterials, get?_nameMaterials ms, NameTable.get?_insert, Option.or_assoc,
      List.findIdx?_cons]
    congr 1
    by_cases hn : m.name = n
    · simp [hn]
    · simp only [hn, if_false, Option.none_or, decide_false, Bool.false_eq_true, Option.map_map]
      congr 1
      funext i
      show UInt32.ofNat (position + 1 + i) = UInt32.ofNat (position + (i + 1))
      rw [Nat.add_assoc, Nat.add_comm 1]

theorem get?_nameMaterials_empty (ms : List Material) (n : String) :
    (nameMaterials .empty 0 ms).get? n = (ms.findIdx? fun m => m.name = n).map UInt32.ofNat := by
  rw [get?_nameMaterials, NameTable.get?_empty, Option.none_or]
  simp only [Nat.zero_add]

/-- A name has no position iff no material bears it. -/
theorem get?_nameMaterials_eq_none_iff (ms : List Material) (n : String) :
    (nameMaterials .empty 0 ms).get? n = none ↔ ∀ m ∈ ms, m.name ≠ n := by
  rw [get?_nameMaterials_empty, Option.map_eq_none_iff, List.findIdx?_eq_none_iff]
  simp only [decide_eq_false_iff_not, ne_eq]

/-- Of names that differ, the first position is the only one. -/
theorem findIdx?_name_eq_some_iff {ms : List Material} (hnd : (ms.map (·.name)).Nodup) {n : String}
    {j : Nat} :
    (ms.findIdx? fun m => m.name = n) = some j ↔ ∃ h : j < ms.length, ms[j].name = n := by
  rw [List.findIdx?_eq_some_iff_getElem]
  simp only [decide_eq_true_eq]
  refine ⟨fun ⟨h, hj, _⟩ => ⟨h, hj⟩, fun ⟨h, hj⟩ => ⟨h, hj, fun i hi hni => ?_⟩⟩
  have hi' : i < (ms.map (·.name)).length := by rw [List.length_map]; exact Nat.lt_trans hi h
  have hj' : j < (ms.map (·.name)).length := by rw [List.length_map]; exact h
  have hsame : (ms.map (·.name))[i] = (ms.map (·.name))[j] := by
    rw [List.getElem_map, List.getElem_map, hni, hj]
  exact Nat.ne_of_lt hi ((List.getElem_inj hnd).mp hsame)

/-- **Where names differ, a name has a position iff it stands there.** -/
theorem get?_nameMaterials_iff {ms : List Material} (hnd : (ms.map (·.name)).Nodup)
    (hlen : ms.length < UInt32.size) {n : String} {p : UInt32} :
    (nameMaterials .empty 0 ms).get? n = some p ↔
      ∃ h : p.toNat < ms.length, ms[p.toNat].name = n := by
  rw [get?_nameMaterials_empty, Option.map_eq_some_iff]
  constructor
  · rintro ⟨j, hj, rfl⟩
    obtain ⟨h, hname⟩ := (findIdx?_name_eq_some_iff hnd).mp hj
    have hp : (UInt32.ofNat j).toNat = j := UInt32.toNat_ofNat_of_lt' (Nat.lt_trans h hlen)
    simp only [hp]
    exact ⟨h, hname⟩
  · rintro ⟨h, hname⟩
    exact ⟨p.toNat, (findIdx?_name_eq_some_iff hnd).mpr ⟨h, hname⟩, UInt32.ofNat_toNat⟩

end CompiledScene

end ScenePack
