import Mathlib.Data.List.Nodup
import ScenePack.Settings.Assignment

/-!
# Settings and their assignments

* `Assignment.Same`, `Settings.Same`: the same values, where all NaNs count as one.
* `Settings.Assigned`: settings that hold some assignments, and the defaults elsewhere.

Results:
* `get_assign`, `get_foldl_assign`: what settings hold after assignments.
* **`ofAssignments?_eq_some`**: assignments to different settings make settings that hold them.
-/

namespace ScenePack

namespace SettingName

@[simp]
theorem ofKey?_key (name : SettingName) : ofKey? name.key = some name := by
  cases name <;> decide

theorem key_injective : Function.Injective key := by
  intro a b h
  simpa using congrArg ofKey? h

end SettingName

/-- The same value of the same setting; all NaNs count as one. -/
def Assignment.Same : Assignment → Assignment → Prop
  | .planeNormalEpsilon x, .planeNormalEpsilon y => x = y ∨ x.isNaN = true ∧ y.isNaN = true
  | a, b => a = b

namespace Assignment

variable {a b : Assignment}

theorem Same.refl (a : Assignment) : a.Same a := by
  cases a <;> simp [Same]

theorem Same.name_eq (h : a.Same b) : a.name = b.name := by
  cases a <;> cases b <;> simp_all [Same, name]

end Assignment

namespace Settings

variable {s c : Settings} {a : Assignment} {as : List Assignment}

/-- The same settings; all NaNs count as one. -/
structure Same (s c : Settings) : Prop where
  templateFallback : s.templateFallback = c.templateFallback
  planeNormalEpsilon : s.planeNormalEpsilon = c.planeNormalEpsilon ∨
    s.planeNormalEpsilon.isNaN = true ∧ c.planeNormalEpsilon.isNaN = true
  maxObjects : s.maxObjects = c.maxObjects
  maxMaterials : s.maxMaterials = c.maxMaterials
  maxLights : s.maxLights = c.maxLights

theorem same_iff : s.Same c ↔ ∀ name, (s.get name).Same (c.get name) := by
  constructor
  · rintro ⟨h₁, h₂, h₃, h₄, h₅⟩ name
    cases name <;> simp [get, Assignment.Same, *]
  · intro h
    have h₁ := h .templateFallback
    have h₂ := h .planeNormalEpsilon
    have h₃ := h .maxObjects
    have h₄ := h .maxMaterials
    have h₅ := h .maxLights
    simp only [get, Assignment.Same, Assignment.templateFallback.injEq, Assignment.maxObjects.injEq,
      Assignment.maxMaterials.injEq, Assignment.maxLights.injEq] at h₁ h₂ h₃ h₄ h₅
    exact ⟨h₁, h₂, h₃, h₄, h₅⟩

@[simp]
theorem name_get (s : Settings) (name : SettingName) : (s.get name).name = name := by
  cases name <;> rfl

theorem get_assign (s : Settings) (a : Assignment) (name : SettingName) :
    (s.assign a).get name = if a.name = name then a else s.get name := by
  cases a <;> cases name <;> rfl

/-- A setting that is not assigned stays as it is. -/
theorem get_foldl_assign_of_not_mem {name : SettingName} (h : name ∉ as.map (·.name))
    (s : Settings) : (as.foldl assign s).get name = s.get name := by
  induction as generalizing s with
  | nil => rfl
  | cons a as ih =>
    rw [List.map_cons, List.mem_cons, not_or] at h
    rw [List.foldl_cons, ih h.2, get_assign, if_neg (Ne.symm h.1)]

/-- Of assignments to different settings each is held in the end. -/
theorem get_foldl_assign_of_mem (h : (as.map (·.name)).Nodup) (ha : a ∈ as) (s : Settings) :
    (as.foldl assign s).get a.name = a := by
  induction as generalizing s with
  | nil => simp at ha
  | cons b as ih =>
    rw [List.map_cons, List.nodup_cons] at h
    rw [List.foldl_cons]
    rcases List.mem_cons.mp ha with rfl | ha
    · rw [get_foldl_assign_of_not_mem h.1, get_assign, if_pos rfl]
    · exact ih h.2 ha _

/-- **Assignments of a configuration's values to different settings are read as these values, and the
defaults elsewhere.** -/
theorem ofAssignments?_eq_some (h : (as.map (·.name)).Nodup)
    (has : ∀ a ∈ as, a.Same (c.get a.name)) : ∃ s, ofAssignments? as = some s ∧
      ∀ name, (s.get name).Same ((if name ∈ as.map (·.name) then c else default).get name) := by
  refine ⟨as.foldl assign default, if_pos h, fun name => ?_⟩
  by_cases hname : name ∈ as.map (·.name)
  · obtain ⟨a, ha, rfl⟩ := List.mem_map.mp hname
    rw [if_pos hname, get_foldl_assign_of_mem h ha]
    exact has a ha
  · rw [if_neg hname, get_foldl_assign_of_not_mem hname]
    exact Assignment.Same.refl _

end Settings

end ScenePack
