import ScenePack.Proofs.Loading
import ScenePack.Proofs.Scene.Fallback
import ScenePack.Proofs.Validation.Accepted

/-!
# Settings as a gate

Settings decide whether a scene is compiled, never to what. The description does not depend on them
once it is read, what is compiled from it does not either, and validation only compares it with
them. Settings that permit more therefore let through what others let through, unchanged.

* `Settings.Permits` compares settings by what they let through.

Results:
* `allHold_ofGeometry_of_le`: a smaller bound on normals asks for less; no other rule of geometry
  knows the settings.
* `Accepted.of_permits`: what is accepted stays accepted under settings that permit more.
* **`ofText_of_permits`**, `ofText_unique`: a text compiles to the same scene under all settings
  that let it through.
* **`settings_only_gate`**: both, with what fallback comes to.
-/

namespace ScenePack

open Rule

/-- Whatever the one settings let through, the others do. Neither bound on normals is a NaN, since
those compare with nothing. -/
structure Settings.Permits (more less : Settings) : Prop where
  fallback : less.templateFallback ≤ more.templateFallback
  epsilon : more.planeNormalEpsilon.le less.planeNormalEpsilon = true
  objects : less.maxObjects ≤ more.maxObjects
  materials : less.maxMaterials ≤ more.maxMaterials
  lights : less.maxLights ≤ more.maxLights

/-- A smaller bound on the normals of planes asks for less. -/
theorem Rule.allHold_ofGeometry_of_le {small large : Single} (hle : small.le large = true) {k : Nat}
    {o : SceneObject} (h : AllHold (ofGeometry large k o)) : AllHold (ofGeometry small k o) := by
  unfold ofGeometry at h ⊢
  cases hshape : o.shape with
  | plane =>
    simp only [hshape, allHold_cons] at h ⊢
    obtain ⟨hnormal, hdistance, hlong, hnil⟩ := h
    exact ⟨hnormal, hdistance, fun hlt => hlong (Single.lt_of_lt_of_le hlt hle), hnil⟩
  | _ => simpa only [hshape] using h

variable {more less : Settings}

namespace SceneDescription

variable {d : SceneDescription}

theorem Accepted.of_permits (hp : more.Permits less) (h : d.Accepted less) : d.Accepted more :=
  { h with
    geometry := fun o ho => allHold_ofGeometry_of_le hp.epsilon (h.geometry o ho)
    materials_le := Nat.le_trans h.materials_le (UInt64.le_iff_toNat_le.mp hp.materials)
    objects_le := Nat.le_trans h.objects_le (UInt64.le_iff_toNat_le.mp hp.objects)
    lights_le := Nat.le_trans h.lights_le (UInt64.le_iff_toNat_le.mp hp.lights) }

end SceneDescription

namespace LoadedScene

open SceneDescription

variable {text : String} {l l' : LoadedScene}

/-- **What some settings let through, settings that permit more let through unchanged.** -/
theorem ofText_of_permits (hp : more.Permits less) (h : (ofText less text).result = .ok l) :
    (ofText more text).result = .ok l := by
  obtain ⟨d, hd, hv, hl⟩ := ofText_eq_ok_iff.mp h
  have hread := parse_of_le hp.fallback hd
  have haccepted := (validate_eq_ok_iff_accepted.mp hv).of_permits hp
  exact ofText_eq_ok_iff.mpr ⟨d, hread, validate_eq_ok_iff_accepted.mpr haccepted, hl⟩

/-- Two settings that both let a text through compile it to the same scene. -/
theorem ofText_unique {s s' : Settings} (h : (ofText s text).result = .ok l)
    (h' : (ofText s' text).result = .ok l') : l = l' := by
  obtain ⟨d, hd, -, rfl⟩ := ofText_eq_ok_iff.mp h
  obtain ⟨d', hd', -, rfl⟩ := ofText_eq_ok_iff.mp h'
  -- the stricter reader's description is also the other's
  rcases Bool.le_total s.templateFallback s'.templateFallback with hle | hle
  · rw [parse_of_le hle hd] at hd'
    rw [Except.ok.inj hd']
  · rw [parse_of_le hle hd'] at hd
    rw [Except.ok.inj hd]

/-- **Settings only gate.** Two settings under which a text compiles give the same scene; settings
that permit more let through what others do; and fallback reads every tree as strictness reads it
without its unknown templates. -/
theorem settings_only_gate :
    (∀ (text : String) (s s' : Settings) (l l' : LoadedScene), (ofText s text).result = .ok l →
      (ofText s' text).result = .ok l' → l = l') ∧
    (∀ (text : String) (more less : Settings), more.Permits less →
      ∀ l, (ofText less text).result = .ok l → (ofText more text).result = .ok l) ∧
    ∀ v : Json.Value, (ofJson true v).result = (ofJson false v.withoutUnknownTemplates).result := by
  refine ⟨fun text s s' l l' h h' => ?_, fun text more less hp l h => ?_, fun v => ?_⟩
  · exact ofText_unique h h'
  · exact ofText_of_permits hp h
  · exact ofJson_fallback v

/-- The text of a scene with nothing but a floor. -/
def floorText : String :=
  "\x7b\"materials\":[\x7b\"name\":\"a\"\x7d],
\"objects\":[\x7b\"type\":\"plane\",\"material\":\"a\"\x7d]\x7d"

/-- The default settings, but with fallback and for planes with a normal of any length. -/
def lenient : Settings :=
  { Settings.default with templateFallback := true, planeNormalEpsilon := 0 }

theorem lenient_permits_default : lenient.Permits .default where
  fallback := by decide
  epsilon := by decide
  objects := by decide
  materials := by decide
  lights := by decide

theorem settings_only_gate_floor :
    ∃ l l', (ofText .default floorText).result = .ok l ∧
      (ofText lenient floorText).result = .ok l' ∧ l = l' ∧
      (ofText lenient floorText).result = .ok l := by
  obtain ⟨l, hl⟩ := Outcome.isOk_iff.mp
    (show (ofText .default floorText).result.isOk = true by decide +kernel)
  obtain ⟨l', hl'⟩ := Outcome.isOk_iff.mp
    (show (ofText lenient floorText).result.isOk = true by decide +kernel)
  exact ⟨l, l', hl, hl', settings_only_gate.1 _ _ _ _ _ hl hl',
    settings_only_gate.2.1 _ _ _ lenient_permits_default _ hl⟩

end LoadedScene

end ScenePack
