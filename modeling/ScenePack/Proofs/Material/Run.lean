import Mathlib.Data.List.Nodup
import ScenePack.Proofs.Binary.Class
import ScenePack.Proofs.Material.Field

/-!
# Runs of edits

Edits (`MaterialBuilder`) and overrides (`MaterialFactory::overlay`) are two ways of writing to a
record, made apart from each other. For every field they agree on what is written, so that after a
run of both, in any mixture, a field holds what the last step wrote that writes it.

* `MaterialStep.written` is what a step writes to a field, `lastWritten` what a run does in the end.
* `MaterialOverrides.edits` says overrides as edits, `update` lays overrides over others.

Results:
* `words_apply`, `padding_apply`: what one step changes.
* **`words_applyAll`**, `padding_applyAll`: what a run changes.
* `ext_words`: a record is its fields and its padding.
* `lastWritten_of_perm`: overrides as edits write the same, in whatever order.
* **`last_write_wins`**: what follows for runs, overrides and edits.
-/

namespace ScenePack

/-! ## What a step writes -/

namespace MaterialEdit

/-- The field that an edit is of. -/
def field : MaterialEdit → MaterialField
  | albedo _ => .albedo
  | emission _ => .emission
  | emissionStrength _ => .emissionStrength
  | emissionMode _ => .emissionMode
  | roughness _ => .roughness
  | metallic _ => .metallic
  | transmission _ => .transmission
  | ior _ => .ior
  | specularTint _ => .specularTint
  | specular _ => .specular
  | clearcoat _ => .clearcoat
  | clearcoatRoughness _ => .clearcoatRoughness
  | subsurface _ => .subsurface
  | absorption _ => .absorption
  | sheen _ => .sheen
  | subsurfaceRadius _ => .subsurfaceRadius
  | scatteringAnisotropy _ => .scatteringAnisotropy

/-- The words of an edit's value. -/
def words : MaterialEdit → List UInt32
  | albedo v | emission v | specularTint v | absorption v => v.words
  | emissionMode mode => [mode.word]
  | emissionStrength s | roughness s | metallic s | transmission s | ior s | specular s
  | clearcoat s | clearcoatRoughness s | subsurface s | sheen s | subsurfaceRadius s
  | scatteringAnisotropy s => [s.bits]

end MaterialEdit

namespace MaterialStep

/-- The words that a step writes to a field, if it does. -/
def written (f : MaterialField) : MaterialStep → Option (List UInt32)
  | edit e => if e.field = f then some e.words else none
  | overlay o => f.written o

/-- The words that the last step wrote that writes a field, if any does. -/
def lastWritten (f : MaterialField) (steps : List MaterialStep) : Option (List UInt32) :=
  steps.reverse.findSome? (written f)

variable {f : MaterialField} {steps : List MaterialStep} {ws : List UInt32}

theorem lastWritten_cons (step : MaterialStep) (steps : List MaterialStep) :
    lastWritten f (step :: steps) = (lastWritten f steps).or (step.written f) := by
  rw [lastWritten, List.reverse_cons, List.findSome?_append, List.findSome?_singleton]
  rfl

/-- **The last step that writes a field**: it does, and none behind it does. -/
theorem lastWritten_eq_some_iff : lastWritten f steps = some ws ↔
    ∃ before step after, steps = before ++ step :: after ∧ step.written f = some ws ∧
      ∀ later ∈ after, later.written f = none := by
  rw [lastWritten, List.findSome?_eq_some_iff]
  constructor
  · rintro ⟨after, step, before, hsteps, hwritten, hafter⟩
    refine ⟨before.reverse, step, after.reverse, ?_, hwritten, ?_⟩
    · rw [← List.reverse_reverse steps, hsteps]
      simp
    · intro later hlater
      exact hafter later (List.mem_reverse.mp hlater)
  · rintro ⟨before, step, after, rfl, hwritten, hafter⟩
    refine ⟨after.reverse, step, before.reverse, by simp, hwritten, ?_⟩
    intro later hlater
    exact hafter later (List.mem_reverse.mp hlater)

end MaterialStep

/-! ## What a run changes -/

namespace MaterialRecord

open MaterialStep (lastWritten)

/-- The words between the fields. -/
def padding (m : MaterialRecord) : List UInt32 :=
  [m.padding0.bits, m.padding1.bits, m.padding2.bits]

variable {m m' : MaterialRecord}

/-- **An edit writes its field**, and keeps all others. -/
theorem words_edit (m : MaterialRecord) (e : MaterialEdit) (f : MaterialField) :
    f.words (m.edit e) = if e.field = f then e.words else f.words m := by
  -- for each edit and each field, whether the field is the edit's is decided
  cases e <;> cases f <;> rfl

/-- **A step writes what it writes**, and keeps all else. -/
theorem words_apply (m : MaterialRecord) (step : MaterialStep) (f : MaterialField) :
    f.words (m.apply step) = (step.written f).getD (f.words m) := by
  cases step with
  | edit e =>
    show f.words (m.edit e) = (if e.field = f then some e.words else none).getD (f.words m)
    rw [words_edit]
    split <;> rfl
  | overlay o => exact f.words_overlay m o

theorem padding_apply (m : MaterialRecord) (step : MaterialStep) :
    (m.apply step).padding = m.padding := by
  cases step with
  | edit e => cases e <;> rfl
  | overlay o => rfl

/-- **A field holds what the last step wrote that writes it.** -/
theorem words_applyAll (m : MaterialRecord) (steps : List MaterialStep) (f : MaterialField) :
    f.words (m.applyAll steps) = (lastWritten f steps).getD (f.words m) := by
  induction steps generalizing m with
  | nil => rfl
  | cons step steps ih =>
    calc f.words (m.applyAll (step :: steps))
        = (lastWritten f steps).getD (f.words (m.apply step)) := ih (m.apply step)
      _ = (lastWritten f steps).getD ((step.written f).getD (f.words m)) := by rw [words_apply]
      _ = (lastWritten f (step :: steps)).getD (f.words m) := by
        rw [MaterialStep.lastWritten_cons, Option.getD_or]

theorem padding_applyAll (m : MaterialRecord) (steps : List MaterialStep) :
    (m.applyAll steps).padding = m.padding := by
  induction steps generalizing m with
  | nil => rfl
  | cons step steps ih => exact (ih (m.apply step)).trans (padding_apply m step)

/-- **A record is its fields and its padding.** -/
theorem ext_words (hwords : ∀ f : MaterialField, f.words m = f.words m')
    (hpadding : m.padding = m'.padding) : m = m' := by
  have vector {v w : Vec3} (h : v.words = w.words) : v = w := Vec3.words_inj.mp h
  have scalar {s t : Single} (h : [s.bits] = [t.bits]) : s = t :=
    Single.bits_inj.mp (List.singleton_inj.mp h)
  obtain ⟨h0, h1, h2⟩ : m.padding0 = m'.padding0 ∧ m.padding1 = m'.padding1 ∧
      m.padding2 = m'.padding2 := by
    simpa [padding, Single.bits_inj] using hpadding
  cases m
  cases m'
  rw [mk.injEq]
  exact ⟨vector (hwords .albedo), h0, vector (hwords .emission), scalar (hwords .emissionStrength),
    scalar (hwords .roughness), scalar (hwords .metallic), scalar (hwords .transmission),
    scalar (hwords .ior), vector (hwords .specularTint), scalar (hwords .specular),
    scalar (hwords .clearcoat), scalar (hwords .clearcoatRoughness), scalar (hwords .subsurface),
    List.singleton_inj.mp (hwords .emissionMode), vector (hwords .absorption),
    scalar (hwords .sheen), scalar (hwords .subsurfaceRadius),
    scalar (hwords .scatteringAnisotropy), h1, h2⟩

end MaterialRecord

/-! ## Overrides as edits -/

namespace MaterialOverrides

/-- The edit of a field that overrides hold for it. -/
def edit? (o : MaterialOverrides) : MaterialField → Option MaterialEdit
  | .albedo => o.albedo.map .albedo
  | .emission => o.emission.map .emission
  | .emissionStrength => o.emissionStrength.map .emissionStrength
  | .emissionMode => o.emissionMode.map .emissionMode
  | .roughness => o.roughness.map .roughness
  | .metallic => o.metallic.map .metallic
  | .transmission => o.transmission.map .transmission
  | .ior => o.ior.map .ior
  | .specularTint => o.specularTint.map .specularTint
  | .specular => o.specular.map .specular
  | .clearcoat => o.clearcoat.map .clearcoat
  | .clearcoatRoughness => o.clearcoatRoughness.map .clearcoatRoughness
  | .subsurface => o.subsurface.map .subsurface
  | .absorption => o.absorption.map .absorption
  | .sheen => o.sheen.map .sheen
  | .subsurfaceRadius => o.subsurfaceRadius.map .subsurfaceRadius
  | .scatteringAnisotropy => o.scatteringAnisotropy.map .scatteringAnisotropy

/-- Overrides as one edit for each field that they hold. -/
def edits (o : MaterialOverrides) : List MaterialEdit := MaterialField.all.filterMap o.edit?

/-- Overrides with others laid over them: where the others hold a field, theirs counts. -/
def update (o p : MaterialOverrides) : MaterialOverrides where
  albedo := p.albedo.or o.albedo
  emission := p.emission.or o.emission
  emissionStrength := p.emissionStrength.or o.emissionStrength
  emissionMode := p.emissionMode.or o.emissionMode
  roughness := p.roughness.or o.roughness
  metallic := p.metallic.or o.metallic
  transmission := p.transmission.or o.transmission
  ior := p.ior.or o.ior
  specularTint := p.specularTint.or o.specularTint
  specular := p.specular.or o.specular
  clearcoat := p.clearcoat.or o.clearcoat
  clearcoatRoughness := p.clearcoatRoughness.or o.clearcoatRoughness
  subsurface := p.subsurface.or o.subsurface
  absorption := p.absorption.or o.absorption
  sheen := p.sheen.or o.sheen
  subsurfaceRadius := p.subsurfaceRadius.or o.subsurfaceRadius
  scatteringAnisotropy := p.scatteringAnisotropy.or o.scatteringAnisotropy

/-- No field is held by both. -/
def Disjoint (o p : MaterialOverrides) : Prop :=
  ∀ f : MaterialField, (f.written o).isNone ∨ (f.written p).isNone

variable {o p : MaterialOverrides} {f : MaterialField} {e : MaterialEdit}

theorem written_update (o p : MaterialOverrides) (f : MaterialField) :
    f.written (o.update p) = (f.written p).or (f.written o) := by
  cases f <;> simp only [MaterialField.written, update, Option.map_or]

theorem written_eq_map_edit? (o : MaterialOverrides) (f : MaterialField) :
    f.written o = (o.edit? f).map (·.words) := by
  cases f <;> simp only [MaterialField.written, edit?, Option.map_map] <;> rfl

theorem field_of_edit? (h : o.edit? f = some e) : e.field = f := by
  cases f <;>
  · obtain ⟨_, -, rfl⟩ := Option.map_eq_some_iff.mp h
    rfl

theorem mem_edits_iff : e ∈ o.edits ↔ o.edit? e.field = some e := by
  unfold edits
  rw [List.mem_filterMap]
  constructor
  · rintro ⟨f, -, hf⟩
    rwa [field_of_edit? hf]
  · exact fun h => ⟨e.field, e.field.mem_all, h⟩

/-- No two edits are of the same field. -/
theorem nodup_field_edits (o : MaterialOverrides) : (o.edits.map (·.field)).Nodup := by
  refine List.Nodup.map_on (fun e he e' he' hfield => ?_) ?_
  · rw [mem_edits_iff] at he he'
    rw [hfield, he'] at he
    exact (Option.some.inj he).symm
  · refine List.Nodup.filterMap (fun f f' e he he' => ?_) (by decide)
    rw [← field_of_edit? he, ← field_of_edit? he']

end MaterialOverrides

namespace MaterialStep

variable {f : MaterialField} {ws : List UInt32} {es : List MaterialEdit} {o : MaterialOverrides}

/-- Of edits of different fields, the last that writes a field is the only one that does. -/
theorem lastWritten_edits_iff (hes : (es.map (·.field)).Nodup) :
    lastWritten f (es.map .edit) = some ws ↔ ∃ e ∈ es, e.field = f ∧ e.words = ws := by
  rw [lastWritten_eq_some_iff]
  constructor
  · rintro ⟨before, step, after, hsteps, hwritten, -⟩
    have hstep : step ∈ es.map edit := by simp [hsteps]
    obtain ⟨e, he, hedit⟩ := List.mem_map.mp hstep
    rw [← hedit] at hwritten
    obtain ⟨hfield, hwords⟩ := Option.ite_none_right_eq_some.mp hwritten
    exact ⟨e, he, hfield, Option.some.inj hwords⟩
  · rintro ⟨e, he, rfl, rfl⟩
    obtain ⟨before, after, rfl⟩ := List.append_of_mem he
    refine ⟨before.map edit, edit e, after.map edit, by simp, if_pos rfl, ?_⟩
    intro later hlater
    obtain ⟨e', he', rfl⟩ := List.mem_map.mp hlater
    refine if_neg fun hfield => ?_
    -- an edit of the same field behind `e` would be a second one
    rw [List.map_append, List.map_cons] at hes
    have hnot := (List.nodup_cons.mp hes.of_append_right).1
    exact hnot (List.mem_map.mpr ⟨e', he', hfield⟩)

/-- **Overrides as edits write the same**, in whatever order the edits are made. -/
theorem lastWritten_of_perm (h : es.Perm o.edits) (f : MaterialField) :
    lastWritten f (es.map .edit) = f.written o := by
  have hes : (es.map (·.field)).Nodup := (h.map _).nodup_iff.mpr o.nodup_field_edits
  refine Option.ext fun ws => ?_
  rw [lastWritten_edits_iff hes, MaterialOverrides.written_eq_map_edit?, Option.map_eq_some_iff]
  constructor
  · rintro ⟨e, he, rfl, rfl⟩
    exact ⟨e, MaterialOverrides.mem_edits_iff.mp (h.mem_iff.mp he), rfl⟩
  · rintro ⟨e, he, rfl⟩
    have hfield := MaterialOverrides.field_of_edit? he
    exact ⟨e, h.mem_iff.mpr (MaterialOverrides.mem_edits_iff.mpr (hfield ▸ he)), hfield, rfl⟩

end MaterialStep

namespace MaterialRecord

open MaterialStep (lastWritten)

/-- Overrides that hold no field in common can be laid over a record in either order. -/
theorem overlay_comm {o p : MaterialOverrides} (h : o.Disjoint p) (m : MaterialRecord) :
    (m.overlay o).overlay p = (m.overlay p).overlay o := by
  refine ext_words (fun f => ?_) rfl
  simp only [MaterialField.words_overlay]
  rcases h f with ho | hp
  · rw [Option.isNone_iff_eq_none.mp ho]
    rfl
  · rw [Option.isNone_iff_eq_none.mp hp]
    rfl

/-- Overrides over overrides are one set of overrides. -/
theorem overlay_overlay (m : MaterialRecord) (o p : MaterialOverrides) :
    (m.overlay o).overlay p = m.overlay (o.update p) := by
  refine ext_words (fun f => ?_) rfl
  simp only [MaterialField.words_overlay, MaterialOverrides.written_update, Option.getD_or]

/-- **Overrides are their edits**, in whatever order these are made. -/
theorem applyAll_edits {o : MaterialOverrides} {es : List MaterialEdit} (h : es.Perm o.edits)
    (m : MaterialRecord) : m.applyAll (es.map .edit) = m.overlay o := by
  refine ext_words (fun f => ?_) (padding_applyAll m _)
  rw [words_applyAll, MaterialStep.lastWritten_of_perm h, MaterialField.words_overlay]

/-- **The last write wins.** After a run of edits and overrides a field of a record holds what the
last step wrote that writes it, or what it held before if none does, and the padding is as it was.
So overrides are their edits in any order, those that share no field commute, and overrides over
overrides are one set of overrides. -/
theorem last_write_wins (m : MaterialRecord) :
    (∀ (steps : List MaterialStep) (f : MaterialField),
      f.words (m.applyAll steps) = (lastWritten f steps).getD (f.words m)) ∧
    (∀ steps : List MaterialStep, (m.applyAll steps).padding = m.padding) ∧
    (∀ (o : MaterialOverrides) (es : List MaterialEdit), es.Perm o.edits →
      m.applyAll (es.map .edit) = m.overlay o) ∧
    (∀ o p : MaterialOverrides, o.Disjoint p →
      (m.overlay o).overlay p = (m.overlay p).overlay o) ∧
    ∀ o p : MaterialOverrides, (m.overlay o).overlay p = m.overlay (o.update p) :=
  ⟨words_applyAll m, padding_applyAll m, fun _ _ h => applyAll_edits h m,
    fun _ _ h => overlay_comm h m, overlay_overlay m⟩

/-- Overrides of two neighbouring fields. -/
def roughTint : MaterialOverrides :=
  { MaterialOverrides.none with specularTint := some (.replicate 1), roughness := some 1 }

/-- Overrides of the fields between them. -/
def clearMetal : MaterialOverrides :=
  { MaterialOverrides.none with metallic := some 1, transmission := some 0, ior := some 2 }

theorem last_write_wins_backwards :
    [MaterialEdit.specularTint (.replicate 1), .roughness 1].Perm roughTint.edits ∧
    MaterialRecord.neutral.applyAll [.edit (.specularTint (.replicate 1)), .edit (.roughness 1)] =
      MaterialRecord.neutral.overlay roughTint ∧
    roughTint.Disjoint clearMetal ∧
    (MaterialRecord.neutral.overlay roughTint).overlay clearMetal =
      (MaterialRecord.neutral.overlay clearMetal).overlay roughTint := by
  have hperm : [MaterialEdit.specularTint (.replicate 1), .roughness 1].Perm roughTint.edits :=
    List.Perm.swap _ _ _
  have hdisjoint : roughTint.Disjoint clearMetal := by
    intro f
    cases f <;> decide
  obtain ⟨-, -, hedits, hcomm, -⟩ := last_write_wins .neutral
  exact ⟨hperm, hedits roughTint _ hperm, hdisjoint, hcomm _ _ hdisjoint⟩

end MaterialRecord

end ScenePack
