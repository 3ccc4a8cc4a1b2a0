import ScenePack.Compile
import ScenePack.Proofs.Outcome

/-!
# From text to arrays, step by step

A description that passes validation is compiled to `loaded`, whatever the settings say; one that
does not is not compiled at all. Reading comes before, and its log comes first.

Results:
* **`load_eq_ok_iff`**, **`ofText_eq_ok_iff`**, **`ofFile_eq_ok_iff`**: when the way succeeds, and
  with what.
* `load_log_of_ok`, `ofText_log_of_ok`, `ofFile_log_of_ok`: what it logs when it succeeds.
-/

namespace ScenePack

open Outcome

namespace SceneDescription

variable {d : SceneDescription} {s : Settings} {l : LoadedScene}

/-- What a description is compiled to, with the sections that are kept. -/
def loaded (d : SceneDescription) : LoadedScene :=
  { info := d.info, camera := d.camera, sky := d.sky, render := d.render,
    compiled := (CompiledScene.ofDescription d).1 }

theorem compile_of_ok (h : d.validate s = .ok ()) :
    d.compile s = ⟨.ok (CompiledScene.ofDescription d).1, (CompiledScene.ofDescription d).2⟩ := by
  unfold compile
  rw [h]

theorem compile_of_error {v : Violation} (h : d.validate s = .error v) :
    d.compile s = Outcome.fail (.invalid v) := by
  unfold compile
  rw [h]

theorem compile_eq_ok_iff {c : CompiledScene} : (d.compile s).result = .ok c ↔
    d.validate s = .ok () ∧ (CompiledScene.ofDescription d).1 = c := by
  cases h : d.validate s with
  | ok u => rw [compile_of_ok h]; simp
  | error v => rw [compile_of_error h]; simp [fail_ne_ok]

theorem compile_log_of_ok (h : d.validate s = .ok ()) :
    (d.compile s).log = (CompiledScene.ofDescription d).2 := by
  rw [compile_of_ok h]

/-- **A description is loaded iff it is valid.** -/
theorem load_eq_ok_iff : (d.load s).result = .ok l ↔ d.validate s = .ok () ∧ d.loaded = l := by
  unfold load
  rw [bind_eq_ok_iff]
  constructor
  · rintro ⟨c, hc, hl⟩
    obtain ⟨hv, rfl⟩ := compile_eq_ok_iff.mp hc
    exact ⟨hv, pure_eq_ok_iff.mp hl⟩
  · rintro ⟨hv, rfl⟩
    exact ⟨_, compile_eq_ok_iff.mpr ⟨hv, rfl⟩, pure_eq_ok_iff.mpr rfl⟩

theorem load_log_of_ok (h : d.validate s = .ok ()) :
    (d.load s).log = (CompiledScene.ofDescription d).2 := by
  unfold load
  rw [log_bind_of_ok (compile_eq_ok_iff.mpr ⟨h, rfl⟩), compile_log_of_ok h]
  exact List.append_nil _

end SceneDescription

namespace LoadedScene

open SceneDescription

variable {s : Settings} {l : LoadedScene}

/-- **A text is loaded iff it is read as a valid description.** -/
theorem ofText_eq_ok_iff {text : String} : (ofText s text).result = .ok l ↔
    ∃ d, (parse s.templateFallback text).result = .ok d ∧ d.validate s = .ok () ∧ d.loaded = l := by
  unfold ofText
  rw [bind_eq_ok_iff]
  simp only [mapError_eq_ok_iff, load_eq_ok_iff]

theorem ofText_log_of_ok {text : String} {d : SceneDescription}
    (hd : (parse s.templateFallback text).result = .ok d) (hv : d.validate s = .ok ()) :
    (ofText s text).log = (parse s.templateFallback text).log ++
      (CompiledScene.ofDescription d).2 := by
  unfold ofText
  rw [log_bind_of_ok (mapError_eq_ok_iff.mpr hd), load_log_of_ok hv]
  rfl

/-- **A file is loaded iff it is read as a valid description.** -/
theorem ofFile_eq_ok_iff {path : String} {bytes : Except FileError ByteArray} :
    (ofFile s path bytes).result = .ok l ↔
      ∃ d, (SceneDescription.ofFile s.templateFallback path bytes).result = .ok d ∧
        d.validate s = .ok () ∧ d.loaded = l := by
  unfold ofFile
  rw [bind_eq_ok_iff]
  simp only [load_eq_ok_iff]

theorem ofFile_log_of_ok {path : String} {bytes : Except FileError ByteArray} {d : SceneDescription}
    (hd : (SceneDescription.ofFile s.templateFallback path bytes).result = .ok d)
    (hv : d.validate s = .ok ()) :
    (ofFile s path bytes).log = (SceneDescription.ofFile s.templateFallback path bytes).log ++
      (CompiledScene.ofDescription d).2 := by
  unfold ofFile
  rw [log_bind_of_ok hd, load_log_of_ok hv]

end LoadedScene

end ScenePack
