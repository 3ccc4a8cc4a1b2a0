import ScenePack.CommandLine.Run
import ScenePack.Proofs.Files.Store
import ScenePack.Proofs.Material.Upload
import ScenePack.Proofs.Settings.File

/-!
# What a run leaves behind

A run reads before it writes. So where the settings or the scene fail, the directory is as it was;
where both succeed, everything that is written is known before the first change, even if a file that
was read is written over. The arrays are written in order, and the first that cannot be written ends
the run: those before it are there, and nothing else is changed.

* `settingsIn`, `sceneIn`: the settings and the scene of a run.
* `LeavesWritten`: some files are written, and the others are as they were.

Results:
* `length_objectBytes`, `length_lightBytes`: the sizes of the arrays.
* `loadSettings_eq`, `loadScene_eq`: reading changes nothing.
* `writeFiles_of_written`, `writeFiles_of_error`: writing ends behind the last file, or where one
  cannot be written.
* `untouched_of_error`, `stops_of_unwritten`, `ends_of_written`: how a run ends.
* `code_eq_zero_iff`: it ends well only if nothing failed.
* **`run_writes_in_order`**: what it leaves, whatever it succeeds or fails with.
-/

namespace ScenePack

open Directory (IsPlain Written)

/-! ## Sizes -/

namespace CompiledScene

variable {c : CompiledScene}

theorem length_objectBytes : c.objectBytes.length = c.objects.stride * c.objects.size := by
  have hwords : c.objectBytes = c.objects.words.flatMap fun words => words.flatMap wordBytes := by
    rw [objectBytes, ← List.flatMap_assoc]
    simp
  rw [hwords]
  cases c.objects with
  | generic records =>
    have hrecord (r : ObjectRecord) : (r.words.flatMap wordBytes).length = 64 := rfl
    rw [ObjectArray.words, List.flatMap_map, length_flatMap_block hrecord]
    rfl
  | legacy records =>
    have hrecord (r : LegacyRecord) : (r.words.flatMap wordBytes).length = 32 := rfl
    rw [ObjectArray.words, List.flatMap_map, length_flatMap_block hrecord]
    rfl

theorem length_lightBytes : c.lightBytes.length = 4 * c.lights.size :=
  length_flatMap_block length_wordBytes c.lights.toList

end CompiledScene

namespace CommandLine

variable {o : Options} {d d₀ d₁ d' : Directory} {dir path : String} {s : Settings}
  {l : LoadedScene}

/-! ## Reading -/

/-- The settings of a run: those of its file, if it names one, and the fallback of templates if that
is asked for. -/
def settingsIn (o : Options) (d : Directory) : Except SettingsError Settings :=
  let written : Except SettingsError Settings := match o.settings with
    | none => .ok .default
    | some path => (Settings.load Directory.store path d).1
  written.map fun s => if o.lenientTemplates then { s with templateFallback := true } else s

/-- The scene of a run. -/
def sceneIn (s : Settings) (path : String) (d : Directory) : Except SceneError LoadedScene :=
  (LoadedScene.ofFile s path (d.read path)).result

/-- Loading the settings leaves the directory. -/
theorem loadSettings_eq (o : Options) (d : Directory) :
    ∃ f, loadSettings Directory.store o d = ((settingsIn o d).mapError f, d) := by
  unfold settingsIn loadSettings
  generalize (fun s : Settings => if o.lenientTemplates then { s with templateFallback := true }
    else s) = force
  cases o.settings with
  | none => exact ⟨fun e => ⟨"", e.messages⟩, rfl⟩
  | some path =>
    have hrun : (do return (← loadFile Directory.store (some path)).map force) d =
        (((Settings.load Directory.store path d).1.mapError fun e =>
            ⟨"Failed to load compiler config " ++ path, e.messages⟩).map force,
          (Settings.load Directory.store path d).2) := rfl
    rw [hrun, Settings.directory_of_load]
    refine ⟨fun e => ⟨"Failed to load compiler config " ++ path, e.messages⟩, ?_⟩
    dsimp only
    cases (Settings.load Directory.store path d).1 <;> rfl

/-- So does loading the scene. -/
theorem loadScene_eq (s : Settings) (path : String) (d : Directory) :
    ∃ f, loadScene Directory.store s path d = ((sceneIn s path d).mapError f, d) := ⟨_, rfl⟩

/-! ## Writing -/

section Writing

variable {name : String} {bytes : List UInt8} {done rest files : List (String × List UInt8)}
  {e : FileError}

theorem writeFiles_of_ok (h : d.write (Path.join dir name) ⟨bytes.toArray⟩ = .ok d₁) :
    writeFiles Directory.store dir ((name, bytes) :: rest) d =
      writeFiles Directory.store dir rest d₁ := by
  have hwrite : Directory.store.write (Path.join dir name) ⟨bytes.toArray⟩ d = (.ok (), d₁) := by
    simp [Directory.store, Directory.changed, h]
  rw [writeFiles]
  exact Directory.bind_of_eq hwrite

/-- A file that cannot be written ends the run, and leaves the directory. -/
theorem writeFiles_of_error (h : d.write (Path.join dir name) ⟨bytes.toArray⟩ = .error e) :
    writeFiles Directory.store dir ((name, bytes) :: rest) d =
      (.error ⟨"Failed to write " ++ Path.join dir name, [e.message]⟩, d) := by
  have hwrite : Directory.store.write (Path.join dir name) ⟨bytes.toArray⟩ d = (.error e, d) := by
    simp [Directory.store, Directory.changed, h]
  rw [writeFiles]
  exact Directory.bind_of_eq hwrite

/-- **Files that can be written are**, and writing goes on behind them. -/
theorem writeFiles_of_written (h : Written dir d done d₁) :
    writeFiles Directory.store dir (done ++ rest) d = writeFiles Directory.store dir rest d₁ := by
  induction h with
  | nil => rfl
  | cons hwrite _ ih => rw [List.cons_append, writeFiles_of_ok hwrite, ih]

theorem writeArrays_of_made {c : CompiledScene}
    (h : Directory.store.makeDirectories dir d = (.ok (), d₀)) :
    writeArrays Directory.store dir c d = writeFiles Directory.store dir (arrays c) d₀ := by
  unfold writeArrays
  exact Directory.bind_of_eq h

theorem writeArrays_of_unmade {c : CompiledScene}
    (h : Directory.store.makeDirectories dir d = (.error e, d₀)) :
    ∃ f, writeArrays Directory.store dir c d = (.error f, d₀) := by
  unfold writeArrays
  exact ⟨_, Directory.bind_of_eq h⟩

/-- Writing comes to an end behind the last file, or where one cannot be written. -/
theorem written_or_stopped (dir : String) (files : List (String × List UInt8)) (d : Directory) :
    (∃ d', Written dir d files d') ∨ ∃ done name bytes rest d' e,
      files = done ++ (name, bytes) :: rest ∧ Written dir d done d' ∧
        d'.write (Path.join dir name) ⟨bytes.toArray⟩ = .error e := by
  induction files generalizing d with
  | nil => exact .inl ⟨d, .nil⟩
  | cons file rest ih =>
    obtain ⟨name, bytes⟩ := file
    cases hwrite : d.write (Path.join dir name) ⟨bytes.toArray⟩ with
    | error e => exact .inr ⟨[], name, bytes, rest, d, e, rfl, .nil, hwrite⟩
    | ok d₁ =>
      rcases ih d₁ with ⟨d', hall⟩ | ⟨done, other, more, last, d', e, rfl, hdone, hstop⟩
      · exact .inl ⟨d', .cons hwrite hall⟩
      · exact .inr ⟨_, other, more, last, d', e, rfl, .cons hwrite hdone, hstop⟩

end Writing

/-! ## Runs -/

theorem compileScene_of_settings_error {e : SettingsError} (h : settingsIn o d = .error e) :
    ∃ f, compileScene Directory.store o path d = (.ofFailure "" f, d) := by
  obtain ⟨f, hsettings⟩ := loadSettings_eq o d
  rw [h] at hsettings
  unfold compileScene
  exact ⟨f e, Directory.bind_of_eq hsettings⟩

theorem compileScene_of_scene_error {e : SceneError} (hs : settingsIn o d = .ok s)
    (h : sceneIn s path d = .error e) :
    ∃ f, compileScene Directory.store o path d = (.ofFailure "" f, d) := by
  obtain ⟨f, hsettings⟩ := loadSettings_eq o d
  obtain ⟨g, hscene⟩ := loadScene_eq s path d
  rw [hs] at hsettings
  rw [h] at hscene
  unfold compileScene
  rw [Directory.bind_of_eq hsettings]
  exact ⟨g e, Directory.bind_of_eq hscene⟩

/-- The report of a run that has its scene, by what its writing comes to. -/
def reportOfWriting (l : LoadedScene) : Except Failure Unit → Report
  | .error f => .ofFailure (summary l) f
  | .ok () => ⟨0, summary l, ""⟩

/-- A run that has its scene writes the arrays. -/
theorem compileScene_of_ok {written : Except Failure Unit} (hout : o.outDirectory = some dir)
    (hs : settingsIn o d = .ok s) (hl : sceneIn s path d = .ok l)
    (h : writeArrays Directory.store dir l.compiled d = (written, d')) :
    compileScene Directory.store o path d = (reportOfWriting l written, d') := by
  obtain ⟨f, hsettings⟩ := loadSettings_eq o d
  obtain ⟨g, hscene⟩ := loadScene_eq s path d
  rw [hs] at hsettings
  rw [hl] at hscene
  unfold compileScene
  rw [Directory.bind_of_eq hsettings]
  show (loadScene Directory.store s path >>= _) d = _
  rw [Directory.bind_of_eq hscene, hout]
  show (writeArrays Directory.store dir l.compiled >>= _) d = _
  rw [Directory.bind_of_eq h]
  cases written <;> rfl

/-- A run that is to compile a scene does. -/
theorem run_eq {args : List String} (hargs : Request.ofArguments args = .run o)
    (hlist : o.listTemplates = false) (hscene : o.scene = some path) :
    run Directory.store args d = compileScene Directory.store o path d := by
  simp [run, hargs, hlist, hscene]

/-! ## What is left -/

theorem isPlain_of_mem_arrays (c : CompiledScene) : ∀ file ∈ arrays c, IsPlain file.1 := by
  have hnames : ∀ name ∈ ["objects.bin", "materials.bin", "lights.bin"], IsPlain name := by
    simp only [List.forall_mem_cons]
    refine ⟨?_, ?_, ?_, nofun⟩ <;> exact ⟨by decide, by decide, by decide⟩
  exact fun file hfile => hnames file.1 (List.mem_map_of_mem (f := Prod.fst) hfile)

theorem nodup_arrays (c : CompiledScene) : ((arrays c).map (·.1)).Nodup := by
  have hnames : (arrays c).map (·.1) = ["objects.bin", "materials.bin", "lights.bin"] := rfl
  rw [hnames]
  decide

/-- Some files were written into a directory, which was made for them, and others were not. -/
structure LeavesWritten (dir : String) (d : Directory) (done rest : List (String × List UInt8))
    (d' : Directory) : Prop where
  /-- The first hold their bytes. -/
  read : ∀ file ∈ done, d'.read (Path.join dir file.1) = .ok ⟨file.2.toArray⟩
  /-- The others are as they were. -/
  unwritten : ∀ file ∈ rest, ∀ q, d'.locate (Path.join dir file.1) = .ok q → d.Keeps d' q
  /-- So is all else. -/
  kept : ∀ q, (∀ file ∈ done, d'.locate (Path.join dir file.1) ≠ .ok q) → d.Keeps d' q

/-- **The arrays that were written are there, and nothing else is changed.** -/
theorem leavesWritten {done rest : List (String × List UInt8)} {made : Except FileError Unit}
    {c : CompiledScene} (hfiles : arrays c = done ++ rest)
    (hmade : Directory.store.makeDirectories dir d = (made, d₀)) (h : Written dir d₀ done d') :
    LeavesWritten dir d done rest d' := by
  have hplain := isPlain_of_mem_arrays c
  have hnodup := nodup_arrays c
  rw [hfiles] at hplain hnodup
  rw [List.map_append, List.nodup_append] at hnodup
  obtain ⟨hdone, -, hdisjoint⟩ := hnodup
  have hkept (q) (hq : ∀ file ∈ done, d'.locate (Path.join dir file.1) ≠ .ok q) :
      d.Keeps d' q := by
    have hdirectories := Directory.keptBy_makeDirectories q dir d
    rw [hmade] at hdirectories
    exact hdirectories.trans (.inl (h.content?_eq hq))
  refine ⟨h.read (fun file hfile => hplain file (List.mem_append_left rest hfile)) hdone, ?_, hkept⟩
  intro file hfile q hq
  by_cases hinside : q = .outside
  · subst hinside
    exact .inl rfl
  · refine hkept q fun other hother => ?_
    refine Directory.ne_of_locate_join (hplain file (List.mem_append_right done hfile))
      (hplain other (List.mem_append_left rest hother)) ?_ hinside hq
    exact (hdisjoint _ (List.mem_map_of_mem hother) _ (List.mem_map_of_mem hfile)).symm

/-! ## How a run ends -/

section Ends

variable {report : Report}

/-- A run that fails before it has its scene says nothing and leaves the directory. -/
theorem untouched_of_error
    (h : (∃ e, settingsIn o d = .error e) ∨
      ∃ s e, settingsIn o d = .ok s ∧ sceneIn s path d = .error e)
    (hrun : compileScene Directory.store o path d = (report, d')) :
    report.code = 1 ∧ report.out = "" ∧ d' = d := by
  have hend : ∃ f, compileScene Directory.store o path d = (.ofFailure "" f, d) := by
    rcases h with ⟨e, he⟩ | ⟨s, e, hs, he⟩
    · exact compileScene_of_settings_error he
    · exact compileScene_of_scene_error hs he
  obtain ⟨f, hend⟩ := hend
  obtain ⟨rfl, rfl⟩ := Prod.mk.inj (hend.symm.trans hrun)
  exact ⟨rfl, rfl, rfl⟩

theorem stops_of_unmade {e : FileError} (hout : o.outDirectory = some dir)
    (hs : settingsIn o d = .ok s) (hl : sceneIn s path d = .ok l)
    (hmake : Directory.store.makeDirectories dir d = (.error e, d₀))
    (hrun : compileScene Directory.store o path d = (report, d')) :
    report.code = 1 ∧ LeavesWritten dir d [] (arrays l.compiled) d' := by
  obtain ⟨f, hwrite⟩ := writeArrays_of_unmade (c := l.compiled) hmake
  obtain ⟨rfl, rfl⟩ := Prod.mk.inj ((compileScene_of_ok hout hs hl hwrite).symm.trans hrun)
  exact ⟨rfl, leavesWritten rfl hmake .nil⟩

/-- **A run stops at the first file that cannot be written.** -/
theorem stops_of_unwritten {name : String} {bytes : List UInt8}
    {done rest : List (String × List UInt8)} {e : FileError} (hout : o.outDirectory = some dir)
    (hs : settingsIn o d = .ok s) (hl : sceneIn s path d = .ok l)
    (hmake : Directory.store.makeDirectories dir d = (.ok (), d₀))
    (hfiles : arrays l.compiled = done ++ (name, bytes) :: rest) (hdone : Written dir d₀ done d₁)
    (hstop : d₁.write (Path.join dir name) ⟨bytes.toArray⟩ = .error e)
    (hrun : compileScene Directory.store o path d = (report, d')) :
    report.code = 1 ∧ d' = d₁ ∧ LeavesWritten dir d done ((name, bytes) :: rest) d' := by
  have hwrite := writeArrays_of_made (c := l.compiled) hmake
  rw [hfiles, writeFiles_of_written hdone, writeFiles_of_error hstop] at hwrite
  obtain ⟨rfl, rfl⟩ := Prod.mk.inj ((compileScene_of_ok hout hs hl hwrite).symm.trans hrun)
  exact ⟨rfl, rfl, leavesWritten hfiles hmake hdone⟩

/-- **A run that can write all files does.** -/
theorem ends_of_written (hout : o.outDirectory = some dir) (hs : settingsIn o d = .ok s)
    (hl : sceneIn s path d = .ok l) (hmake : Directory.store.makeDirectories dir d = (.ok (), d₀))
    (hall : Written dir d₀ (arrays l.compiled) d₁)
    (hrun : compileScene Directory.store o path d = (report, d')) :
    report.code = 0 ∧ d' = d₁ := by
  have hwrite := writeArrays_of_made (c := l.compiled) hmake
  rw [← List.append_nil (arrays l.compiled), writeFiles_of_written hall, writeFiles] at hwrite
  obtain ⟨rfl, rfl⟩ := Prod.mk.inj ((compileScene_of_ok hout hs hl hwrite).symm.trans hrun)
  exact ⟨rfl, rfl⟩

/-- **A run ends well only if nothing failed.** -/
theorem code_eq_zero_iff (hout : o.outDirectory = some dir)
    (hrun : compileScene Directory.store o path d = (report, d')) :
    report.code = 0 ↔ ∃ s l d₀, settingsIn o d = .ok s ∧ sceneIn s path d = .ok l ∧
      Directory.store.makeDirectories dir d = (.ok (), d₀) ∧ Written dir d₀ (arrays l.compiled) d' := by
  constructor
  · intro hcode
    have hnot : report.code ≠ 1 := by
      rw [hcode]
      decide
    cases hs : settingsIn o d with
    | error e => exact absurd (untouched_of_error (.inl ⟨e, hs⟩) hrun).1 hnot
    | ok s =>
      cases hl : sceneIn s path d with
      | error e => exact absurd (untouched_of_error (.inr ⟨s, e, hs, hl⟩) hrun).1 hnot
      | ok l =>
        obtain ⟨made, d₀, hmake⟩ : ∃ made d₀,
            Directory.store.makeDirectories dir d = (made, d₀) := ⟨_, _, rfl⟩
        cases made with
        | error e => exact absurd (stops_of_unmade hout hs hl hmake hrun).1 hnot
        | ok u =>
          rcases written_or_stopped dir (arrays l.compiled) d₀ with
            ⟨d₁, hall⟩ | ⟨done, name, bytes, rest, d₁, e, hfiles, hdone, hstop⟩
          · obtain ⟨-, rfl⟩ := ends_of_written hout hs hl hmake hall hrun
            exact ⟨s, l, d₀, rfl, hl, hmake, hall⟩
          · exact absurd (stops_of_unwritten hout hs hl hmake hfiles hdone hstop hrun).1 hnot
  · rintro ⟨s, l, d₀, hs, hl, hmake, hall⟩
    exact (ends_of_written hout hs hl hmake hall hrun).1

end Ends

/-- **A run writes all arrays, or leaves what it did not come to.** If its settings or its scene
fail, nothing is printed and the directory is as it was. If a file cannot be written, those before it
hold their bytes, it and those behind it are as they were, and so is all else, but for directories
made on the way. And it ends with exit code 0 exactly if it fails nowhere: then the three files hold
the arrays of the scene that its own file comes to under the settings. -/
theorem run_writes_in_order {args : List String} {report : Report}
    (hargs : Request.ofArguments args = .run o) (hlist : o.listTemplates = false)
    (hscene : o.scene = some path) (hout : o.outDirectory = some dir)
    (hrun : run Directory.store args d = (report, d')) :
    (∀ e, settingsIn o d = .error e → report.code = 1 ∧ report.out = "" ∧ d' = d) ∧
    (∀ s e, settingsIn o d = .ok s → sceneIn s path d = .error e →
      report.code = 1 ∧ report.out = "" ∧ d' = d) ∧
    (∀ s l e d₀, settingsIn o d = .ok s → sceneIn s path d = .ok l →
      Directory.store.makeDirectories dir d = (.error e, d₀) →
      report.code = 1 ∧ LeavesWritten dir d [] (arrays l.compiled) d') ∧
    (∀ s l d₀ done name bytes rest d₁ e, settingsIn o d = .ok s → sceneIn s path d = .ok l →
      Directory.store.makeDirectories dir d = (.ok (), d₀) →
      arrays l.compiled = done ++ (name, bytes) :: rest → Written dir d₀ done d₁ →
      d₁.write (Path.join dir name) ⟨bytes.toArray⟩ = .error e →
      report.code = 1 ∧ d' = d₁ ∧ LeavesWritten dir d done ((name, bytes) :: rest) d') ∧
    (report.code = 0 ↔ ∃ s l d₀, settingsIn o d = .ok s ∧ sceneIn s path d = .ok l ∧
      Directory.store.makeDirectories dir d = (.ok (), d₀) ∧ Written dir d₀ (arrays l.compiled) d') ∧
    (report.code = 0 → ∃ s l, settingsIn o d = .ok s ∧ sceneIn s path d = .ok l ∧
      d'.read (Path.join dir "objects.bin") = .ok ⟨l.compiled.objectBytes.toArray⟩ ∧
      d'.read (Path.join dir "materials.bin") = .ok ⟨l.compiled.materialBytes.toArray⟩ ∧
      d'.read (Path.join dir "lights.bin") = .ok ⟨l.compiled.lightBytes.toArray⟩ ∧
      l.compiled.objectBytes.length = l.compiled.objects.stride * l.compiled.objects.size ∧
      l.compiled.materialBytes.length = 112 * l.compiled.materials.length ∧
      l.compiled.lightBytes.length = 4 * l.compiled.lights.size ∧
      ∀ q, (∀ name ∈ ["objects.bin", "materials.bin", "lights.bin"],
        d'.locate (Path.join dir name) ≠ .ok q) → d.Keeps d' q) := by
  rw [run_eq hargs hlist hscene] at hrun
  refine ⟨fun e he => untouched_of_error (.inl ⟨e, he⟩) hrun,
    fun s e hs he => untouched_of_error (.inr ⟨s, e, hs, he⟩) hrun,
    fun s l e d₀ hs hl hmake => stops_of_unmade hout hs hl hmake hrun,
    fun s l d₀ done name bytes rest d₁ e hs hl hmake hfiles hdone hstop =>
      stops_of_unwritten hout hs hl hmake hfiles hdone hstop hrun,
    code_eq_zero_iff hout hrun, fun hcode => ?_⟩
  obtain ⟨s, l, d₀, hs, hl, hmake, hall⟩ := (code_eq_zero_iff hout hrun).mp hcode
  have hleft : LeavesWritten dir d (arrays l.compiled) [] d' :=
    leavesWritten (List.append_nil _).symm hmake hall
  have hobjects := hleft.read ("objects.bin", l.compiled.objectBytes) (by simp [arrays])
  have hmaterials := hleft.read ("materials.bin", l.compiled.materialBytes) (by simp [arrays])
  have hlights := hleft.read ("lights.bin", l.compiled.lightBytes) (by simp [arrays])
  refine ⟨s, l, hs, hl, hobjects, hmaterials, hlights, CompiledScene.length_objectBytes,
    CompiledScene.length_materialBytes, CompiledScene.length_lightBytes, fun q hq => ?_⟩
  exact hleft.kept q fun file hfile => hq file.1 (List.mem_map_of_mem (f := Prod.fst) hfile)

/-- The text of a scene whose one material overrides nothing. -/
def plainText : String :=
  "\x7b\"materials\":[\x7b\"name\":\"a\"\x7d],\"objects\":[\x7b\"material\":\"a\"\x7d]\x7d"

/-- A directory stands where the materials are to be written, and a file where the objects are. -/
theorem run_writes_in_order_blocked :
    let before (objects : ByteArray) : Directory := ⟨[("a.json", .file plainText.toUTF8),
      ("out", .directory [("objects.bin", .file objects), ("materials.bin", .directory [])])]⟩
    ∃ l report, sceneIn .default "a.json" (before ⟨#[7]⟩) = .ok l ∧
      run Directory.store ["--out-dir=out", "a.json"] (before ⟨#[7]⟩) =
        (report, before ⟨l.compiled.objectBytes.toArray⟩) ∧ report.code = 1 := by
  intro before
  obtain ⟨l, hl⟩ := Outcome.isOk_iff.mp
    (show (LoadedScene.ofFile .default "a.json" ((before ⟨#[7]⟩).read "a.json")).result.isOk = true by
      decide)
  let o : Options := ⟨some "a.json", none, some "out", false, false⟩
  have hargs : Request.ofArguments ["--out-dir=out", "a.json"] = .run o := by decide
  have hrun := (Prod.mk.eta (p := run Directory.store ["--out-dir=out", "a.json"]
    (before ⟨#[7]⟩))).symm
  have hmake : Directory.store.makeDirectories "out" (before ⟨#[7]⟩) = (.ok (), before ⟨#[7]⟩) := rfl
  have hwrite (bytes : ByteArray) :
      (before ⟨#[7]⟩).write (Path.join "out" "objects.bin") bytes = .ok (before bytes) := rfl
  have hblocked (objects bytes : ByteArray) :
      (before objects).write (Path.join "out" "materials.bin") bytes = .error .isDirectory := rfl
  obtain ⟨-, -, -, hstop, -, -⟩ := run_writes_in_order hargs rfl rfl rfl hrun
  obtain ⟨hcode, hleft, -⟩ := hstop .default l _ [("objects.bin", l.compiled.objectBytes)] _ _ _ _
    .isDirectory rfl hl hmake rfl (.cons (hwrite _) .nil) (hblocked _ _)
  exact ⟨l, _, hl, hleft ▸ hrun, hcode⟩

end CommandLine

end ScenePack
