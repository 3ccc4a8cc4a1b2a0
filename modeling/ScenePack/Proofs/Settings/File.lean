import ScenePack.Proofs.Files.Directory
import ScenePack.Proofs.Settings.Ron
import ScenePack.Proofs.Settings.Toml
import ScenePack.Settings.File

/-!
# Settings files, there and back

What is saved is loaded again, from either format, and what a file does not assign keeps its default.
Saving fails cleanly where it can be seen beforehand that it must: no format for the path, or no way
to write a limit.

* `SettingsFormat.Assigns`: the texts that assign some settings in a format.
* `Saved`: the ways in which saving ends, each with the directory it leaves.

Results:
* `ofText_of_assigns`: such a text is read as its assignments.
* `toText_assigns`, `toText_eq_error_iff`: what is written of settings, and when nothing is.
* `load_of_read`, `save_of_toText`: loading and saving in a directory.
* `saved_save`: all that saving comes to; every law of it is read off the cases of `Saved`.
* `exists_save_eq_ok`: saving succeeds where the format can write the limits and the directory a
  file.
* **`save_load_lossless`**: all of it, for every path, every directory and all settings.
-/

namespace ScenePack

namespace SettingsFormat

/-- The text assigns some settings in a format, in this order. -/
def Assigns : SettingsFormat → List Assignment → String → Prop
  | toml => TomlAssigns
  | ron => RonAssigns

/-- The extension of a format. -/
def extension : SettingsFormat → String
  | toml => "toml"
  | ron => "ron"

/-- A path has a format exactly if its extension is the format's. -/
theorem ofPath_eq_ok_iff {path : String} {format : SettingsFormat} :
    ofPath path = .ok format ↔ Path.extension? path = some format.extension := by
  unfold ofPath
  cases format <;> split <;> simp_all [extension]

/-- A path with no format is the error. -/
theorem ofPath_eq_error_iff {path : String} {e : SettingsError} : ofPath path = .error e ↔
    Path.extension? path ∉ [some "toml", some "ron"] ∧ e = .unsupportedFormat path := by
  unfold ofPath
  split <;> simp_all [eq_comm]

theorem not_unsupported_of_ofPath {path : String} {format : SettingsFormat}
    (h : ofPath path = .ok format) : ¬Path.extension? path ∉ [some "toml", some "ron"] := by
  rw [ofPath_eq_ok_iff.mp h]
  cases format <;> decide

end SettingsFormat

namespace Settings

variable {c s : Settings} {format : SettingsFormat} {as : List Assignment} {text path : String}
  {d d' : Directory}

/-! ## Texts -/

/-- **A text that assigns different settings is read as its assignments.** -/
theorem ofText_of_assigns (h : format.Assigns as text) (hnodup : (as.map (·.name)).Nodup)
    (has : ∀ a ∈ as, a.Same (c.get a.name)) : ∃ s, ofText format text = .ok s ∧
      ∀ name, (s.get name).Same ((if name ∈ as.map (·.name) then c else default).get name) := by
  obtain ⟨s, hs, hsame⟩ := ofAssignments?_eq_some hnodup has
  refine ⟨s, ?_, hsame⟩
  unfold ofText
  cases format with
  | toml =>
    have hread : ofToml? text = some s := by rw [ofToml?_of_assigns h hnodup, hs]
    simp only [hread]
  | ron =>
    have hread : ofRon? text = some s := by rw [ofRon?_of_assigns h, hs]
    simp only [hread]

/-- There is a text for any of the settings in any order, unless TOML cannot write a limit. -/
theorem exists_assigns (c : Settings) (format : SettingsFormat) (names : List SettingName)
    (h : format = .toml →
      ∀ n ∈ [c.maxObjects, c.maxMaterials, c.maxLights], n.toNat < 0x8000000000000000) :
    ∃ as text, format.Assigns as text ∧ as.map (·.name) = names ∧
      ∀ a ∈ as, a.Same (c.get a.name) := by
  cases format with
  | toml => exact exists_tomlAssigns names (h rfl)
  | ron => exact exists_ronAssigns c names

/-- **What is written of settings assigns them all**, a NaN as some NaN. -/
theorem toText_assigns (h : c.toText format = .ok text) : ∃ as, format.Assigns as text ∧
    as.map (·.name) = SettingName.all ∧ ∀ a ∈ as, a.Same (c.get a.name) := by
  unfold toText at h
  cases format with
  | toml =>
    cases htext : c.toToml? with
    | none => simp [htext] at h
    | some written =>
      obtain rfl : written = text := by simpa [htext] using h
      exact toToml?_assigns htext
  | ron =>
    obtain rfl : c.toRon = text := Except.ok.inj h
    exact toRon_assigns c

/-- What was written is read as the same settings. -/
theorem ofText_of_toText (h : c.toText format = .ok text) : ∃ s, ofText format text = .ok s ∧
    s.Same c := by
  obtain ⟨as, hassigns, hnames, has⟩ := toText_assigns h
  have hnodup : (as.map (·.name)).Nodup := by
    rw [hnames]
    decide
  obtain ⟨s, hs, hsame⟩ := ofText_of_assigns hassigns hnodup has
  refine ⟨s, hs, same_iff.mpr fun name => ?_⟩
  have hname := hsame name
  rwa [hnames, if_pos (by cases name <;> decide)] at hname

/-- **Settings cannot be written exactly if TOML is asked for and a limit has more than 63 bits.** -/
theorem toText_eq_error_iff {e : SettingsError} : c.toText format = .error e ↔
    e = .unwritable ∧ format = .toml ∧
      ∃ n ∈ [c.maxObjects, c.maxMaterials, c.maxLights], 0x8000000000000000 ≤ n.toNat := by
  rw [← toToml?_eq_none_iff]
  unfold toText
  cases format with
  | ron => simp
  | toml => cases c.toToml? <;> simp [eq_comm]

/-! ## Files -/

/-- A path with a format is loaded as the text of its file says; the directory stays. -/
theorem load_eq (hformat : SettingsFormat.ofPath path = .ok format) :
    load Directory.store path d =
      (match (d.read path).bind textOfBytes with
        | .error cause => .error (.file cause)
        | .ok text => ofText format text, d) := by
  unfold load
  rw [hformat]
  show StateT.bind _ _ d = _
  cases h : (d.read path).bind textOfBytes <;>
    simp only [StateT.bind, Directory.store, h, bind] <;> rfl

theorem load_of_read (hformat : SettingsFormat.ofPath path = .ok format)
    (hread : d.read path = .ok text.toUTF8) :
    load Directory.store path d = (ofText format text, d) := by
  have htext : (d.read path).bind textOfBytes = .ok text := by
    rw [hread]
    exact textOfBytes_toUTF8 text
  rw [load_eq hformat, htext]

/-- Settings that have a text are saved by writing it. -/
theorem save_of_toText (hformat : SettingsFormat.ofPath path = .ok format)
    (htext : c.toText format = .ok text) : save Directory.store path c d =
      match d.write path text.toUTF8 with
      | .ok d' => (.ok (), d')
      | .error e => (.error (.file e), d) := by
  unfold save
  rw [hformat, Except.bind, htext]
  show StateT.bind _ _ d = _
  generalize text.toUTF8 = bytes
  cases h : d.write path bytes <;>
    simp only [StateT.bind, Directory.store, Directory.changed, h, bind] <;> rfl

/-- Where it can be seen beforehand that nothing can be saved, no file is touched, in any store. -/
theorem save_of_error {m : Type → Type} [Monad m] (store : FileStore m) {e : SettingsError}
    (h : (SettingsFormat.ofPath path).bind (fun format => c.toText format) = .error e) :
    save store path c = pure (.error e) := by
  unfold save
  rw [h]

/-- A path without a format is refused, by any store before it is asked for anything. -/
theorem refused_of_extension (hpath : Path.extension? path ∉ [some "toml", some "ron"])
    {m : Type → Type} [Monad m] (store : FileStore m) :
    save store path c = pure (.error (.unsupportedFormat path)) ∧
      load store path = pure (.error (.unsupportedFormat path)) := by
  have hformat := SettingsFormat.ofPath_eq_error_iff.mpr ⟨hpath, rfl⟩
  refine ⟨save_of_error store ?_, ?_⟩
  · rw [hformat, Except.bind]
  · rw [load, hformat]

/-- Loading leaves the directory as it is. -/
theorem directory_of_load (path : String) (d : Directory) :
    (load Directory.store path d).2 = d := by
  cases hformat : SettingsFormat.ofPath path with
  | ok format => rw [load_eq hformat]
  | error e =>
    rw [load, hformat]
    rfl

/-- Everything that saving settings can come to, and what the directory then is. -/
inductive Saved (c : Settings) (path : String) (d : Directory) :
    Except SettingsError Unit × Directory → Prop
  | unsupported : Path.extension? path ∉ [some "toml", some "ron"] →
      Saved c path d (.error (.unsupportedFormat path), d)
  | unwritable {format : SettingsFormat} : SettingsFormat.ofPath path = .ok format →
      c.toText format = .error .unwritable → Saved c path d (.error .unwritable, d)
  | written {format : SettingsFormat} {text : String} {d' : Directory} :
      SettingsFormat.ofPath path = .ok format → c.toText format = .ok text →
      d.write path text.toUTF8 = .ok d' → Saved c path d (.ok (), d')
  | refused {format : SettingsFormat} {text : String} {cause : FileError} :
      SettingsFormat.ofPath path = .ok format → c.toText format = .ok text →
      d.write path text.toUTF8 = .error cause → Saved c path d (.error (.file cause), d)

/-- **Saving comes to one of these.** -/
theorem saved_save (c : Settings) (path : String) (d : Directory) :
    Saved c path d (save Directory.store path c d) := by
  cases hformat : SettingsFormat.ofPath path with
  | error e =>
    obtain ⟨hpath, -⟩ := SettingsFormat.ofPath_eq_error_iff.mp hformat
    rw [(refused_of_extension hpath _).1]
    exact .unsupported hpath
  | ok format =>
    cases htext : c.toText format with
    | error e =>
      obtain ⟨rfl, -⟩ := toText_eq_error_iff.mp htext
      have herror : (SettingsFormat.ofPath path).bind (fun format => c.toText format) =
          .error .unwritable := by rw [hformat, Except.bind, htext]
      rw [save_of_error _ herror]
      exact .unwritable hformat htext
    | ok text =>
      rw [save_of_toText hformat htext]
      cases hwrite : d.write path text.toUTF8 with
      | ok d' => exact .written hformat htext hwrite
      | error e => exact .refused hformat htext hwrite

/-- **Settings are saved** wherever their format is known and can write them, and the directory can
write a file. -/
theorem exists_save_eq_ok (hpath : Path.extension? path ∈ [some "toml", some "ron"])
    (hlimits : ∀ n ∈ [c.maxObjects, c.maxMaterials, c.maxLights], n.toNat < 0x8000000000000000)
    (hwrite : ∀ bytes, ∃ d', d.write path bytes = .ok d') :
    ∃ d', save Directory.store path c d = (.ok (), d') := by
  have hsaved := saved_save c path d
  generalize save Directory.store path c d = result at hsaved ⊢
  cases hsaved with
  | unsupported hother => exact absurd hpath hother
  | unwritable _ herror =>
    obtain ⟨-, -, n, hn, hlarge⟩ := toText_eq_error_iff.mp herror
    exact absurd (hlimits n hn) (Nat.not_lt.mpr hlarge)
  | @written _ _ d' => exact ⟨d', rfl⟩
  | refused _ _ herror =>
    obtain ⟨d', hd'⟩ := hwrite _
    exact absurd (herror.symm.trans hd') nofun

/-- **What was saved is loaded.** -/
theorem load_of_save (h : save Directory.store path c d = (.ok (), d')) :
    ∃ s, load Directory.store path d' = (.ok s, d') ∧ s.Same c := by
  have hsaved := saved_save c path d
  rw [h] at hsaved
  cases hsaved with
  | written hformat htext hwrite =>
    obtain ⟨s, hs, hsame⟩ := ofText_of_toText htext
    exact ⟨s, by rw [load_of_read hformat (Directory.read_of_write hwrite), hs], hsame⟩

/-- Where saving fails, the directory is as it was. -/
theorem directory_of_save_eq_error {e : SettingsError}
    (h : save Directory.store path c d = (.error e, d')) : d' = d := by
  have hsaved := saved_save c path d
  rw [h] at hsaved
  cases hsaved <;> rfl

theorem save_eq_unwritable_iff : (save Directory.store path c d).1 = .error .unwritable ↔
    Path.extension? path = some "toml" ∧
      ∃ n ∈ [c.maxObjects, c.maxMaterials, c.maxLights], 0x8000000000000000 ≤ n.toNat := by
  -- TOML has no text for a limit that large, and RON has one for all
  have hfits {format : SettingsFormat} {text : String}
      (hformat : SettingsFormat.ofPath path = .ok format) (htext : c.toText format = .ok text) :
      ¬(Path.extension? path = some "toml" ∧
        ∃ n ∈ [c.maxObjects, c.maxMaterials, c.maxLights], 0x8000000000000000 ≤ n.toNat) := by
    rintro ⟨hpath, hlarge⟩
    obtain rfl : SettingsFormat.toml = format :=
      Except.ok.inj ((SettingsFormat.ofPath_eq_ok_iff.mpr hpath).symm.trans hformat)
    rw [toText_eq_error_iff.mpr ⟨rfl, rfl, hlarge⟩] at htext
    cases htext
  have hsaved := saved_save c path d
  generalize save Directory.store path c d = result at hsaved ⊢
  cases hsaved with
  | unsupported hpath =>
    refine iff_of_false nofun fun h => hpath ?_
    rw [h.1]
    exact List.mem_cons_self
  | unwritable hformat herror =>
    obtain ⟨-, rfl, hlarge⟩ := toText_eq_error_iff.mp herror
    exact iff_of_true rfl ⟨SettingsFormat.ofPath_eq_ok_iff.mp hformat, hlarge⟩
  | written hformat htext => exact iff_of_false nofun (hfits hformat htext)
  | refused hformat htext => exact iff_of_false nofun (hfits hformat htext)

/-- Only a path without a format is unsupported, and then it is itself that is said to be. -/
theorem save_eq_unsupported_iff : (save Directory.store path c d).1 = .error (.unsupportedFormat path) ↔
    Path.extension? path ∉ [some "toml", some "ron"] := by
  have hsaved := saved_save c path d
  generalize save Directory.store path c d = result at hsaved ⊢
  cases hsaved with
  | unsupported hpath => exact iff_of_true rfl hpath
  | unwritable hformat | written hformat | refused hformat =>
    exact iff_of_false nofun (SettingsFormat.not_unsupported_of_ofPath hformat)

/-- A text that is not read is unreadable. -/
theorem eq_unreadable_of_ofText {e : SettingsError} (h : ofText format text = .error e) :
    e = .unreadable := by
  unfold ofText at h
  dsimp only at h
  split at h
  · cases h
  · exact (Except.error.inj h).symm

theorem load_eq_unsupported_iff : (load Directory.store path d).1 = .error (.unsupportedFormat path) ↔
    Path.extension? path ∉ [some "toml", some "ron"] := by
  cases hformat : SettingsFormat.ofPath path with
  | error e =>
    obtain ⟨hpath, -⟩ := SettingsFormat.ofPath_eq_error_iff.mp hformat
    rw [(refused_of_extension (c := default) hpath _).2]
    exact iff_of_true rfl hpath
  | ok format =>
    refine iff_of_false ?_ (SettingsFormat.not_unsupported_of_ofPath hformat)
    rw [load_eq hformat]
    cases (d.read path).bind textOfBytes with
    | error cause => exact nofun
    | ok text => exact fun h => absurd (eq_unreadable_of_ofText h) nofun

/-- **Saving and loading settings lose nothing, and fail cleanly.** What was saved is loaded, from
either format, where all NaNs count as one. TOML refuses exactly the limits that need 64 bits. A path
with another extension is refused, exactly, by any store before it is asked for anything. Neither
refusal changes the directory. And a file that assigns some of the settings, in any order, is loaded
as these, with the defaults elsewhere; there is such a file for any of them in any order. -/
theorem save_load_lossless (c : Settings) (path : String) (d : Directory) :
    (∀ d', save Directory.store path c d = (.ok (), d') →
      ∃ s, load Directory.store path d' = (.ok s, d') ∧ s.Same c) ∧
    ((save Directory.store path c d).1 = .error .unwritable ↔
      Path.extension? path = some "toml" ∧
        ∃ n ∈ [c.maxObjects, c.maxMaterials, c.maxLights], 0x8000000000000000 ≤ n.toNat) ∧
    ((save Directory.store path c d).1 = .error (.unsupportedFormat path) ↔
      Path.extension? path ∉ [some "toml", some "ron"]) ∧
    ((load Directory.store path d).1 = .error (.unsupportedFormat path) ↔
      Path.extension? path ∉ [some "toml", some "ron"]) ∧
    (Path.extension? path ∉ [some "toml", some "ron"] →
      ∀ {m : Type → Type} [Monad m] (store : FileStore m),
        save store path c = pure (.error (.unsupportedFormat path)) ∧
          load store path = pure (.error (.unsupportedFormat path))) ∧
    (∀ e d', save Directory.store path c d = (.error e, d') → d' = d) ∧
    (∀ format as text, Path.extension? path = some (SettingsFormat.extension format) →
      format.Assigns as text → (as.map (·.name)).Nodup → (∀ a ∈ as, a.Same (c.get a.name)) →
      d.read path = .ok text.toUTF8 → ∃ s, load Directory.store path d = (.ok s, d) ∧
        ∀ name, (s.get name).Same ((if name ∈ as.map (·.name) then c else default).get name)) ∧
    (∀ format names, (format = .toml →
        ∀ n ∈ [c.maxObjects, c.maxMaterials, c.maxLights], n.toNat < 0x8000000000000000) →
      ∃ as text, SettingsFormat.Assigns format as text ∧ as.map (·.name) = names ∧
        ∀ a ∈ as, a.Same (c.get a.name)) := by
  refine ⟨fun d' => load_of_save, save_eq_unwritable_iff, save_eq_unsupported_iff,
    load_eq_unsupported_iff, fun hpath m _ store => refused_of_extension hpath store,
    fun e d' => directory_of_save_eq_error, ?_, exists_assigns c⟩
  intro format as text hext hassigns hnodup has hread
  obtain ⟨s, hs, hsame⟩ := ofText_of_assigns hassigns hnodup has
  have hformat := SettingsFormat.ofPath_eq_ok_iff.mpr hext
  exact ⟨s, by rw [load_of_read hformat hread, hs], hsame⟩

/-- A directory with a file of one field in either format. -/
def partialFiles : Directory :=
  ⟨[("partial.ron", .file "(max_objects: 16)".toUTF8),
    ("partial.toml", .file "max_objects = 16 # few\n".toUTF8)]⟩

/-- In either format, settings are saved and loaded again, and a file of one limit is loaded with
defaults; a limit of 64 bits cannot be saved in TOML, and nothing can without a format. -/
theorem save_load_lossless_partial :
    let c : Settings := { default with maxObjects := 16, planeNormalEpsilon := 0.25 }
    (∀ path ∈ ["whole.ron", "whole.toml"], ∃ d' s,
      save Directory.store path c partialFiles = (.ok (), d') ∧
        load Directory.store path d' = (.ok s, d') ∧ s.Same c) ∧
    (∀ path ∈ ["partial.ron", "partial.toml"], ∃ s,
      load Directory.store path partialFiles = (.ok s, partialFiles) ∧ s.maxObjects = 16 ∧
        s.templateFallback = default.templateFallback ∧
        s.maxMaterials = default.maxMaterials) ∧
    (save Directory.store "whole.toml" { c with maxLights := 0x8000000000000000 } partialFiles).1 =
      .error .unwritable ∧
    (save Directory.store "whole.txt" c partialFiles).1 =
      .error (.unsupportedFormat "whole.txt") := by
  intro c
  have hron : SettingsFormat.ron.Assigns [.maxObjects 16] "(max_objects: 16)" := by
    refine ⟨[(.maxObjects 16, ['1', '6'])], rfl, by simpa using .objects (by decide) (by decide), ?_⟩
    exact .full .nil .bare .nil (.last (.mk .nil (.blank (c := ' ') rfl .nil) .nil)) .nil
  have htoml : SettingsFormat.toml.Assigns [.maxObjects 16] "max_objects = 16 # few\n" := by
    have hword : Toml.SpellsNatural 16 ['1', '6'] :=
      .mk .none (Text.plainDigits_toDigits 16) rfl
    have hblank : ∀ c ∈ [' '], Toml.isBlank c = true := List.forall_mem_singleton.mpr rfl
    have htrail : Toml.SpellsTrail [' ', '#', ' ', 'f', 'e', 'w'] :=
      @Toml.SpellsTrail.remark [' '] [' ', 'f', 'e', 'w'] hblank (List.all_eq_true.mp rfl)
    have hline := @Toml.SpellsLine.mk "max_objects" ['1', '6'] [] [' '] [' '] _
      (List.forall_mem_nil _) hblank hblank (by decide) (List.all_eq_true.mp rfl) (by decide)
      (List.all_eq_true.mp rfl) htrail
    refine ⟨[(.maxObjects 16, ['1', '6'])], rfl, by simpa using .objects hword (by decide), ?_⟩
    exact .cons hline .lf (.nil (.bare nofun))
  have hsaved (path : String) (hpath : Path.extension? path ∈ [some "toml", some "ron"])
      (hwrite : ∀ bytes, ∃ d', partialFiles.write path bytes = .ok d') : ∃ d' s,
      save Directory.store path c partialFiles = (.ok (), d') ∧
        load Directory.store path d' = (.ok s, d') ∧ s.Same c := by
    have hlimits : ∀ n ∈ [c.maxObjects, c.maxMaterials, c.maxLights],
        n.toNat < 0x8000000000000000 :=
      List.forall_mem_cons.mpr ⟨by decide, List.forall_mem_cons.mpr
        ⟨by decide, List.forall_mem_singleton.mpr (by decide)⟩⟩
    obtain ⟨d', hd'⟩ := exists_save_eq_ok hpath hlimits hwrite
    obtain ⟨s, hs⟩ := (save_load_lossless c path partialFiles).1 d' hd'
    exact ⟨d', s, hd', hs⟩
  have hloaded (format : SettingsFormat) (path text : String)
      (hext : Path.extension? path = some format.extension)
      (hassigns : format.Assigns [.maxObjects 16] text)
      (hread : partialFiles.read path = .ok text.toUTF8) : ∃ s,
      load Directory.store path partialFiles = (.ok s, partialFiles) ∧ s.maxObjects = 16 ∧
        s.templateFallback = default.templateFallback ∧
        s.maxMaterials = default.maxMaterials := by
    obtain ⟨-, -, -, -, -, -, hload, -⟩ := save_load_lossless c path partialFiles
    obtain ⟨s, hs, hsame⟩ := hload format _ _ hext hassigns (by decide)
      (List.forall_mem_singleton.mpr (Assignment.Same.refl _)) hread
    refine ⟨s, hs, ?_, ?_, ?_⟩
    · simpa [get, Assignment.Same, Assignment.name] using hsame .maxObjects
    · simpa [get, Assignment.Same, Assignment.name] using hsame .templateFallback
    · simpa [get, Assignment.Same, Assignment.name] using hsame .maxMaterials
  refine ⟨List.forall_mem_cons.mpr ⟨?_, List.forall_mem_singleton.mpr ?_⟩,
    List.forall_mem_cons.mpr ⟨?_, List.forall_mem_singleton.mpr ?_⟩, ?_, ?_⟩
  · exact hsaved _ (by decide) fun _ => ⟨_, rfl⟩
  · exact hsaved _ (by decide) fun _ => ⟨_, rfl⟩
  · exact hloaded .ron "partial.ron" _ rfl hron rfl
  · exact hloaded .toml "partial.toml" _ rfl htoml rfl
  · exact (save_load_lossless _ _ partialFiles).2.1.mpr ⟨rfl, by decide⟩
  · exact (save_load_lossless c _ partialFiles).2.2.1.mpr (by decide)

end Settings

end ScenePack
