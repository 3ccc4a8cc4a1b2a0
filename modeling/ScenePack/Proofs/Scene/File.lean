import ScenePack.Proofs.Files.Directory
import ScenePack.Proofs.Loading

/-!
# Scenes in files

A file goes the way of its text, but for one error of its own: a file of nothing but blanks and
comments is empty. The blanks meant are those of Unicode, of which JSON knows four only. Without its
comments the text of such a file is therefore no JSON either: it ends before a value does, or a
blank that JSON does not know stands where the value should begin.

* `FollowsText`: what a file comes to, beside what its text comes to.

Results:
* `Json.parse_of_blanks`: blanks are no JSON.
* `followsText`: once from the two ways of reading a description, then for all that goes on from it.
* **`LoadedScene.file_follows_text`**: reading and compiling a file, whatever it holds.
-/

namespace ScenePack

/-! ## Blanks are no JSON -/

namespace Json

open Token

/-- A blank that JSON does not know begins no token. -/
theorem step_of_blank {c : Char} (hblank : Text.isBlank c = true) (hspace : isSpace c = false)
    (offset : Nat) (rest : List Char) : step offset c rest = .faulty .stray := by
  have hdigit : c.isDigit = false := by
    rw [← Bool.not_eq_true]
    intro hdigit
    have hn : 48 ≤ c.toNat ∧ c.toNat ≤ 57 := by
      simpa [Char.isDigit, UInt32.le_iff_toNat_le] using hdigit
    simp only [Text.isBlank, Bool.or_eq_true, Bool.and_eq_true, decide_eq_true_eq] at hblank
    omega
  have hmark (d : Char) (hd : Text.isBlank d = false) : c ≠ d := by
    rintro rfl
    rw [hd] at hblank
    exact Bool.false_ne_true hblank
  unfold step
  simp only [hspace, hdigit, Bool.false_eq_true, if_false]
  split
  case h_12 => rfl
  -- none of the characters that begin a token is a blank
  all_goals exact absurd rfl (hmark _ rfl)

/-- Blanks are scanned to the first that JSON does not know. -/
theorem scan_of_blanks {text : List Char} (h : Text.isAllBlank text = true) (offset : Nat) :
    scan 0 offset text = [] ∨ ∃ k, scan 0 offset text = [⟨.stray, k⟩] := by
  induction text generalizing offset with
  | nil => exact .inl rfl
  | cons c rest ih =>
    obtain ⟨hblank, hrest⟩ : Text.isBlank c = true ∧ Text.isAllBlank rest = true := by
      simpa [Text.isAllBlank] using h
    cases hspace : isSpace c with
    | true =>
      have hstep : step offset c rest = .space := by
        unfold step
        rw [if_pos hspace]
      rw [scan, hstep]
      exact ih hrest (offset + 1)
    | false =>
      rw [scan, step_of_blank hblank hspace]
      exact .inr ⟨offset, rfl⟩

/-- **Blanks are no JSON.** -/
theorem parse_of_blanks {text : List Char} (h : Text.isAllBlank text = true) :
    ∃ fault, parse text = .error fault := by
  unfold parse
  rcases scan_of_blanks h 0 with hnone | ⟨k, hstray⟩
  · rw [hnone]
    exact ⟨⟨.endInValue, _⟩, rfl⟩
  · rw [hstray]
    exact ⟨⟨.valueExpected, k + 1⟩, rfl⟩

end Json

/-! ## Files beside their texts -/

/-- The text holds nothing but comments and blanks. -/
def Comment.Blank (text : String) : Prop := ∀ c ∈ Comment.strip text.toList, Text.isBlank c

/-- `file` is what comes of the file at `path`, `inText` what comes of the text that it holds. -/
structure FollowsText {α : Type} (path text : String) (file inText : Compiling α) : Prop where
  /-- A file is empty exactly if its text is blank. -/
  empty_iff : (∃ p, file.result = .error (.empty p)) ↔ Comment.Blank text
  /-- An empty file is named, and nothing is logged. -/
  empty : Comment.Blank text → file = Outcome.fail (.empty path)
  /-- A blank text on its own is malformed. -/
  malformed : Comment.Blank text → ∃ fault, inText.result = .error (.malformed fault)
  /-- Any other file comes to what its text comes to, be it a value or an error. -/
  result : ¬ Comment.Blank text → file.result = inText.result
  /-- The log says first that the file is read. -/
  log : ¬ Comment.Blank text → file.log = .loading path :: inText.log

/-- What goes on from two outcomes of which one follows the other keeps them so. -/
theorem FollowsText.bind {α β : Type} {path text : String} {file inText : Compiling α}
    {next : α → Compiling β} (h : FollowsText path text file inText)
    (hnext : ∀ a p, (next a).result ≠ .error (.empty p)) :
    FollowsText path text (file >>= next) (inText >>= next) := by
  refine ⟨⟨?_, ?_⟩, ?_, ?_, ?_, ?_⟩
  · rintro ⟨p, hp⟩
    cases hfile : file.result with
    | ok a =>
      rw [Outcome.result_bind_of_ok hfile] at hp
      exact absurd hp (hnext a p)
    | error e =>
      rw [Outcome.result_bind_of_error hfile] at hp
      obtain rfl := Except.error.inj hp
      exact h.empty_iff.mp ⟨p, hfile⟩
  · intro hblank
    exact ⟨path, by rw [h.empty hblank]; rfl⟩
  · intro hblank
    rw [h.empty hblank]
    rfl
  · intro hblank
    obtain ⟨fault, hfault⟩ := h.malformed hblank
    exact ⟨fault, Outcome.result_bind_of_error hfault⟩
  · intro hsome
    exact Outcome.result_bind_congr (h.result hsome) fun _ _ => rfl
  · intro hsome
    cases hin : inText.result with
    | ok a =>
      rw [Outcome.log_bind_of_ok hin, Outcome.log_bind_of_ok ((h.result hsome).trans hin),
        h.log hsome, List.cons_append]
    | error e =>
      rw [Outcome.log_bind_of_error hin, Outcome.log_bind_of_error ((h.result hsome).trans hin),
        h.log hsome]

namespace SceneDescription

variable {fallback : Bool} {path : String}

theorem isAllBlank_iff {text : String} :
    Text.isAllBlank (Comment.strip text.toList) = true ↔ Comment.Blank text := List.all_eq_true

/-- A blank text is malformed. -/
theorem parse_of_blank {text : String} (h : Comment.Blank text) :
    ∃ fault, (parse fallback text).result = .error fault := by
  obtain ⟨fault, hfault⟩ := Json.parse_of_blanks (isAllBlank_iff.mpr h)
  unfold parse ofStripped
  rw [hfault]
  exact ⟨_, rfl⟩

/-- A file that could not be read comes to that, and nothing of it is looked at. -/
theorem ofFile_of_error {bytes : Except FileError ByteArray} {cause : FileError}
    (h : bytes.bind textOfBytes = .error cause) :
    ofFile fallback path bytes = Outcome.fail (.unreadable path cause) := by
  unfold ofFile
  rw [h]

theorem ofFile_of_blank {text : String} (h : Comment.Blank text) :
    ofFile fallback path (.ok text.toUTF8) = Outcome.fail (.empty path) := by
  unfold ofFile
  rw [Except.bind, textOfBytes_toUTF8]
  exact if_pos (isAllBlank_iff.mpr h)

theorem ofFile_of_not_blank {text : String} (h : ¬ Comment.Blank text) :
    ofFile fallback path (.ok text.toUTF8) =
      (Outcome.emit (.loading path) >>= fun _ => (parse fallback text).mapError .malformed) := by
  unfold ofFile
  rw [Except.bind, textOfBytes_toUTF8]
  exact if_neg fun hblank => h (isAllBlank_iff.mp hblank)

/-- **A file is read as its text.** -/
theorem followsText (fallback : Bool) (path text : String) :
    FollowsText path text (ofFile fallback path (.ok text.toUTF8))
      ((parse fallback text).mapError .malformed) := by
  have hread (h : ¬ Comment.Blank text) : ofFile fallback path (.ok text.toUTF8) =
      ⟨(parse fallback text).result.mapError .malformed,
        .loading path :: (parse fallback text).log⟩ := by
    rw [ofFile_of_not_blank h]
    show Outcome.bind (Outcome.emit _) _ = _
    rfl
  refine ⟨⟨?_, ?_⟩, fun h => ofFile_of_blank h, ?_, ?_, ?_⟩
  · rintro ⟨p, hp⟩
    refine Classical.byContradiction fun h => ?_
    rw [hread h] at hp
    cases hresult : (parse fallback text).result with
    | ok d => rw [hresult] at hp; exact absurd hp nofun
    | error fault => rw [hresult] at hp; exact absurd hp nofun
  · intro h
    exact ⟨path, by rw [ofFile_of_blank h]; rfl⟩
  · intro h
    obtain ⟨fault, hfault⟩ : ∃ fault, (parse fallback text).result = .error fault :=
      parse_of_blank h
    exact ⟨fault, congrArg (Except.mapError SceneError.malformed) hfault⟩
  · intro h
    rw [hread h]
    rfl
  · intro h
    rw [hread h]
    rfl

/-- No description is empty in the sense of files. -/
theorem load_ne_empty (s : Settings) (d : SceneDescription) (p : String) :
    (d.load s).result ≠ .error (.empty p) := by
  unfold load
  cases hv : d.validate s with
  | ok u =>
    rw [Outcome.result_bind_of_ok (compile_eq_ok_iff.mpr ⟨hv, rfl⟩)]
    exact nofun
  | error v =>
    rw [compile_of_error hv]
    exact nofun

end SceneDescription

namespace LoadedScene

/-- **A file goes the way of its text**, to a description and to a compiled scene. It differs by the
line of the log that names it and by the error of a blank file, whose text on its own is malformed.
What cannot be read, or is no text, comes to that. -/
theorem file_follows_text (s : Settings) (path : String) :
    (∀ text : String,
      FollowsText path text (SceneDescription.ofFile s.templateFallback path (.ok text.toUTF8))
        ((SceneDescription.parse s.templateFallback text).mapError .malformed) ∧
      FollowsText path text (ofFile s path (.ok text.toUTF8)) (ofText s text)) ∧
    (∀ cause : FileError,
      SceneDescription.ofFile s.templateFallback path (.error cause) =
        Outcome.fail (.unreadable path cause) ∧
      ofFile s path (.error cause) = Outcome.fail (.unreadable path cause)) ∧
    ∀ bytes : ByteArray, (∀ text : String, text.toUTF8 ≠ bytes) →
      SceneDescription.ofFile s.templateFallback path (.ok bytes) =
        Outcome.fail (.unreadable path .notText) ∧
      ofFile s path (.ok bytes) = Outcome.fail (.unreadable path .notText) := by
  refine ⟨fun text => ?_, fun cause => ?_, fun bytes hbytes => ?_⟩
  · have h := SceneDescription.followsText s.templateFallback path text
    exact ⟨h, h.bind (SceneDescription.load_ne_empty s)⟩
  · exact ⟨rfl, rfl⟩
  · have h : SceneDescription.ofFile s.templateFallback path (.ok bytes) =
        Outcome.fail (.unreadable path .notText) :=
      SceneDescription.ofFile_of_error (textOfBytes_eq_error hbytes)
    refine ⟨h, ?_⟩
    unfold ofFile
    rw [h]
    rfl

/-- The text of a scene behind a comment, with a vector that is none. -/
def lampText : String :=
  "// lamp
\x7b\"materials\":[\x7b\"name\":\"a\",\"albedo\":[1]\x7d],\"objects\":[\x7b\"material\":\"a\"\x7d]\x7d"

/-- Four files: a scene, a text whose objects are no list, a comment that is not closed behind a
blank that JSON does not know, and a byte that begins no character. -/
theorem file_follows_text_lamp :
    (∃ l, (ofText .default lampText).result = .ok l ∧
      (ofFile .default "a.json" (.ok lampText.toUTF8)).result = .ok l) ∧
    (ofFile .default "a.json" (.ok lampText.toUTF8)).log =
      .loading "a.json" :: (ofText .default lampText).log ∧
    (ofText .default lampText).log.map (·.level) = [.warn, .debug, .info, .debug, .info] ∧
    (∃ e, (ofFile .default "a.json" (.ok "\x7b\"objects\":3\x7d".toUTF8)).result = .error e ∧
      e.message = "Syntax error at objects: expected an array") ∧
    ofFile .default "a.json" (.ok "\u00a0/* \x7b".toUTF8) = Outcome.fail (.empty "a.json") ∧
    (∃ fault, (ofText .default "\u00a0/* \x7b").result = .error (.malformed fault)) ∧
    (∀ text : String, text.toUTF8 ≠ ⟨#[0xff]⟩) ∧
    ofFile .default "a.json" (.ok ⟨#[0xff]⟩) = Outcome.fail (.unreadable "a.json" .notText) := by
  have hbytes (text : String) : text.toUTF8 ≠ ⟨#[0xff]⟩ := by
    intro h
    have htext : textOfBytes ⟨#[0xff]⟩ = .error .notText := rfl
    rw [← h, textOfBytes_toUTF8] at htext
    exact absurd htext nofun
  obtain ⟨htext, -, hother⟩ := file_follows_text .default "a.json"
  have hblank : Comment.Blank "\u00a0/* \x7b" :=
    SceneDescription.isAllBlank_iff.mp (by decide)
  have hlamp : ¬Comment.Blank lampText := by
    rw [← SceneDescription.isAllBlank_iff]
    decide
  have hobjects : ¬Comment.Blank "\x7b\"objects\":3\x7d" := by
    rw [← SceneDescription.isAllBlank_iff]
    decide
  refine ⟨?_, (htext _).2.log hlamp, by decide +kernel, ?_, (htext _).2.empty hblank,
    (htext _).2.malformed hblank, hbytes, (hother _ hbytes).2⟩
  · obtain ⟨l, hl⟩ := Outcome.isOk_iff.mp
      (show (ofText .default lampText).result.isOk = true by decide +kernel)
    exact ⟨l, hl, ((htext _).2.result hlamp).trans hl⟩
  · rw [(htext _).2.result hobjects]
    have hmessage : (match (ofText .default "\x7b\"objects\":3\x7d").result with
        | .ok _ => none
        | .error e => some e.message) = some "Syntax error at objects: expected an array" := by
      decide +kernel
    split at hmessage
    · exact absurd hmessage nofun
    · next e he => exact ⟨e, he, Option.some.inj hmessage⟩

end LoadedScene

end ScenePack
