import ScenePack.Proofs.Comment.Piece
import ScenePack.Proofs.Json.Lexing
import ScenePack.Proofs.Scene.Success

/-!
# Comments between tokens

`strip` takes a comment out without leaving anything for it but its newlines, so a comment is no
separator: what stands before and behind it is read as if it stood side by side. That makes a
difference only where a number or a word could go on from one side to the other. Everywhere else a
comment can be written as a blank.

* `Apart`: no comment of a text stands between two characters of numbers and words.

Results:

* `parse_blanked_iff`: the run over the pieces of a text, behind what was left before.
* `SceneDescription.parse_blank_iff`: with blanks for its comments a text is read as a scene exactly
  if it is without them and its comments are apart from words, and it is read as the same scene.
-/

namespace ScenePack

namespace Comment

open Json (endsWord startsWord)

/-! ## Comments apart from words -/

/-- No comment among the pieces stands between two characters of numbers or words. What is left of
the text before them is `front`. -/
def ApartFrom (front : List Char) (ps : List Piece) : Prop :=
  ∀ before cs after, ps = before ++ .comment cs :: after →
    ¬ (endsWord (front ++ before.flatMap Piece.kept) ∧
      startsWord ((Piece.comment cs :: after).flatMap Piece.kept))

/-- No comment of a text stands between two characters of numbers or words, once the others are
taken out. -/
def Apart (text : List Char) : Prop := ApartFrom [] (pieces text)

theorem apartFrom_nil (front : List Char) : ApartFrom front [] := by
  intro before cs after h
  simp at h

/-- Pieces that are apart stay so when the first becomes part of the front. -/
theorem apartFrom_cons {front : List Char} {p : Piece} {ps : List Piece} :
    ApartFrom front (p :: ps) ↔
      (p.isComment → ¬ (endsWord front ∧ startsWord ((p :: ps).flatMap Piece.kept))) ∧
        ApartFrom (front ++ p.kept) ps := by
  constructor
  · intro h
    constructor
    · intro hcomment
      cases p with
      | comment cs => simpa using h [] cs ps rfl
      | _ => contradiction
    · rintro before cs after rfl
      simpa using h (p :: before) cs after rfl
  · rintro ⟨hfirst, hrest⟩ before cs after h
    cases before with
    | nil =>
      obtain ⟨rfl, rfl⟩ := List.cons.inj h
      simpa using hfirst rfl
    | cons q before =>
      obtain ⟨rfl, rfl⟩ := List.cons.inj h
      simpa using hrest before cs after rfl

/-- Behind the end of a word, a text whose comments are apart begins a word with blanks for them
where it does without them. -/
theorem startsWord_blanked {front text : List Char} (hends : endsWord front)
    (h : ApartFrom front (pieces text)) :
    startsWord ((pieces text).flatMap Piece.blanked) =
      startsWord ((pieces text).flatMap Piece.kept) := by
  -- A comment at the start is a blank, and without it no word begins, since it is apart.
  have hcomment {cs : List Char} {ps : List Piece} (h : ApartFrom front (.comment cs :: ps)) :
      startsWord ((Piece.comment cs :: ps).flatMap Piece.blanked) =
        startsWord ((Piece.comment cs :: ps).flatMap Piece.kept) := by
    have hapart : ¬ (endsWord front ∧ startsWord ((Piece.comment cs :: ps).flatMap Piece.kept)) :=
      (apartFrom_cons.mp h).1 rfl
    have hblank : startsWord ((Piece.comment cs :: ps).flatMap Piece.blanked) = false := by
      simpa [Piece.blanked] using Json.not_startsWord_space _
    rw [hblank]
    simpa [hends] using hapart
  fun_cases pieces text with
  | case1 => rfl
  | case2 rest => rw [pieces] at h; exact hcomment h
  | case3 rest => rw [pieces] at h; exact hcomment h
  | case4 rest => rfl
  | case5 d rest hline hblock hquote => rfl

/-! ## The run over the pieces -/

/-- One comment behind `front`, before pieces for which it is known. -/
theorem parse_comment_iff {front cs rest : List Char} (hfront : Outside front) {v : Json.Value}
    (hrest : Json.parse (front ++ newlines cs ++ (pieces rest).flatMap Piece.blanked) = .ok v ↔
      Json.parse (front ++ newlines cs ++ (pieces rest).flatMap Piece.kept) = .ok v ∧
        ApartFrom (front ++ newlines cs) (pieces rest)) :
    Json.parse (front ++ (Piece.comment cs :: pieces rest).flatMap Piece.blanked) = .ok v ↔
      Json.parse (front ++ (Piece.comment cs :: pieces rest).flatMap Piece.kept) = .ok v ∧
        ApartFrom front (.comment cs :: pieces rest) := by
  have hseam (hends : endsWord front) (h : ApartFrom (front ++ newlines cs) (pieces rest)) :
      startsWord (newlines cs ++ (pieces rest).flatMap Piece.blanked) =
        startsWord (newlines cs ++ (pieces rest).flatMap Piece.kept) := by
    cases hlines : newlines cs with
    | nil =>
      rw [hlines, List.append_nil] at h
      exact startsWord_blanked hends h
    | cons c lines => rfl
  rw [List.flatMap_cons, List.flatMap_cons, Piece.blanked, Piece.kept, List.cons_append,
    Json.parse_space_iff hfront, ← List.append_assoc, hrest, apartFrom_cons, List.append_assoc]
  constructor
  · rintro ⟨⟨hparse, hapart⟩, hspace⟩
    refine ⟨hparse, fun _ hjoined => hspace ⟨hjoined.1, ?_⟩, hapart⟩
    rw [hseam hjoined.1 hapart]
    exact hjoined.2
  · rintro ⟨hparse, hcomment, hapart⟩
    refine ⟨⟨hparse, hapart⟩, fun hspace => hcomment rfl ⟨hspace.1, ?_⟩⟩
    rw [hseam hspace.1 hapart] at hspace
    exact hspace.2

/-- A piece that is no comment, and ends outside strings, becomes part of the front. -/
theorem parse_piece_iff {front : List Char} {p : Piece} {ps : List Piece} {v : Json.Value}
    (hcomment : ¬ p.isComment) (hkept : p.blanked = p.kept)
    (hrest : Json.parse (front ++ p.kept ++ ps.flatMap Piece.blanked) = .ok v ↔
      Json.parse (front ++ p.kept ++ ps.flatMap Piece.kept) = .ok v ∧
        ApartFrom (front ++ p.kept) ps) :
    Json.parse (front ++ (p :: ps).flatMap Piece.blanked) = .ok v ↔
      Json.parse (front ++ (p :: ps).flatMap Piece.kept) = .ok v ∧ ApartFrom front (p :: ps) := by
  rw [List.flatMap_cons, List.flatMap_cons, hkept, ← List.append_assoc, ← List.append_assoc, hrest,
    apartFrom_cons]
  exact and_congr_right fun _ => (and_iff_right fun h => absurd h hcomment).symm

/-- **The run over the pieces.** Behind `front` the pieces of a text are read with blanks for the
comments exactly if they are read without them and the comments are apart. -/
theorem parse_blanked_iff (text : List Char) {front : List Char} (hfront : Outside front)
    {v : Json.Value} :
    Json.parse (front ++ (pieces text).flatMap Piece.blanked) = .ok v ↔
      Json.parse (front ++ (pieces text).flatMap Piece.kept) = .ok v ∧
        ApartFrom front (pieces text) := by
  fun_induction pieces text generalizing front with
  | case1 => simp [apartFrom_nil]
  | case2 rest ih => exact parse_comment_iff hfront (ih (hfront.append (.newlines _)))
  | case3 rest ih => exact parse_comment_iff hfront (ih (hfront.append (.newlines _)))
  | case4 rest ih =>
    refine parse_piece_iff (by simp [Piece.isComment]) rfl ?_
    rcases cutString_closes rest with hclosed | hend
    · have hstring : Outside ('"' :: (cutString rest).1) := by
        simpa using Outside.string hclosed .nil
      exact ih (hfront.append hstring)
    · -- An open string is the last piece.
      rw [hend, pieces]
      simp [apartFrom_nil]
  | case5 c rest hline hblock hquote ih =>
    exact parse_piece_iff (by simp [Piece.isComment]) rfl (ih (hfront.append (.char hquote .nil)))

/-- With blanks for its comments a text is read exactly if it is without them and they are apart. -/
theorem blank_eq_ok_iff {text : List Char} {v : Json.Value} :
    Json.parse (blank text) = .ok v ↔ Json.parse (strip text) = .ok v ∧ Apart text := by
  rw [strip_eq_kept]
  exact parse_blanked_iff text .nil

end Comment

namespace SceneDescription

open Comment

/-- **A comment is a blank, but between two characters of a word.** A text with a blank for every
comment is read as a scene exactly if the text is read as that scene and its comments are apart. -/
theorem parse_blank_iff (fallback : Bool) (text : String) (d : SceneDescription) :
    (parse fallback (String.ofList (blank text.toList))).result = .ok d ↔
      (parse fallback text).result = .ok d ∧ Apart text.toList := by
  simp only [parse_eq_ok_iff, String.toList_ofList, strip_blank, blank_eq_ok_iff]
  constructor
  · rintro ⟨root, ⟨hparse, hapart⟩, hscene⟩
    exact ⟨⟨root, hparse, hscene⟩, hapart⟩
  · rintro ⟨⟨root, hparse, hscene⟩, hapart⟩
    exact ⟨root, ⟨hparse, hapart⟩, hscene⟩

/-- A comment between the digits of a version. -/
def joinedText : String := "\x7b\"scene\":\x7b\"version\":1/**/2\x7d\x7d"

/-- The digits are read as one number; with a blank for the comment the text is no JSON. -/
theorem comment_joins_digits :
    (∃ d, (parse false joinedText).result = .ok d ∧ d.info.version = "12") ∧
      ∀ d, (parse false (String.ofList (blank joinedText.toList))).result ≠ .ok d := by
  constructor
  · have hread : (parse false joinedText).result.toOption.map (·.info.version) = some "12" := by
      decide
    cases hresult : (parse false joinedText).result with
    | error fault => rw [hresult] at hread; contradiction
    | ok d =>
      rw [hresult] at hread
      exact ⟨d, rfl, Option.some.inj hread⟩
  · intro d hresult
    have hnone : (parse false (.ofList (blank joinedText.toList))).result.toOption.isNone := by
      decide +kernel
    rw [hresult] at hnone
    contradiction

end SceneDescription

end ScenePack
