import Mathlib.Data.List.DropRight
import ScenePack.Proofs.Comment.Piece
import ScenePack.Scene.Reader

/-!
# Places of a text and of what is left of it

`strip` takes characters out of comments and keeps their newlines, so that a place of what is left
stands on the line of the text it comes from. `marks` says of every character of a text whether it
is part of a comment, and `origin` leads from a place of what is left back to the text.

* `Mark`, `marks`, `keep`: the characters of a text, and those that are left.
* `origin`: the offset in a text of a place of what is left. The end leads to the end.
* `Json.Position.charsBefore`: the characters before a place.

Results:

* `ofOffset_line`: the line of a place is one more than the newlines before it.
* `keep_marks`: what `strip` leaves is what is marked to be kept.
* `line_origin`: a place of what is left is on the line of its origin.
* `column_keep`: it is in its column, if no comment begins before it on the line.
* `SceneDescription.parse_keeps_lines`: the whole of it, down to the line that a fault of JSON is
  reported on.
-/

namespace ScenePack

open Json (byteLength)

/-! ## Positions -/

namespace Json.Position

/-- The characters that end within the first `offset` bytes of a text. -/
def charsBefore : (offset : Nat) → List Char → List Char
  | _, [] => []
  | offset, c :: rest =>
    if offset < c.utf8Size then [] else c :: charsBefore (offset - c.utf8Size) rest

/-- The place behind a character. -/
def next (p : Position) (c : Char) : Position :=
  if c = '\n' then ⟨p.line + 1, 0⟩ else { p with column := p.column + c.utf8Size }

theorem advance_nil (p : Position) (offset : Nat) : p.advance offset [] = p := by
  cases offset <;> rfl

theorem advance_inside {p : Position} {offset : Nat} {c : Char} (rest : List Char)
    (h : offset < c.utf8Size) :
    p.advance offset (c :: rest) = { p with column := p.column + offset } := by
  cases offset with
  | zero => rfl
  | succ n => rw [advance, if_pos h]; exact Nat.succ_ne_zero n

theorem advance_behind {p : Position} {offset : Nat} {c : Char} (rest : List Char)
    (h : c.utf8Size ≤ offset) :
    p.advance offset (c :: rest) = (p.next c).advance (offset - c.utf8Size) rest := by
  have hpos := c.utf8Size_pos
  rw [advance, if_neg (by omega), next]
  omega

theorem advance_append (p : Position) (a b : List Char) (offset : Nat) :
    p.advance (byteLength a + offset) (a ++ b) = (a.foldl next p).advance offset b := by
  induction a generalizing p with
  | nil => rw [byteLength, Nat.zero_add]; rfl
  | cons c a ih =>
    have hsub : byteLength (c :: a) + offset - c.utf8Size = byteLength a + offset := by
      rw [byteLength]
      omega
    rw [List.cons_append, advance_behind, hsub, ih, List.foldl_cons]
    rw [byteLength]
    omega

/-- The place behind the first part of a text. -/
theorem ofOffset_append (a b : List Char) :
    ofOffset (a ++ b) (byteLength a) = a.foldl next start := by
  have h := advance_append start a b 0
  rw [Nat.add_zero] at h
  rw [ofOffset, h]
  cases b <;> rfl

theorem advance_line (p : Position) (offset : Nat) (cs : List Char) :
    (p.advance offset cs).line = p.line + (charsBefore offset cs).count '\n' := by
  induction cs generalizing p offset with
  | nil => rw [advance_nil, charsBefore, List.count_nil, Nat.add_zero]
  | cons c rest ih =>
    by_cases h : offset < c.utf8Size
    · rw [advance_inside rest h, charsBefore, if_pos h, List.count_nil, Nat.add_zero]
    · rw [advance_behind rest (by omega), ih, charsBefore, if_neg h, List.count_cons, next]
      by_cases hc : c = '\n'
      · simp only [hc, if_true, beq_self_eq_true]
        omega
      · simp only [hc, if_false, beq_iff_eq, Nat.add_zero]

/-- The line of a place is one more than the newlines before it. -/
theorem ofOffset_line (text : List Char) (offset : Nat) :
    (ofOffset text offset).line = 1 + (charsBefore offset text).count '\n' :=
  advance_line start offset text

end Json.Position

namespace Comment

/-! ## Marks -/

/-- A character of a text, and whether it is part of a comment. -/
structure Mark where
  char : Char
  inComment : Bool
  deriving DecidableEq, Repr

namespace Mark

/-- Newlines are left everywhere, other characters outside comments. -/
def isKept (m : Mark) : Bool := !m.inComment || m.char = '\n'

end Mark

namespace Piece

/-- The characters of a piece with their marks. -/
def marks (p : Piece) : List Mark := p.source.map (⟨·, p.isComment⟩)

end Piece

/-- The characters of a text with their marks. -/
def marks (text : List Char) : List Mark := (pieces text).flatMap Piece.marks

/-- The characters without their marks. -/
def chars (ms : List Mark) : List Char := ms.map (·.char)

/-- The characters that are left. -/
def keep (ms : List Mark) : List Char := (ms.filter Mark.isKept).map (·.char)

/-- The offset in a text of the place `offset` bytes into what is left of it: before the character
that is left next, or at the end of the text. -/
def origin : List Mark → (offset : Nat) → Nat
  | [], _ => 0
  | m :: ms, offset =>
    if m.isKept then
      if offset < m.char.utf8Size then offset
      else m.char.utf8Size + origin ms (offset - m.char.utf8Size)
    else m.char.utf8Size + origin ms offset

/-- Marking leaves the text as it is. -/
theorem chars_marks (text : List Char) : chars (marks text) = text := by
  have hpiece (p : Piece) : p.marks.map (·.char) = p.source := by
    simp [Piece.marks, Function.comp_def]
  rw [chars, marks, List.map_flatMap]
  simp only [hpiece, pieces_source]

/-- What is left of characters that are all in a comment, or all outside. -/
theorem keep_map (inComment : Bool) (cs : List Char) :
    keep (cs.map (⟨·, inComment⟩)) = cs.filter fun c => !inComment || c = '\n' := by
  rw [keep, List.filter_map, List.map_map]
  exact List.map_id _

theorem Piece.keep_marks (p : Piece) : keep p.marks = p.kept := by
  rw [marks, keep_map]
  cases p with
  | code c => rfl
  | string cs => exact List.filter_true cs
  | comment cs => rfl

/-- What `strip` leaves is what is marked to be kept. -/
theorem keep_marks (text : List Char) : keep (marks text) = strip text := by
  have hpiece (p : Piece) : (p.marks.filter Mark.isKept).map (·.char) = p.kept := p.keep_marks
  rw [strip_eq_kept, keep, marks, List.filter_flatMap, List.map_flatMap]
  simp only [hpiece]

/-! ## One mark -/

theorem keep_cons (m : Mark) (ms : List Mark) :
    keep (m :: ms) = if m.isKept then m.char :: keep ms else keep ms := by
  rw [keep, List.filter_cons]
  by_cases h : m.isKept
  · rw [if_pos h, if_pos h, List.map_cons, keep]
  · rw [if_neg h, if_neg h, keep]

theorem keep_append (before after : List Mark) :
    keep (before ++ after) = keep before ++ keep after := by
  rw [keep, List.filter_append, List.map_append, keep, keep]

theorem chars_append (before after : List Mark) :
    chars (before ++ after) = chars before ++ chars after := List.map_append

/-- A character that is not left is no newline. -/
theorem Mark.char_ne_of_not_kept {m : Mark} (h : ¬ m.isKept) : m.char ≠ '\n' := by
  intro hline
  exact h (by simp [isKept, hline])

/-- What is left of a text is part of it, in its order. -/
theorem keep_sublist (ms : List Mark) : (keep ms).Sublist (chars ms) :=
  List.filter_sublist.map _

theorem count_keep (ms : List Mark) : (keep ms).count '\n' = (chars ms).count '\n' := by
  induction ms with
  | nil => rfl
  | cons m ms ih =>
    rw [keep_cons, chars, List.map_cons, List.count_cons]
    by_cases h : m.isKept
    · rw [if_pos h, List.count_cons, ih, chars]
    · have hline : ¬ (m.char == '\n') := by simpa using m.char_ne_of_not_kept h
      rw [if_neg h, if_neg hline, ih, Nat.add_zero, chars]

/-! ## Origins -/

/-- Behind the first part of the marks, the origin is found among the others. -/
theorem origin_append (before after : List Mark) (offset : Nat) :
    origin (before ++ after) (byteLength (keep before) + offset) =
      byteLength (chars before) + origin after offset := by
  induction before with
  | nil => rw [keep, chars, List.nil_append]; simp [byteLength]
  | cons m before ih =>
    have hchars : byteLength (chars (m :: before)) =
        m.char.utf8Size + byteLength (chars before) := rfl
    rw [List.cons_append, origin, keep_cons, hchars]
    by_cases h : m.isKept
    · have hsub : m.char.utf8Size + byteLength (keep before) + offset - m.char.utf8Size =
          byteLength (keep before) + offset := by omega
      rw [if_pos h, if_pos h, byteLength, if_neg (by omega), hsub, ih]
      omega
    · rw [if_neg h, if_neg h, ih]
      omega

/-- The origin of a place before a character that is left is before that character. -/
theorem origin_before {before after : List Mark} {m : Mark} (h : m.isKept) :
    origin (before ++ m :: after) (byteLength (keep before)) = byteLength (chars before) := by
  have hsplit := origin_append before (m :: after) 0
  rw [Nat.add_zero, origin, if_pos h, if_pos m.char.utf8Size_pos, Nat.add_zero] at hsplit
  exact hsplit

/-- The origin of the end is the end. -/
theorem origin_end (ms : List Mark) :
    origin ms (byteLength (keep ms)) = byteLength (chars ms) := by
  have hsplit := origin_append ms [] 0
  rwa [List.append_nil, Nat.add_zero, origin, Nat.add_zero] at hsplit

/-- A place of what is left is on the line of its origin: characters that are not left are on the
way, newlines are not among them. -/
theorem advance_origin {p q : Json.Position} (hline : p.line = q.line) (ms : List Mark)
    (offset : Nat) :
    (p.advance offset (keep ms)).line = (q.advance (origin ms offset) (chars ms)).line := by
  induction ms generalizing p q offset with
  | nil => rwa [keep, chars, List.filter_nil, List.map_nil, p.advance_nil, q.advance_nil]
  | cons m ms ih =>
    rw [keep_cons, origin, chars, List.map_cons]
    by_cases h : m.isKept
    · rw [if_pos h, if_pos h]
      by_cases hinside : offset < m.char.utf8Size
      · rw [if_pos hinside, Json.Position.advance_inside _ hinside,
          Json.Position.advance_inside _ hinside]
        exact hline
      · have hsub (n : Nat) : m.char.utf8Size + n - m.char.utf8Size = n := by omega
        rw [if_neg hinside, Json.Position.advance_behind _ (by omega),
          Json.Position.advance_behind _ (by omega), hsub]
        apply ih
        by_cases hc : m.char = '\n' <;> simp [Json.Position.next, hc, hline]
    · have hsub (n : Nat) : m.char.utf8Size + n - m.char.utf8Size = n := by omega
      rw [if_neg h, if_neg h, Json.Position.advance_behind _ (by omega), hsub]
      apply ih
      simp [Json.Position.next, m.char_ne_of_not_kept h, hline]

/-- A place of what is left of a text is on the line of its origin. -/
theorem line_origin (text : List Char) (offset : Nat) :
    (Json.Position.ofOffset (strip text) offset).line =
      (Json.Position.ofOffset text (origin (marks text) offset)).line := by
  have h := advance_origin (p := .start) (q := .start) rfl (marks text) offset
  rwa [keep_marks, chars_marks] at h

/-! ## Columns -/

/-- The characters of the last line. -/
def lastLine (ms : List Mark) : List Mark := ms.rtakeWhile (·.char ≠ '\n')

/-- With no comment on the last line, what is left of it is as long as the line. -/
theorem column_keep {ms : List Mark} (h : ∀ m ∈ lastLine ms, m.inComment = false) :
    ((keep ms).foldl Json.Position.next .start).column =
      ((chars ms).foldl Json.Position.next .start).column := by
  induction ms using List.reverseRecOn with
  | nil => rfl
  | append_singleton ms m ih =>
    rw [keep_append, chars_append]
    by_cases hline : m.char = '\n'
    · have hkept : keep [m] = ['\n'] := by simp [keep, Mark.isKept, hline]
      have hchars : chars [m] = ['\n'] := by simp [chars, hline]
      rw [hkept, hchars, List.foldl_append, List.foldl_append]
      rfl
    · rw [lastLine, List.rtakeWhile_concat_pos _ _ _ (by simpa using hline)] at h
      have hcode : m.inComment = false := h m (by simp)
      have hkept : keep [m] = [m.char] := by simp [keep, Mark.isKept, hcode]
      have hchars : chars [m] = [m.char] := rfl
      have hbefore := ih fun o ho => h o (List.mem_append_left _ ho)
      rw [hkept, hchars, List.foldl_append, List.foldl_append]
      simp only [List.foldl_cons, List.foldl_nil, Json.Position.next, if_neg hline, hbefore]

/-- A character of a text that is left stands where it stood. -/
structure KeepsPlace (text : List Char) (before : List Mark) (m : Mark) (after : List Mark) :
    Prop where
  /-- It is left, behind what is left before it. -/
  left : strip text = keep before ++ m.char :: keep after
  /-- As many newlines are before it. -/
  lines : (keep before).count '\n' = (chars before).count '\n'
  /-- It is as far from the start of its line, if no comment begins before it on the line. -/
  column : (∀ o ∈ lastLine before, o.inComment = false) →
    (Json.Position.ofOffset (strip text) (byteLength (keep before))).column =
      (Json.Position.ofOffset text (byteLength (chars before))).column
  /-- Its place leads back to it. -/
  origin : origin (marks text) (byteLength (keep before)) = byteLength (chars before)

theorem keepsPlace {text : List Char} {before after : List Mark} {m : Mark}
    (hmarks : marks text = before ++ m :: after) (hkept : m.isKept) :
    KeepsPlace text before m after := by
  have hstrip : strip text = keep before ++ keep (m :: after) := by
    rw [← keep_marks, hmarks, keep_append]
  have htext : text = chars before ++ chars (m :: after) := by
    rw [← chars_append, ← hmarks, chars_marks]
  refine ⟨?_, count_keep before, fun hline => ?_, ?_⟩
  · rw [hstrip, keep_cons, if_pos hkept]
  · calc (Json.Position.ofOffset (strip text) (byteLength (keep before))).column
        = ((keep before).foldl Json.Position.next .start).column := by
          rw [hstrip, Json.Position.ofOffset_append]
      _ = ((chars before).foldl Json.Position.next .start).column := column_keep hline
      _ = (Json.Position.ofOffset text (byteLength (chars before))).column := by
          rw [htext, Json.Position.ofOffset_append]
  · rw [hmarks]
    exact origin_before hkept

end Comment

/-! ## Scene texts -/

namespace SceneDescription

open Comment Json.Position

/-- A text that is no JSON without its comments is at fault at a place of what is left. -/
theorem result_of_fault {fallback : Bool} {text : List Char} {fault : Json.Fault}
    (h : Json.parse text = .error fault) :
    (ofStripped fallback text).result = .error
      ⟨.text (ofOffset text fault.offset), .json fault.kind (ofOffset text fault.offset)⟩ := by
  rw [ofStripped, h]
  rfl

/-- **Comments move nothing to another line.** What `strip` leaves of a text is part of it, in its
order and with all its newlines; each character that is left keeps its line, and its column if no
comment is before it on the line. A text that is no JSON without its comments is reported at a
line that is counted in what is left, and it is the line of the place's origin in the text. -/
theorem parse_keeps_lines (text : String) :
    chars (marks text.toList) = text.toList ∧
      (strip text.toList).Sublist text.toList ∧
      (strip text.toList).count '\n' = text.toList.count '\n' ∧
      (∀ before m after, marks text.toList = before ++ m :: after →
        m.inComment = false ∨ m.char = '\n' → KeepsPlace text.toList before m after) ∧
      origin (marks text.toList) (byteLength (strip text.toList)) = byteLength text.toList ∧
      ∀ fallback fault, Json.parse (strip text.toList) = .error fault →
        ∃ place, (parse fallback text).result = .error ⟨.text place, .json fault.kind place⟩ ∧
          place.line = 1 + (charsBefore fault.offset (strip text.toList)).count '\n' ∧
          place.line = 1 + (charsBefore (origin (marks text.toList) fault.offset)
            text.toList).count '\n' := by
  have hchars := chars_marks text.toList
  have hkeep := keep_marks text.toList
  refine ⟨hchars, ?_, ?_, fun before m after hmarks hkept => ?_, ?_, fun fallback fault h => ?_⟩
  · rw [← hkeep]
    nth_rewrite 2 [← hchars]
    exact keep_sublist _
  · rw [← hkeep, count_keep, hchars]
  · exact keepsPlace hmarks (by simpa [Mark.isKept] using hkept)
  · have hend := origin_end (marks text.toList)
    rwa [hkeep, hchars] at hend
  · exact ⟨_, result_of_fault h, ofOffset_line _ _, (line_origin _ _).trans (ofOffset_line _ _)⟩

/-- A comment over two lines, behind a string that looks like one. -/
def spreadText : String := "\x7b\r\n\"a//b\": 1, /* x\n y */ \x7d"

/-- The digit before the comment keeps its column, and the brace behind it, at which the text is at
fault, is found on line three. -/
theorem parse_keeps_lines_spread :
    (ofOffset (strip spreadText.toList) 11).column = (ofOffset spreadText.toList 11).column ∧
      ∃ place,
        (parse false spreadText).result = .error ⟨.text place, .json .trailingComma place⟩ ∧
          place.line = 3 := by
  obtain ⟨-, -, -, hplace, -, hfault⟩ := parse_keeps_lines spreadText
  constructor
  · have hstands := hplace ((marks spreadText.toList).take 11) ⟨'1', false⟩
      ((marks spreadText.toList).drop 12) (by decide +kernel) (.inl rfl)
    have hkept : byteLength (keep ((marks spreadText.toList).take 11)) = 11 := by decide +kernel
    have hchars : byteLength (chars ((marks spreadText.toList).take 11)) = 11 := by decide +kernel
    have hcolumn := hstands.column (by decide +kernel)
    rwa [hkept, hchars] at hcolumn
  · obtain ⟨place, hresult, hline, -⟩ := hfault false ⟨.trailingComma, 17⟩ rfl
    have hcount : (charsBefore 17 (strip spreadText.toList)).count '\n' = 2 := by decide
    rw [hcount] at hline
    exact ⟨place, hresult, hline⟩

end SceneDescription

end ScenePack
