import ScenePack.Proofs.Comment.Piece

/-!
# Texts one behind the other

A scan goes on behind a text from where it stands there. So what `strip` leaves of two texts, one
behind the other, is what it leaves of the first and what a scan from that place leaves of the
second; unless the first ends in a slash that the second makes an opener.

* `Mode.after`: where a scan stands behind a text.
* `EndsBare`: the text ends in a slash that may yet open a comment.
* `IsComment`, `IsString`: whole comments and strings; `IsOpenComment`, `IsOpenString`: those that
  nothing ends.

Results:

* **`stripFrom_append`**: a scan of two texts is two scans.
* **`strip_append_pieces`**: comments leave their newlines and strings stay, in any surroundings.
* **`strip_twice`**: a text without its comments has none to be taken out, and its strings are
  those of the text.
-/

namespace ScenePack.Comment

/-! ## Where a scan stands -/

namespace Mode

/-- Where a scan that begins in some mode stands behind a text. -/
def after : Mode → List Char → Mode
  | m, [] => m
  | code, '/' :: '/' :: rest => after line rest
  | code, '/' :: '*' :: rest => after (block false) rest
  | m, c :: rest => after (m.step c) rest

end Mode

/-- The text ends outside strings and comments in a slash that opens none yet. -/
def EndsBare (m : Mode) (a : List Char) : Prop :=
  a.getLast? = some '/' ∧ m.after a.dropLast = .code ∧ m.after a = .code

instance (m : Mode) (a : List Char) : Decidable (EndsBare m a) :=
  inferInstanceAs (Decidable (_ ∧ _))

variable {m : Mode} {a b rest : List Char} {c : Char}

theorem after_cons (h : m = .code → ¬ Opens c rest) : m.after (c :: rest) = (m.step c).after rest := by
  rw [Mode.after]
  · rintro r hm rfl rfl
    exact h hm ⟨rfl, .inl rfl⟩
  · rintro r hm rfl rfl
    exact h hm ⟨rfl, .inr rfl⟩

/-- A slash at the end is as bare behind what comes before as it is without it, if that leads to the
same place. -/
theorem EndsBare.behind {m' : Mode} (front : List Char) (h : EndsBare m' rest)
    (hend : m.after (front ++ rest) = m'.after rest)
    (hbefore : m.after (front ++ rest.dropLast) = m'.after rest.dropLast) :
    EndsBare m (front ++ rest) := by
  obtain ⟨hlast, hfront, hall⟩ := h
  have hne : rest ≠ [] := by
    rintro rfl
    contradiction
  refine ⟨?_, ?_, ?_⟩
  · rw [List.getLast?_append, hlast, Option.some_or]
  · rw [List.dropLast_append_of_ne_nil hne, hbefore, hfront]
  · rw [hend, hall]

/-- **A scan of two texts is two scans**, if no opener is cut in two. -/
theorem stripFrom_append (h : ¬ EndsBare m a) (b : List Char) :
    stripFrom m (a ++ b) = stripFrom m a ++ stripFrom (m.after a) b := by
  fun_induction Mode.after m a with
  | case1 m => rw [List.nil_append, stripFrom, List.nil_append]
  | case2 rest ih => exact ih fun hbare => h (hbare.behind ['/', '/'] rfl rfl)
  | case3 rest ih => exact ih fun hbare => h (hbare.behind ['/', '*'] rfl rfl)
  | case4 m c rest hline hblock ih =>
    have hrest (hm : m = .code) : ¬ Opens c rest := by
      rintro ⟨hc, hr | hr⟩
      · obtain ⟨r, hr⟩ := List.head?_eq_some_iff.mp hr
        exact hline r hm hc hr
      · obtain ⟨r, hr⟩ := List.head?_eq_some_iff.mp hr
        exact hblock r hm hc hr
    -- What comes behind a slash is the same in the front of the text and in both texts.
    have hboth (hm : m = .code) : ¬ Opens c (rest ++ b) := by
      rintro ⟨hc, hr⟩
      cases rest with
      | nil =>
        subst hm hc
        exact h ⟨rfl, rfl, rfl⟩
      | cons d rest => exact hrest hm ⟨hc, hr⟩
    have hfront (hm : m = .code) : ¬ Opens c rest.dropLast := by
      rintro ⟨hc, hr⟩
      refine hrest hm ⟨hc, ?_⟩
      cases rest with
      | nil => exact hr
      | cons d rest =>
        cases rest with
        | nil => simp at hr
        | cons e rest => exact hr
    rw [List.cons_append, stripFrom_cons hboth, stripFrom_cons hrest, ih, List.append_assoc]
    exact fun hbare => h (hbare.behind [c] (after_cons hrest) (after_cons hfront))

/-! ## Whole comments and strings -/

/-- A comment with what ends it. -/
inductive IsComment : List Char → Prop
  | line {body : List Char} : '\n' ∉ body → IsComment ('/' :: '/' :: (body ++ ['\n']))
  | block {body : List Char} :
    ¬ ['*', '/'] <:+: body → IsComment ('/' :: '*' :: (body ++ ['*', '/']))

/-- A comment that nothing ends. -/
inductive IsOpenComment : List Char → Prop
  | line {body : List Char} : '\n' ∉ body → IsOpenComment ('/' :: '/' :: body)
  | block {body : List Char} : ¬ ['*', '/'] <:+: body → IsOpenComment ('/' :: '*' :: body)

/-- A string with its quotes. A backslash takes the next character with it. -/
def IsString (s : List Char) : Prop := ∃ body, s = '"' :: body ∧ Closes body

/-- A string that nothing ends. -/
def IsOpenString (s : List Char) : Prop :=
  ∃ body, s = '"' :: body ∧ ∀ front, front <+: body → ¬ Closes front

theorem cutLine_append_newline {body : List Char} (h : '\n' ∉ body) (rest : List Char) :
    cutLine (body ++ '\n' :: rest) = (body ++ ['\n'], rest) := by
  induction body with
  | nil => rfl
  | cons c body ih =>
    rw [List.mem_cons, not_or] at h
    rw [List.cons_append, cutLine, if_neg (Ne.symm h.1), ih h.2, List.cons_append]

theorem cutLine_of_open {body : List Char} (h : '\n' ∉ body) : cutLine body = (body, []) := by
  induction body with
  | nil => rfl
  | cons c body ih =>
    rw [List.mem_cons, not_or] at h
    rw [cutLine, if_neg (Ne.symm h.1), ih h.2]

theorem cutBlock_append_end {body : List Char} (h : ¬ ['*', '/'] <:+: body) (rest : List Char) :
    cutBlock (body ++ '*' :: '/' :: rest) = (body ++ ['*', '/'], rest) := by
  induction body with
  | nil => rfl
  | cons c body ih =>
    have hbody : ¬ ['*', '/'] <:+: body := fun hinfix => h (List.infix_cons hinfix)
    rw [List.cons_append, cutBlock, ih hbody, List.cons_append]
    -- The star that ends the comment is no slash behind a star of the body.
    rintro r rfl hr
    cases body with
    | nil => simp at hr
    | cons d body =>
      obtain ⟨rfl, -⟩ := List.cons.inj hr
      exact h ⟨[], body, rfl⟩

theorem cutBlock_of_open {body : List Char} (h : ¬ ['*', '/'] <:+: body) :
    cutBlock body = (body, []) := by
  induction body with
  | nil => rfl
  | cons c body ih =>
    have hbody : ¬ ['*', '/'] <:+: body := fun hinfix => h (List.infix_cons hinfix)
    rw [cutBlock, ih hbody]
    rintro r rfl rfl
    exact h ⟨[], r, rfl⟩

theorem cutString_of_open {body : List Char} (h : ∀ front, front <+: body → ¬ Closes front) :
    cutString body = (body, []) := by
  have happend := cutString_append body
  rcases cutString_closes body with hclosed | hend
  · exact absurd hclosed (h _ ⟨_, happend⟩)
  · rw [hend, List.append_nil] at happend
    exact Prod.ext happend hend

/-- A comment leaves its newlines. -/
theorem strip_comment_append {cs : List Char} (h : IsComment cs) (b : List Char) :
    strip (cs ++ b) = newlines cs ++ strip b := by
  cases h with
  | @line body h =>
    have hcut := cutLine_append_newline h b
    rw [List.cons_append, List.cons_append, strip_slash_slash, stripFrom_line, List.append_assoc,
      List.singleton_append, hcut]
    simp [newlines, strip]
  | @block body h =>
    have hcut := cutBlock_append_end h b
    rw [List.cons_append, List.cons_append, strip_slash_star, stripFrom_block, List.append_assoc,
      List.cons_append, List.singleton_append, if_neg Bool.false_ne_true, hcut]
    simp [newlines, strip]

/-- A string stays as it is. -/
theorem strip_string_append {s : List Char} (h : IsString s) (b : List Char) :
    strip (s ++ b) = s ++ strip b := by
  obtain ⟨body, rfl, hclosed⟩ := h
  rw [List.cons_append, strip_string, hclosed.cut]

/-- A comment that nothing ends leaves its newlines. -/
theorem strip_of_openComment {cs : List Char} (h : IsOpenComment cs) : strip cs = newlines cs := by
  cases h with
  | @line body h =>
    rw [strip_slash_slash, stripFrom_line, cutLine_of_open h]
    simp [newlines, stripFrom_nil]
  | @block body h =>
    rw [strip_slash_star, stripFrom_block, if_neg Bool.false_ne_true, cutBlock_of_open h]
    simp [newlines, stripFrom_nil]

/-- A string that nothing ends stays to the end. -/
theorem strip_of_openString {s : List Char} (h : IsOpenString s) : strip s = s := by
  obtain ⟨body, rfl, hopen⟩ := h
  rw [strip_string, cutString_of_open hopen, strip, stripFrom_nil, List.append_nil]

/-- **Comments leave their newlines and strings stay**, in any surroundings. Behind a text that ends
outside strings and comments, and in no slash that may yet open a comment, a comment leaves its
newlines and a string stays as it is, with or without an end; and what follows is left as it is left
by itself. The slash of an opener's star ends no comment. -/
theorem strip_append_pieces {a : List Char} (hcode : Mode.code.after a = .code)
    (hbare : ¬ EndsBare .code a) :
    (∀ cs b, IsComment cs → strip (a ++ cs ++ b) = strip a ++ newlines cs ++ strip b) ∧
      (∀ s b, IsString s → strip (a ++ s ++ b) = strip a ++ s ++ strip b) ∧
      (∀ cs, IsOpenComment cs → strip (a ++ cs) = strip a ++ newlines cs) ∧
      (∀ s, IsOpenString s → strip (a ++ s) = strip a ++ s) ∧
      ∀ b, strip (a ++ ['/', '*', '/'] ++ b) = strip (a ++ ['/', '*'] ++ b) := by
  have hsplit (b : List Char) : strip (a ++ b) = strip a ++ strip b := by
    rw [strip, stripFrom_append hbare, hcode, strip, strip]
  refine ⟨fun cs b h => ?_, fun s b h => ?_, fun cs h => ?_, fun s h => ?_, fun b => ?_⟩
  · rw [List.append_assoc, hsplit, strip_comment_append h, List.append_assoc]
  · rw [List.append_assoc, hsplit, strip_string_append h, List.append_assoc]
  · rw [hsplit, strip_of_openComment h]
  · rw [hsplit, strip_of_openString h]
  · rw [List.append_assoc, List.append_assoc, hsplit, hsplit]
    simp [strip, stripFrom]

/-- A string with an escaped quote and an opener in it, and a comment whose end is the slash at the
end of the text. -/
def mixedText : List Char := ['"', '\\', '"', '/', '/', '"', '/', '*', '*', '/']

theorem strip_append_pieces_mixed :
    (Mode.code.after mixedText = .code ∧ ¬ EndsBare .code mixedText) ∧
      strip (mixedText ++ ['/', '*', '/', '\n', '*', '*', '/'] ++ ['/', '*', '"']) =
        strip mixedText ++ ['\n'] ++ strip ['/', '*', '"'] ∧
      strip (mixedText ++ ['"', '\\', '"', '/', '*', '"'] ++ ['/', '/']) =
        strip mixedText ++ ['"', '\\', '"', '/', '*', '"'] ++ strip ['/', '/'] ∧
      strip (mixedText ++ ['/', '*', '/', '\n']) = strip mixedText ++ ['\n'] ∧
      strip (mixedText ++ ['"', '/', '/']) = strip mixedText ++ ['"', '/', '/'] ∧
      strip (mixedText ++ ['/', '*', '/'] ++ ['"']) = strip (mixedText ++ ['/', '*'] ++ ['"']) := by
  have hcode : Mode.code.after mixedText = .code := by decide
  have hbare : ¬ EndsBare .code mixedText := by decide
  obtain ⟨hcomment, hstring, hopenComment, hopenString, hslash⟩ := strip_append_pieces hcode hbare
  have hclosed : Closes ['\\', '"', '/', '*', '"'] :=
    .escape '"' (.cons (by decide) (by decide) (.cons (by decide) (by decide) .quote))
  have hopen : ∀ front, front <+: ['/', '/'] → ¬ Closes front := by
    intro front hfront hclosed
    have hquote := hfront.subset (List.mem_of_getLast? hclosed.getLast?)
    exact absurd hquote (by decide)
  exact ⟨⟨hcode, hbare⟩, hcomment _ _ (@IsComment.block ['/', '\n', '*'] (by decide)),
    hstring _ _ ⟨_, rfl, hclosed⟩, hopenComment _ (@IsOpenComment.block ['/', '\n'] (by decide)),
    hopenString _ ⟨_, rfl, hopen⟩, hslash _⟩

/-! ## Texts without comments -/

/-- **What is left of a text has no comments.** Taking them out once more changes nothing: the pieces
of what is left are the strings and the code of the text, each as it was, and the newlines of the
comments. -/
theorem strip_twice (text : List Char) :
    strip (strip text) = strip text ∧
      (∀ p ∈ pieces (strip text), ¬ p.isComment) ∧
      pieces (strip text) = (pieces text).flatMap (Piece.filled Piece.kept) := by
  have hpieces : pieces (strip text) = (pieces text).flatMap (Piece.filled Piece.kept) := by
    rw [strip_eq_kept, pieces_fill fills_kept]
  refine ⟨?_, fun p hp => ?_, hpieces⟩
  · rw [strip_eq_kept text, strip_fill fills_kept]
  · rw [hpieces] at hp
    obtain ⟨q, -, hq⟩ := List.mem_flatMap.mp hp
    cases q with
    | code c => rw [List.mem_singleton.mp hq]; exact Bool.false_ne_true
    | string cs => rw [List.mem_singleton.mp hq]; exact Bool.false_ne_true
    | comment cs =>
      obtain ⟨c, -, rfl⟩ := List.mem_map.mp hq
      exact Bool.false_ne_true

end ScenePack.Comment
