import ScenePack.Comment

/-!
# The pieces of a scene text

`pieces` cuts a text into its strings, its comments and the single characters between them, without
a word about modes: each piece is cut off the front as a whole, by a function for its kind. What
`strip` leaves of a text is what each piece leaves of itself.

* `cutString`, `cutLine`, `cutBlock` cut behind the end of a string and of a comment.
* `Piece.source`, `Piece.kept`, `Piece.blanked`: a piece as it is written, as `strip` leaves it, and
  with a blank for a comment.
* `blank` writes a blank for every comment of a text.
* `Fills`: a way to write pieces, with nothing but blanks and newlines for comments.
* `Closes`: a text that ends a string. `Outside`: a text that ends outside strings.

Results:

* `pieces_source`: the pieces of a text are the text.
* `strip_eq_kept`: `strip` leaves of a text what its pieces leave.
* `cutString_closes`: what is cut off ends the string, or the text ends in it.
* **`pieces_fill`**: writing blanks or nothing for comments brings no two characters together that
  open another comment or a string.
* `strip_fill`, `strip_blank`: a text that is written with blanks has no comments left.
-/

namespace ScenePack.Comment

/-! ## Cutting -/

/-- Cut behind the quote that ends a string; the text starts behind the one that opens it. -/
def cutString : List Char → List Char × List Char
  | [] => ([], [])
  | '"' :: rest => (['"'], rest)
  | '\\' :: c :: rest => ('\\' :: c :: (cutString rest).1, (cutString rest).2)
  | c :: rest => (c :: (cutString rest).1, (cutString rest).2)

/-- Cut behind the end of the line. -/
def cutLine : List Char → List Char × List Char
  | [] => ([], [])
  | c :: rest => if c = '\n' then ([c], rest) else (c :: (cutLine rest).1, (cutLine rest).2)

/-- Cut behind the first star with a slash behind it. -/
def cutBlock : List Char → List Char × List Char
  | [] => ([], [])
  | '*' :: '/' :: rest => (['*', '/'], rest)
  | c :: rest => (c :: (cutBlock rest).1, (cutBlock rest).2)

theorem cutString_append (cs : List Char) : (cutString cs).1 ++ (cutString cs).2 = cs := by
  fun_induction cutString cs <;> simp_all

theorem cutLine_append (cs : List Char) : (cutLine cs).1 ++ (cutLine cs).2 = cs := by
  fun_induction cutLine cs <;> simp_all

theorem cutBlock_append (cs : List Char) : (cutBlock cs).1 ++ (cutBlock cs).2 = cs := by
  fun_induction cutBlock cs <;> simp_all

/-! ## Pieces -/

/-- A piece of a scene text. -/
inductive Piece where
  /-- A character outside strings and comments. -/
  | code (c : Char)
  /-- A string with its quotes; at the end of a text the last may be missing. -/
  | string (cs : List Char)
  /-- A comment with its opener and what ends it. -/
  | comment (cs : List Char)
  deriving DecidableEq, Repr

/-- The newlines of a text. -/
def newlines (cs : List Char) : List Char := cs.filter (· = '\n')

namespace Piece

/-- A piece as it is written. -/
def source : Piece → List Char
  | code c => [c]
  | string cs => cs
  | comment cs => cs

/-- What is left of a piece without comments. -/
def kept : Piece → List Char
  | code c => [c]
  | string cs => cs
  | comment cs => newlines cs

/-- A piece with a blank for a comment, before the newlines of the comment. -/
def blanked : Piece → List Char
  | code c => [c]
  | string cs => cs
  | comment cs => ' ' :: newlines cs

def isComment : Piece → Bool
  | comment _ => true
  | _ => false

end Piece

/-- The pieces of a text. -/
def pieces : List Char → List Piece
  | [] => []
  | '/' :: '/' :: rest => .comment ('/' :: '/' :: (cutLine rest).1) :: pieces (cutLine rest).2
  | '/' :: '*' :: rest => .comment ('/' :: '*' :: (cutBlock rest).1) :: pieces (cutBlock rest).2
  | '"' :: rest => .string ('"' :: (cutString rest).1) :: pieces (cutString rest).2
  | c :: rest => .code c :: pieces rest
termination_by cs => cs.length
decreasing_by
  · have := List.IsSuffix.length_le ⟨_, cutLine_append rest⟩
    simp only [List.length_cons]
    omega
  · have := List.IsSuffix.length_le ⟨_, cutBlock_append rest⟩
    simp only [List.length_cons]
    omega
  · have := List.IsSuffix.length_le ⟨_, cutString_append rest⟩
    simp only [List.length_cons]
    omega
  · simp

/-- The text with a blank for every comment, before the newlines of the comment. -/
def blank (text : List Char) : List Char := (pieces text).flatMap Piece.blanked

/-- The pieces of a text, one behind the other, are the text. -/
theorem pieces_source (text : List Char) : (pieces text).flatMap Piece.source = text := by
  fun_induction pieces text with
  | case1 => rfl
  | case2 rest ih => simp [Piece.source, ih, cutLine_append]
  | case3 rest ih => simp [Piece.source, ih, cutBlock_append]
  | case4 rest ih => simp [Piece.source, ih, cutString_append]
  | case5 c rest _ _ _ ih => simp [Piece.source, ih]

/-! ## The scan, one character at a time -/

namespace Mode

/-- Where a scan stands behind one more character, but for a comment's opener. -/
def step : Mode → Char → Mode
  | code, c => if c = '"' then string false else code
  | string true, _ => string false
  | string false, c => if c = '\\' then string true else if c = '"' then code else string false
  | line, c => if c = '\n' then code else line
  | block star, c => if star ∧ c = '/' then code else block (c = '*')

/-- What is left of a character. -/
def left : Mode → Char → List Char
  | code, c | string _, c => [c]
  | line, c | block _, c => newlines [c]

end Mode

/-- A character and the text behind it begin with the opener of a comment. -/
def Opens (c : Char) (rest : List Char) : Prop :=
  c = '/' ∧ (rest.head? = some '/' ∨ rest.head? = some '*')

section Scan

variable {m : Mode} {c : Char} {rest : List Char}

theorem stripFrom_nil : stripFrom m [] = [] := by
  cases m <;> rfl

/-- A scan goes on behind the next character, unless that begins the opener of a comment. -/
theorem stripFrom_cons (h : m = .code → ¬ Opens c rest) :
    stripFrom m (c :: rest) = m.left c ++ stripFrom (m.step c) rest := by
  match m with
  | .code =>
    rw [stripFrom]
    · rfl
    · rintro r rfl rfl
      exact h rfl ⟨rfl, .inl rfl⟩
    · rintro r rfl rfl
      exact h rfl ⟨rfl, .inr rfl⟩
  | .string true => rw [stripFrom]; rfl
  | .string false => rw [stripFrom]; rfl
  | .line =>
    rw [stripFrom, Mode.left, Mode.step, newlines]
    by_cases hc : c = '\n' <;> simp [hc]
  | .block star =>
    rw [stripFrom, Mode.left, Mode.step, newlines]
    by_cases hc : c = '\n'
    · simp [hc]
    · by_cases hend : star ∧ c = '/' <;> simp [hc, hend]

/-- In a string or a comment nothing opens another. -/
theorem stripFrom_inside (h : m ≠ .code) :
    stripFrom m (c :: rest) = m.left c ++ stripFrom (m.step c) rest :=
  stripFrom_cons fun hm => absurd hm h

theorem strip_slash_slash : strip ('/' :: '/' :: rest) = stripFrom .line rest := rfl

theorem strip_slash_star : strip ('/' :: '*' :: rest) = stripFrom (.block false) rest := rfl

theorem strip_quote : strip ('"' :: rest) = '"' :: stripFrom (.string false) rest := rfl

end Scan

/-! ## What is left without comments -/

theorem stripFrom_line (cs : List Char) :
    stripFrom .line cs = newlines (cutLine cs).1 ++ stripFrom .code (cutLine cs).2 := by
  induction cs with
  | nil => rfl
  | cons c rest ih =>
    rw [stripFrom_inside (m := .line) nofun, Mode.left, Mode.step]
    by_cases hc : c = '\n'
    · simp [cutLine, newlines, hc]
    · rw [if_neg hc, ih, cutLine, if_neg hc]
      simp [newlines, hc]

theorem stripFrom_string (cs : List Char) :
    stripFrom (.string false) cs = (cutString cs).1 ++ stripFrom .code (cutString cs).2 := by
  fun_induction cutString cs with
  | case1 => rfl
  | case2 rest =>
    rw [stripFrom_inside (m := .string false) nofun]
    rfl
  | case3 c rest ih =>
    have hstep : (Mode.string false).step '\\' = .string true := rfl
    rw [stripFrom_inside (m := .string false) nofun, hstep,
      stripFrom_inside (m := .string true) nofun]
    exact congrArg ('\\' :: c :: ·) ih
  | case4 c rest hquote hescape ih =>
    have hc : c ≠ '"' := fun h => hquote h
    rw [stripFrom_inside (m := .string false) nofun, Mode.left, Mode.step]
    by_cases hb : c = '\\'
    · -- A backslash that is the last character escapes nothing.
      cases rest with
      | nil => simp [stripFrom_nil, cutString]
      | cons d rest => exact absurd rfl (hescape d rest hb)
    · rw [if_neg hb, if_neg hc, ih]
      rfl

/-- What `strip` leaves of a block comment and of the text behind it. Behind a star the comment is
cut as if the star were its first character. -/
theorem stripFrom_block (star : Bool) (cs : List Char) :
    stripFrom (.block star) cs =
      newlines (cutBlock (if star then '*' :: cs else cs)).1 ++
        stripFrom .code (cutBlock (if star then '*' :: cs else cs)).2 := by
  induction cs generalizing star with
  | nil => cases star <;> rfl
  | cons c rest ih =>
    -- Without a star before it, `c` ends nothing, and may be the star of what follows.
    have plain : stripFrom (.block false) (c :: rest) =
        newlines (cutBlock (c :: rest)).1 ++ stripFrom .code (cutBlock (c :: rest)).2 := by
      rw [stripFrom_inside (m := .block false) nofun, Mode.left, Mode.step, if_neg (by simp), ih]
      by_cases hstar : c = '*'
      · simp [newlines, hstar]
      · have hcut : cutBlock (c :: rest) = (c :: (cutBlock rest).1, (cutBlock rest).2) := by
          rw [cutBlock]
          exact fun _ h => absurd h hstar
        have hsplit : newlines (c :: (cutBlock rest).1) = newlines [c] ++ newlines (cutBlock rest).1 :=
          List.filter_append [c] _
        simp [hcut, hstar, hsplit]
    cases star with
    | false => exact plain
    | true =>
      by_cases hslash : c = '/'
      · rw [stripFrom_inside (m := .block true) nofun]
        simp [Mode.left, Mode.step, hslash, cutBlock, newlines]
      · have hcut : cutBlock ('*' :: c :: rest) =
            ('*' :: (cutBlock (c :: rest)).1, (cutBlock (c :: rest)).2) := by
          rw [cutBlock]
          exact fun _ _ h => hslash (List.cons.inj h).1
        have hsame :
            stripFrom (.block true) (c :: rest) = stripFrom (.block false) (c :: rest) := by
          rw [stripFrom_inside (m := .block true) nofun,
            stripFrom_inside (m := .block false) nofun]
          simp [Mode.left, Mode.step, hslash]
        rw [hsame, plain]
        simp [hcut, newlines]

/-- A character that opens no comment and no string is left as it is. -/
theorem strip_cons {c : Char} {rest : List Char} (hline : ∀ r, c = '/' → rest = '/' :: r → False)
    (hblock : ∀ r, c = '/' → rest = '*' :: r → False) (hquote : c ≠ '"') :
    strip (c :: rest) = c :: strip rest := by
  have hopens : ¬ Opens c rest := by
    rintro ⟨hc, hr | hr⟩
    · obtain ⟨r, hr⟩ := List.head?_eq_some_iff.mp hr
      exact hline r hc hr
    · obtain ⟨r, hr⟩ := List.head?_eq_some_iff.mp hr
      exact hblock r hc hr
  rw [strip, stripFrom_cons fun _ => hopens, Mode.step, if_neg hquote]
  rfl

/-- A string is left as it is. -/
theorem strip_string (rest : List Char) :
    strip ('"' :: rest) = '"' :: (cutString rest).1 ++ strip (cutString rest).2 := by
  rw [strip_quote, stripFrom_string, strip, List.cons_append]

/-- `strip` leaves of a text what its pieces leave. -/
theorem strip_eq_kept (text : List Char) : strip text = (pieces text).flatMap Piece.kept := by
  fun_induction pieces text with
  | case1 => rfl
  | case2 rest ih =>
    rw [strip_slash_slash, stripFrom_line, List.flatMap_cons, ← ih]
    simp [Piece.kept, newlines, strip]
  | case3 rest ih =>
    rw [strip_slash_star, stripFrom_block, List.flatMap_cons, ← ih]
    simp [Piece.kept, newlines, strip]
  | case4 rest ih =>
    rw [strip_string, List.flatMap_cons, ← ih]
    rfl
  | case5 c rest hline hblock hquote ih =>
    rw [strip_cons hline hblock hquote, List.flatMap_cons, ← ih]
    rfl

/-! ## Strings that end -/

/-- A text that ends a string, and has no end of it before. -/
inductive Closes : List Char → Prop
  | quote : Closes ['"']
  | escape {cs : List Char} (c : Char) : Closes cs → Closes ('\\' :: c :: cs)
  | cons {cs : List Char} {c : Char} : c ≠ '"' → c ≠ '\\' → Closes cs → Closes (c :: cs)

namespace Closes

variable {a b x y : List Char}

/-- The cut comes behind it, whatever follows. -/
theorem cut (h : Closes a) (rest : List Char) : cutString (a ++ rest) = (a, rest) := by
  induction h with
  | quote => simp [cutString]
  | escape c _ ih => simp [cutString, ih]
  | cons hquote hescape _ ih =>
    rw [List.cons_append, cutString, ih]
    · exact hquote
    · exact fun _ _ hc => absurd hc hescape

/-- Two texts that both end a string at the front of one text are the same. -/
theorem unique (ha : Closes a) (hb : Closes b) (h : a ++ x = b ++ y) : a = b ∧ x = y := by
  have hcut := ha.cut x
  rw [h, hb.cut y] at hcut
  exact ⟨(congrArg Prod.fst hcut).symm, (congrArg Prod.snd hcut).symm⟩

/-- It ends with a quote. -/
theorem getLast? (h : Closes a) : a.getLast? = some '"' := by
  induction h with
  | quote => rfl
  | escape c h ih => rw [List.getLast?_cons, List.getLast?_cons, ih]; rfl
  | cons _ _ h ih => rw [List.getLast?_cons, ih]; rfl

end Closes

/-- What is cut off ends the string, unless the text ends first. -/
theorem cutString_closes (cs : List Char) : Closes (cutString cs).1 ∨ (cutString cs).2 = [] := by
  fun_induction cutString cs with
  | case1 => exact .inr rfl
  | case2 rest => exact .inl Closes.quote
  | case3 c rest ih => exact ih.imp (Closes.escape c) id
  | case4 c rest hquote hescape ih =>
    by_cases hb : c = '\\'
    · cases rest with
      | nil => exact .inr rfl
      | cons d rest => exact absurd rfl (hescape d rest hb)
    · exact ih.imp (Closes.cons hquote hb) id

/-- A text that ends outside strings, if it begins outside. -/
inductive Outside : List Char → Prop
  | nil : Outside []
  | char {cs : List Char} {c : Char} : c ≠ '"' → Outside cs → Outside (c :: cs)
  | string {s cs : List Char} : Closes s → Outside cs → Outside ('"' :: (s ++ cs))

namespace Outside

variable {a b s : List Char} {c : Char}

theorem append (ha : Outside a) (hb : Outside b) : Outside (a ++ b) := by
  induction ha with
  | nil => exact hb
  | char hc _ ih => exact .char hc ih
  | string hs _ ih =>
    rw [List.cons_append, List.append_assoc]
    exact .string hs ih

theorem of_cons (hc : c ≠ '"') (h : Outside (c :: a)) : Outside a := by
  cases h with
  | char _ h => exact h
  | string _ _ => exact absurd rfl hc

/-- Without quotes at its front, the rest of a text ends outside strings if all of it does. -/
theorem of_append (ha : ∀ c ∈ a, c ≠ '"') (h : Outside (a ++ b)) : Outside b := by
  induction a with
  | nil => exact h
  | cons c a ih =>
    have htail := h.of_cons (ha c List.mem_cons_self)
    exact ih (fun d hd => ha d (List.mem_cons_of_mem c hd)) htail

/-- Behind a quote there is the rest of a string. -/
theorem exists_string (h : Outside ('"' :: a)) :
    ∃ s cs, a = s ++ cs ∧ Closes s ∧ Outside cs := by
  cases h with
  | char hc _ => exact absurd rfl hc
  | string hs h => exact ⟨_, _, rfl, hs, h⟩

theorem newlines (cs : List Char) : Outside (newlines cs) := by
  induction cs with
  | nil => exact .nil
  | cons c cs ih =>
    by_cases hc : c = '\n'
    · have hcons : Comment.newlines (c :: cs) = '\n' :: Comment.newlines cs := by
        simp [Comment.newlines, hc]
      rw [hcons]
      exact .char (by decide) ih
    · have hskip : Comment.newlines (c :: cs) = Comment.newlines cs := by
        simp [Comment.newlines, hc]
      rwa [hskip]

end Outside

/-! ## Texts without comments -/

/-- A way to write pieces: code and strings as they are, and nothing but blanks and newlines for a
comment. -/
structure Fills (f : Piece → List Char) : Prop where
  code : ∀ c, f (.code c) = [c]
  string : ∀ cs, f (.string cs) = cs
  comment : ∀ cs, ∀ c ∈ f (.comment cs), c = ' ' ∨ c = '\n'

/-- The pieces that a piece is written as. -/
def Piece.filled (f : Piece → List Char) : Piece → List Piece
  | comment cs => (f (comment cs)).map code
  | p => [p]

theorem fills_kept : Fills Piece.kept where
  code _ := rfl
  string _ := rfl
  comment cs c hc := by
    simp only [Piece.kept, newlines, List.mem_filter, decide_eq_true_eq] at hc
    exact .inr hc.2

theorem fills_blanked : Fills Piece.blanked where
  code _ := rfl
  string _ := rfl
  comment cs c hc := by
    simp only [Piece.blanked, newlines, List.mem_cons, List.mem_filter, decide_eq_true_eq] at hc
    exact hc.imp id And.right

/-- Blanks and newlines are pieces by themselves. -/
theorem pieces_spaces_append {cs : List Char} (h : ∀ c ∈ cs, c = ' ' ∨ c = '\n') (rest : List Char) :
    pieces (cs ++ rest) = cs.map .code ++ pieces rest := by
  induction cs with
  | nil => rfl
  | cons c cs ih =>
    have hcs := ih fun d hd => h d (List.mem_cons_of_mem c hd)
    rcases h c List.mem_cons_self with rfl | rfl
    · rw [List.cons_append, pieces, hcs, List.map_cons, List.cons_append] <;> simp
    · rw [List.cons_append, pieces, hcs, List.map_cons, List.cons_append] <;> simp

section Fill

variable {f : Piece → List Char} (hf : Fills f)

include hf

/-- A text that begins with no comment begins with the same character when its pieces are
written. -/
theorem head?_fill {text : List Char} (h : ∀ r, text ≠ '/' :: r) :
    ((pieces text).flatMap f).head? = text.head? := by
  fun_cases pieces text with
  | case1 => rfl
  | case2 rest => exact absurd rfl (h _)
  | case3 rest => exact absurd rfl (h _)
  | case4 rest => rw [List.flatMap_cons, hf.string]; rfl
  | case5 c rest hline hblock hquote =>
    rw [List.flatMap_cons, hf.code]
    rfl

/-- **Writing the pieces of a text brings nothing together.** The pieces of what is written are those
of the text, with blanks and newlines for the comments. -/
theorem pieces_fill (text : List Char) :
    pieces ((pieces text).flatMap f) = (pieces text).flatMap (Piece.filled f) := by
  fun_induction pieces text with
  | case1 => rw [List.flatMap_nil, List.flatMap_nil, pieces]
  | case2 rest ih =>
    rw [List.flatMap_cons, List.flatMap_cons, pieces_spaces_append (hf.comment _), ih]
    rfl
  | case3 rest ih =>
    rw [List.flatMap_cons, List.flatMap_cons, pieces_spaces_append (hf.comment _), ih]
    rfl
  | case4 rest ih =>
    rw [List.flatMap_cons, List.flatMap_cons, hf.string, List.cons_append, pieces]
    rcases cutString_closes rest with hclosed | hend
    · rw [hclosed.cut, ih]
      rfl
    · -- The string is the end of the text.
      have hall : (cutString rest).1 = rest := by
        have := cutString_append rest
        rwa [hend, List.append_nil] at this
      rw [hend, pieces, List.flatMap_nil, List.append_nil, hall, hend, hall, pieces]
      rfl
  | case5 c rest hline hblock hquote ih =>
    -- A slash is a piece of its own only where no comment begins, and no comment follows it then,
    -- so that it has the same character behind it when the pieces are written.
    have hkeeps (hc : c = '/') (d : Char) (r : List Char)
        (h : (pieces rest).flatMap f = d :: r) : ∃ r', rest = d :: r' := by
      have hhead := head?_fill hf fun r => hline r hc
      rw [h] at hhead
      exact List.head?_eq_some_iff.mp hhead.symm
    rw [List.flatMap_cons, List.flatMap_cons, hf.code, List.cons_append, List.nil_append, pieces,
      ih]
    · rfl
    · intro r hc h
      obtain ⟨r', hr⟩ := hkeeps hc '/' r h
      exact hline r' hc hr
    · intro r hc h
      obtain ⟨r', hr⟩ := hkeeps hc '*' r h
      exact hblock r' hc hr
    · exact hquote

/-- A text that is written without comments has none to be taken out. -/
theorem strip_fill (text : List Char) :
    strip ((pieces text).flatMap f) = (pieces text).flatMap f := by
  have hpiece (p : Piece) : (p.filled f).flatMap Piece.kept = f p := by
    cases p with
    | code c => rw [hf.code]; rfl
    | string cs => rw [hf.string]; simp [Piece.filled, Piece.kept]
    | comment cs => simp [Piece.filled, Piece.kept, List.flatMap_map]
  rw [strip_eq_kept, pieces_fill hf, List.flatMap_assoc]
  simp only [hpiece]

end Fill

/-- No comment is left among the blanks. -/
theorem strip_blank (text : List Char) : strip (blank text) = blank text :=
  strip_fill fills_blanked text

end ScenePack.Comment
