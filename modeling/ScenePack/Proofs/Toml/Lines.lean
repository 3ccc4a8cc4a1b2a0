import ScenePack.Proofs.Text.Parser
import ScenePack.Toml.Reader

/-!
# Documents of plain lines

A TOML document that has no headers and no dotted or quoted keys, and whose values are words, is a
run of lines `key = word`, with blank lines and comments between them.

* `SpellsTrail`, `SpellsNewline`: what stands behind a line's value.
* `SpellsLine`, `Document`: such lines, and texts made of them.

Results:
* `SpellsLine.reads`: a line is read as its entry.
* `Document.lines_eq`: a document is read as its entries, in order.
* **`Document.parse?_eq`**: where the keys differ, they are the document's root table.
-/

namespace ScenePack.Toml

open Text (Parser Stops)
open Text.Parser

variable {cs rest : List Char}

/-! ## Texts -/

/-- Blanks, and a comment behind them. -/
inductive SpellsTrail : List Char → Prop
  | bare {bs : List Char} : (∀ c ∈ bs, isBlank c = true) → SpellsTrail bs
  | remark {bs cs : List Char} : (∀ c ∈ bs, isBlank c = true) → (∀ c ∈ cs, isCommentChar c = true) →
      SpellsTrail (bs ++ '#' :: cs)

/-- A newline in one of its two forms. -/
inductive SpellsNewline : List Char → Prop
  | lf : SpellsNewline ['\n']
  | crlf : SpellsNewline ['\r', '\n']

/-- A line without its end, which gives a bare key a word for its value. -/
inductive SpellsLine (key : String) (word : List Char) : List Char → Prop
  | mk {indent before behind trail : List Char} : (∀ c ∈ indent, isBlank c = true) →
      (∀ c ∈ before, isBlank c = true) → (∀ c ∈ behind, isBlank c = true) →
      key.toList ≠ [] → (∀ c ∈ key.toList, isKeyChar c = true) →
      word ≠ [] → (∀ c ∈ word, isWordChar c = true) → SpellsTrail trail →
      SpellsLine key word (indent ++ (key.toList ++ (before ++ ('=' :: (behind ++ (word ++ trail))))))

/-- Lines that give keys words for their values, in this order; lines that say nothing may stand
between them, and the last may go without its newline. -/
inductive Document : List (String × List Char) → List Char → Prop
  | nil {trail : List Char} : SpellsTrail trail → Document [] trail
  | last {key : String} {word line : List Char} : SpellsLine key word line →
      Document [(key, word)] line
  | blank {entries : List (String × List Char)} {trail newline rest : List Char} :
      SpellsTrail trail → SpellsNewline newline → Document entries rest →
      Document entries (trail ++ (newline ++ rest))
  | cons {key : String} {entries : List (String × List Char)} {word line newline rest : List Char} :
      SpellsLine key word line → SpellsNewline newline → Document entries rest →
      Document ((key, word) :: entries) (line ++ (newline ++ rest))

/-! ## What stands behind a line's value -/

theorem reads_blanks (h : ∀ c ∈ cs, isBlank c = true) (hrest : Stops isBlank rest) :
    blanks.Reads cs () rest :=
  (Reads.span h hrest).bind_nil (Reads.pure () rest)

theorem reads_comment (h : ∀ c ∈ cs, isCommentChar c = true) (hrest : Stops isCommentChar rest) :
    comment.Reads ('#' :: cs) () rest := by
  have hmark : Reads (word "#") ['#'] () (cs ++ rest) := Reads.word rfl _
  exact hmark.bind ((Reads.span h hrest).bind_nil (Reads.pure () rest))

theorem fails_comment (h : Stops (· = '#') rest) : comment.Fails rest :=
  (Fails.word _ rfl h).bind

theorem SpellsNewline.reads (h : SpellsNewline cs) (rest : List Char) : newline.Reads cs () rest := by
  cases h with
  | lf => exact (Reads.word rfl rest).orElse
  | crlf =>
    have hlf : Stops (· = '\n') ('\r' :: '\n' :: rest) := Stops.cons_iff.mpr rfl
    exact Reads.orElse_of_fails (Fails.word _ rfl hlf) (Reads.word rfl rest)

theorem fails_newline (hlf : Stops (· = '\n') rest) (hcr : Stops (· = '\r') rest) :
    newline.Fails rest :=
  (Fails.word _ rfl hlf).orElse (Fails.word _ rfl hcr)

/-- The end of a line: a newline, or nothing where the text ends. -/
inductive SpellsEnd : (ending rest : List Char) → Prop
  | line {ending rest : List Char} : SpellsNewline ending → SpellsEnd ending rest
  | last : SpellsEnd [] []

theorem SpellsEnd.reads {ending : List Char} (h : SpellsEnd ending rest) :
    (newline <|> done).Reads ending () rest := by
  cases h with
  | line h => exact (h.reads rest).orElse
  | last => exact Reads.orElse_of_fails (fails_newline Stops.nil Stops.nil) Reads.done

/-- No character of some kinds ends a line. -/
theorem SpellsEnd.stops {ending : List Char} (h : SpellsEnd ending rest) {kind : Char → Bool}
    (hlf : kind '\n' = false) (hcr : kind '\r' = false) : Stops kind (ending ++ rest) := by
  cases h with
  | line h => cases h <;> simp [hlf, hcr]
  | last => simp

theorem SpellsTrail.reads_lineEnd {ending : List Char} (h : SpellsTrail cs)
    (hend : SpellsEnd ending rest) : lineEnd.Reads (cs ++ ending) () rest := by
  cases h with
  | bare hbs =>
    refine (reads_blanks hbs (hend.stops rfl rfl)).bind ?_
    exact Reads.nil_bind (fails_comment (hend.stops rfl rfl)).option hend.reads
  | @remark bs cs hbs hcs =>
    rw [List.append_assoc, List.cons_append]
    refine (reads_blanks hbs (Stops.cons_iff.mpr rfl)).bind ?_
    exact (reads_comment hcs (hend.stops rfl rfl)).option.bind hend.reads

/-- Behind blanks a text goes on as it does, for characters that are no blanks. -/
theorem stops_blanks {kind : Char → Bool} (hcs : ∀ c ∈ cs, isBlank c = true)
    (hspace : kind ' ' = false) (htab : kind '\t' = false) (hrest : Stops kind rest) :
    Stops kind (cs ++ rest) := by
  cases cs with
  | nil => exact hrest
  | cons c cs =>
    rw [List.cons_append, Stops.cons_iff]
    have hc : c = ' ' ∨ c = '\t' := by simpa [isBlank] using hcs c (by simp)
    rcases hc with rfl | rfl
    · exact hspace
    · exact htab

/-- What a line's end may begin with. -/
theorem SpellsTrail.stops {ending : List Char} {kind : Char → Bool} (h : SpellsTrail cs)
    (hend : SpellsEnd ending rest) (hspace : kind ' ' = false) (htab : kind '\t' = false)
    (hmark : kind '#' = false) (hlf : kind '\n' = false) (hcr : kind '\r' = false) :
    Stops kind (cs ++ (ending ++ rest)) := by
  cases h with
  | bare hbs => exact stops_blanks hbs hspace htab (hend.stops hlf hcr)
  | remark hbs hcs =>
    rw [List.append_assoc, List.cons_append]
    exact stops_blanks hbs hspace htab (Stops.cons_iff.mpr hmark)

/-- What stands behind a value is no part of it. -/
theorem SpellsTrail.stops_word {ending : List Char} (h : SpellsTrail cs)
    (hend : SpellsEnd ending rest) : Stops isWordChar (cs ++ (ending ++ rest)) :=
  h.stops hend rfl rfl rfl rfl rfl

/-- Behind a blank, what stands behind a value still does. -/
theorem SpellsTrail.tail {c : Char} (h : SpellsTrail (c :: cs)) (hc : isBlank c = true) :
    SpellsTrail cs := by
  generalize htext : c :: cs = text at h
  cases h with
  | bare hbs =>
    subst htext
    exact .bare fun d hd => hbs d (List.mem_cons_of_mem c hd)
  | @remark bs ds hbs hds =>
    cases bs with
    | nil =>
      obtain ⟨rfl, -⟩ := List.cons.inj htext
      exact absurd hc (by decide)
    | cons b bs =>
      obtain ⟨-, rfl⟩ := List.cons.inj htext
      exact .remark (fun d hd => hbs d (List.mem_cons_of_mem b hd)) hds

/-- No time stands one space behind a value. -/
theorem SpellsTrail.fails_time {ending : List Char} (h : SpellsTrail cs)
    (hend : SpellsEnd ending rest) :
    Fails (do word " "; span1 isWordChar) (cs ++ (ending ++ rest)) := by
  by_cases hspace : ∃ more, cs = ' ' :: more
  · obtain ⟨more, rfl⟩ := hspace
    refine Reads.bind_fails [' '] (Reads.word rfl _) (Fails.span1 ?_)
    exact (h.tail rfl).stops_word hend
  · refine Fails.bind (Fails.word _ rfl ?_)
    cases cs with
    | nil => exact hend.stops rfl rfl
    | cons c cs =>
      rw [List.cons_append, Stops.cons_iff, decide_eq_false_iff_not]
      rintro rfl
      exact hspace ⟨cs, rfl⟩

/-! ## Lines -/

/-- No character of a word begins a string, an array or a table in braces. -/
theorem isWordChar_ne {c d : Char} (h : isWordChar c = true) (hd : d ∈ ['"', '\'', '[', '\x7b']) :
    c ≠ d := by
  rintro rfl
  have hothers : ['"', '\'', '[', '\x7b'].any isWordChar = false := rfl
  exact List.any_eq_false.mp hothers c hd h

/-- A string does not begin with a character of a word. -/
theorem fails_string {c : Char} (h : isWordChar c = true) : string.Fails (c :: cs) := by
  have hdouble : Stops (· = '"') (c :: cs) :=
    Stops.cons_iff.mpr (decide_eq_false (isWordChar_ne h (by decide)))
  have hsingle : Stops (· = '\'') (c :: cs) :=
    Stops.cons_iff.mpr (decide_eq_false (isWordChar_ne h (by decide)))
  refine Fails.orElse (Fails.chars hdouble).bind ?_
  refine Fails.orElse (Fails.chars hsingle).bind ?_
  exact Fails.orElse (Fails.word _ rfl hdouble).bind
    (Fails.word _ rfl hsingle).bind

/-- **A word is read as its value.** -/
theorem reads_word {word trail ending : List Char} {v : Value} (hne : word ≠ [])
    (hchars : ∀ c ∈ word, isWordChar c = true) (hv : Value.ofWord? word = some v)
    (htrail : SpellsTrail trail) (hend : SpellsEnd ending rest) :
    (value maxDepth).Reads word v (trail ++ (ending ++ rest)) := by
  have hword : wordValue.Reads word v (trail ++ (ending ++ rest)) := by
    refine (Reads.span1 hchars hne (htrail.stops_word hend)).bind_nil ?_
    refine Reads.nil_bind (htrail.fails_time hend).option ?_
    simp only [hv]
    exact Reads.pure v _
  obtain ⟨c, cs, rfl⟩ := List.exists_cons_of_ne_nil hne
  have hc : isWordChar c = true := hchars c (by simp)
  have hopen {d : Char} (hd : d ∈ ['"', '\'', '[', '\x7b']) (more : List Char) :
      Stops (· = d) (c :: more) :=
    Stops.cons_iff.mpr (decide_eq_false (isWordChar_ne hc hd))
  refine Reads.orElse_of_fails (fails_string hc).map ?_
  refine Reads.orElse_of_fails (Fails.word _ rfl (hopen (by decide) _)).bind ?_
  exact Reads.orElse_of_fails (Fails.word _ rfl (hopen (by decide) _)).bind hword

/-- A character of a key is none of some others. -/
theorem isKeyChar_ne {c d : Char} (h : isKeyChar c = true)
    (hd : d ∈ [' ', '\t', '\n', '\r', '#', '[', '=', '\ufeff']) : c ≠ d := by
  rintro rfl
  have hothers : [' ', '\t', '\n', '\r', '#', '[', '=', '\ufeff'].any isKeyChar = false := rfl
  exact List.any_eq_false.mp hothers c hd h

theorem isBlank_eq_false_of_isKeyChar {c : Char} (h : isKeyChar c = true) : isBlank c = false := by
  refine Bool.eq_false_iff.mpr fun hblank => ?_
  simp only [isBlank, Bool.or_eq_true, decide_eq_true_eq] at hblank
  rcases hblank with rfl | rfl <;> exact absurd h (by decide)

/-- Blanks end where the text goes on with a key. -/
theorem stops_of_key {key : List Char} {more : List Char} {kind : Char → Bool} (hne : key ≠ [])
    (hkey : ∀ c ∈ key, isKeyChar c = true) (hkind : ∀ c, isKeyChar c = true → kind c = false) :
    Stops kind (key ++ more) := by
  obtain ⟨c, cs, rfl⟩ := List.exists_cons_of_ne_nil hne
  rw [List.cons_append, Stops.cons_iff]
  exact hkind c (hkey c (by simp))

/-- A bare key with blanks behind it is read as a key on its own. -/
theorem reads_dottedKey {key : String} {before : List Char} (hne : key.toList ≠ [])
    (hkey : ∀ c ∈ key.toList, isKeyChar c = true) (hbefore : ∀ c ∈ before, isBlank c = true)
    (hstops : Stops (fun c => isKeyChar c || isBlank c || c = '.') rest) :
    dottedKey.Reads (key.toList ++ before) ([], key) rest := by
  have hbehind : Stops isKeyChar (before ++ rest) := by
    cases before with
    | nil => exact hstops.mono fun c hc => by simp [hc]
    | cons b before =>
      rw [List.cons_append, Stops.cons_iff]
      refine Bool.eq_false_iff.mpr fun hb => ?_
      exact absurd (hbefore b (by simp)) (by simp [isBlank_eq_false_of_isKeyChar hb])
  have hblanks : blanks.Reads before () rest :=
    reads_blanks hbefore (hstops.mono fun c hc => by simp [hc])
  have hsimple : simpleKey.Reads key.toList key (before ++ rest) := by
    have hspan := (Reads.span1 hkey hne hbehind).map (g := String.ofList)
    rw [String.ofList_toList] at hspan
    exact hspan.orElse
  have hitem : Reads (do blanks; let key ← simpleKey; blanks; return key)
      (key.toList ++ before) key rest := by
    refine Reads.nil_bind (reads_blanks (by simp) ?_) ?_
    · rw [List.append_assoc]
      exact stops_of_key hne hkey fun c hc => isBlank_eq_false_of_isKeyChar hc
    · exact hsimple.bind (hblanks.bind_nil (Reads.pure key rest))
  have hpoint : Stops (· = '.') rest := hstops.mono fun c hc => by simp_all
  have hkeys : (separated1 (do blanks; let key ← simpleKey; blanks; return key)
      (word ".")).Reads (key.toList ++ before) [key] rest := by
    have hnone : (many do
        word "."
        do blanks; let key ← simpleKey; blanks; return key).Reads [] [] rest :=
      Reads.many_nil (Fails.word '.' rfl hpoint).bind
    have h := Reads.separated1 hitem hnone
    rwa [List.append_nil] at h
  exact hkeys.bind_nil (Reads.pure ([], key) rest)

theorem isBlank_eq_false_of_isWordChar {c : Char} (h : isWordChar c = true) : isBlank c = false := by
  refine Bool.eq_false_iff.mpr fun hblank => ?_
  simp only [isBlank, Bool.or_eq_true, decide_eq_true_eq] at hblank
  rcases hblank with rfl | rfl <;> exact absurd h (by decide)

/-- **A line is read as its entry.** -/
theorem SpellsLine.reads {key : String} {v : Value} {word ending : List Char}
    (h : SpellsLine key word cs) (hv : Value.ofWord? word = some v) (hend : SpellsEnd ending rest) :
    line.Reads (cs ++ ending) (.entry [] key v) rest := by
  obtain ⟨hindent, hbefore, hbehind, hne, hkey, hword, hchars, htrail⟩ := h
  rename_i indent before behind trail
  have hbracket (more : List Char) : Stops (· = '[') (key.toList ++ more) :=
    stops_of_key hne hkey fun c hc => decide_eq_false (isKeyChar_ne hc (by decide))
  have hblank (more : List Char) : Stops isBlank (key.toList ++ more) :=
    stops_of_key hne hkey fun c hc => isBlank_eq_false_of_isKeyChar hc
  have hwordBlank (more : List Char) : Stops isBlank (word ++ more) := by
    obtain ⟨c, cs, rfl⟩ := List.exists_cons_of_ne_nil hword
    exact Stops.cons_iff.mpr (isBlank_eq_false_of_isWordChar (hchars c (by simp)))
  have hline : line.Reads (indent ++ (((key.toList ++ before) ++ (['='] ++ (behind ++ word))) ++
      (trail ++ ending))) (.entry [] key v) rest := by
    refine (reads_blanks hindent ?_).bind ?_
    · simpa only [List.append_assoc] using hblank _
    refine Reads.bind ?_ ((htrail.reads_lineEnd hend).bind_nil (Reads.pure _ rest))
    rw [List.append_assoc trail]
    refine Reads.orElse_of_fails (Fails.word '[' rfl ?_).bind ?_
    · simpa only [List.append_assoc] using hbracket _
    refine Reads.orElse_of_fails (Fails.word '[' rfl ?_).bind ?_
    · simpa only [List.append_assoc] using hbracket _
    refine (reads_dottedKey hne hkey hbefore (Stops.cons_iff.mpr rfl)).bind ?_
    refine (Reads.word rfl _).bind ?_
    refine (reads_blanks hbehind (hwordBlank _)).bind ?_
    exact (reads_word hword hchars hv htrail hend).bind_nil (Reads.pure _ _)
  simpa only [List.append_assoc, List.cons_append, List.nil_append] using hline

/-! ## Documents -/

/-- No line that says something begins with a comment or at a line's end. -/
theorem fails_line {bs : List Char} (hbs : ∀ c ∈ bs, isBlank c = true)
    (hrest : Stops (fun c => isKeyChar c || isBlank c || c = '[' || c = '"' || c = '\'') rest) :
    line.Fails (bs ++ rest) := by
  refine Reads.bind_fails bs (reads_blanks hbs (hrest.mono fun c hc => by simp [hc])) ?_
  have hbracket : Stops (· = '[') rest := hrest.mono fun c hc => by simp_all
  have hdouble : Stops (· = '"') rest := hrest.mono fun c hc => by simp_all
  have hsingle : Stops (· = '\'') rest := hrest.mono fun c hc => by simp_all
  have hkey : simpleKey.Fails rest := by
    refine Fails.orElse (Fails.span1 (hrest.mono fun c hc => by simp [hc])).map ?_
    exact Fails.orElse (Fails.word _ rfl hdouble).bind
      (Fails.word _ rfl hsingle).bind
  have hdotted : dottedKey.Fails rest := by
    refine Fails.bind (Fails.separated1 ?_)
    refine Reads.bind_fails [] (reads_blanks (by simp) ?_) hkey.bind
    exact hrest.mono fun c hc => by simp [hc]
  refine Fails.bind (Fails.orElse (Fails.word _ rfl hbracket).bind ?_)
  exact Fails.orElse (Fails.word _ rfl hbracket).bind hdotted.bind

/-- A line with nothing but a comment is read to its end, which may be the text's. -/
theorem reads_emptyLine_remark {bs ending : List Char} (hbs : ∀ c ∈ bs, isBlank c = true)
    (hcs : ∀ c ∈ cs, isCommentChar c = true) (hend : SpellsEnd ending rest) :
    emptyLine.Reads (bs ++ (('#' :: cs) ++ ending)) () rest := by
  refine (reads_blanks hbs (Stops.cons_iff.mpr rfl)).bind (Reads.orElse ?_)
  exact (reads_comment hcs (hend.stops rfl rfl)).bind hend.reads

/-- A line that says nothing is read to its end. -/
theorem SpellsTrail.reads_emptyLine {ending : List Char} (h : SpellsTrail cs)
    (hending : SpellsNewline ending) : emptyLine.Reads (cs ++ ending) () rest := by
  have hend : SpellsEnd ending rest := .line hending
  cases h with
  | bare hbs =>
    refine (reads_blanks hbs (hend.stops rfl rfl)).bind ?_
    exact Reads.orElse_of_fails (fails_comment (hend.stops rfl rfl)).bind (hending.reads rest)
  | @remark bs cs hbs hcs =>
    rw [List.append_assoc]
    exact reads_emptyLine_remark hbs hcs hend

theorem SpellsTrail.fails_line {ending : List Char} (h : SpellsTrail cs)
    (hend : SpellsEnd ending rest) : line.Fails (cs ++ (ending ++ rest)) := by
  cases h with
  | bare hbs => exact Toml.fails_line hbs (hend.stops rfl rfl)
  | remark hbs hcs =>
    rw [List.append_assoc]
    exact Toml.fails_line hbs (Stops.cons_iff.mpr rfl)

/-- Any line: one that says something, or an empty one. -/
def anyLine : Parser (Option Line) := (some <$> line) <|> (do emptyLine; return none)

theorem SpellsLine.reads_anyLine {key : String} {v : Value} {word ending : List Char}
    (h : SpellsLine key word cs) (hv : Value.ofWord? word = some v) (hend : SpellsEnd ending rest) :
    anyLine.Reads (cs ++ ending) (some (.entry [] key v)) rest :=
  (h.reads hv hend).map.orElse

theorem SpellsTrail.reads_anyLine {ending : List Char} (h : SpellsTrail cs)
    (hending : SpellsNewline ending) : anyLine.Reads (cs ++ ending) none rest := by
  refine Reads.orElse_of_fails ?_ ((h.reads_emptyLine hending).bind_nil (Reads.pure none rest))
  rw [List.append_assoc]
  exact (h.fails_line (.line hending)).map

/-- Blanks without a newline are no line. -/
theorem fails_anyLine {bs : List Char} (hbs : ∀ c ∈ bs, isBlank c = true) : anyLine.Fails bs := by
  have hempty : emptyLine.Fails (bs ++ []) := by
    refine Reads.bind_fails bs (reads_blanks hbs Stops.nil) ?_
    exact Fails.orElse (fails_comment Stops.nil).bind (fails_newline Stops.nil Stops.nil)
  have hline : line.Fails (bs ++ []) := Toml.fails_line hbs Stops.nil
  rw [List.append_nil] at hempty hline
  exact Fails.orElse hline.map hempty.bind

theorem SpellsLine.ne_nil {key : String} {word : List Char} (h : SpellsLine key word cs) :
    cs ≠ [] := by
  obtain ⟨-, -, -, hne, -⟩ := h
  simp [hne]

theorem SpellsNewline.ne_nil (h : SpellsNewline cs) : cs ≠ [] := by
  cases h <;> simp

section Document

variable {entries : List (String × List Char)} {value : List Char → Value}

/-- The entries of a document are read as lines, and what is left are blanks. -/
theorem Document.reads_many (h : Document entries cs)
    (hvalue : ∀ entry ∈ entries, Value.ofWord? entry.2 = some (value entry.2)) :
    ∃ body ls bs, cs = body ++ bs ∧ (∀ c ∈ bs, isBlank c = true) ∧
      (many anyLine).Reads body ls bs ∧
      ls.filterMap id = entries.map fun entry => Line.entry [] entry.1 (value entry.2) := by
  have hnil : (many anyLine).Reads [] [] [] := Reads.many_nil (fails_anyLine (by simp))
  induction h with
  | @nil trail htrail =>
    cases htrail with
    | bare hbs => exact ⟨[], [], trail, rfl, hbs, Reads.many_nil (fails_anyLine hbs), rfl⟩
    | @remark bs cs hbs hcs =>
      have hread : anyLine.Reads (bs ++ (('#' :: cs) ++ [])) none [] := by
        refine Reads.orElse_of_fails ?_
          ((reads_emptyLine_remark hbs hcs .last).bind_nil (Reads.pure none []))
        rw [List.append_nil]
        exact (Toml.fails_line hbs (Stops.cons_iff.mpr rfl)).map
      have hmany := Reads.many_cons hread (by simp) hnil
      rw [List.append_nil, List.append_nil] at hmany
      exact ⟨bs ++ '#' :: cs, [none], [], by simp, by simp, hmany, rfl⟩
  | @last key word line hline =>
    have hread := hline.reads_anyLine (hvalue (key, word) (by simp)) .last
    have hmany := Reads.many_cons hread (by simp [hline.ne_nil]) hnil
    rw [List.append_nil, List.append_nil] at hmany
    exact ⟨line, [some (.entry [] key (value word))], [], by simp, by simp, hmany, rfl⟩
  | @blank entries trail newline rest htrail hnewline _ ih =>
    obtain ⟨body, ls, bs, rfl, hbs, hmany, hls⟩ := ih hvalue
    have hread : anyLine.Reads (trail ++ newline) none (body ++ bs) := htrail.reads_anyLine hnewline
    have hcons := Reads.many_cons hread (by simp [hnewline.ne_nil]) hmany
    exact ⟨trail ++ newline ++ body, none :: ls, bs, by simp, hbs, hcons, hls⟩
  | @cons key entries word line newline rest hline hnewline _ ih =>
    rw [List.forall_mem_cons] at hvalue
    obtain ⟨body, ls, bs, rfl, hbs, hmany, hls⟩ := ih hvalue.2
    have hread : anyLine.Reads (line ++ newline) (some (.entry [] key (value word))) (body ++ bs) :=
      hline.reads_anyLine hvalue.1 (.line hnewline)
    have hcons := Reads.many_cons hread (by simp [hnewline.ne_nil]) hmany
    refine ⟨line ++ newline ++ body, _ :: ls, bs, by simp, hbs, hcons, ?_⟩
    rw [List.map_cons, ← hls]
    rfl

/-- A document does not begin with the mark of its encoding. -/
theorem Document.fails_mark (h : Document entries cs) : (word "\ufeff").Fails cs := by
  have hline {key : String} {word line more : List Char} (h : SpellsLine key word line) :
      Stops (· = '\ufeff') (line ++ more) := by
    obtain ⟨hindent, -, -, hne, hkey, -⟩ := h
    rw [List.append_assoc, List.append_assoc]
    refine stops_blanks hindent rfl rfl (stops_of_key hne hkey fun c hc => ?_)
    exact decide_eq_false (isKeyChar_ne hc (by decide))
  refine Fails.word '\ufeff' rfl ?_
  cases h with
  | nil htrail => simpa using htrail.stops .last rfl rfl rfl rfl rfl
  | last h =>
    have hstops : Stops (· = '\ufeff') (cs ++ []) := hline h
    rwa [List.append_nil] at hstops
  | blank htrail hnewline => exact htrail.stops (.line hnewline) rfl rfl rfl rfl rfl
  | cons h => exact hline h

/-- A document is read as its entries, in order. -/
theorem Document.lines_eq (h : Document entries cs)
    (hvalue : ∀ entry ∈ entries, Value.ofWord? entry.2 = some (value entry.2)) :
    lines.run cs = some (entries.map fun entry => Line.entry [] entry.1 (value entry.2)) := by
  have hmark := h.fails_mark
  obtain ⟨body, ls, bs, rfl, hbs, hmany, hls⟩ := h.reads_many hvalue
  have hend : Reads (do blanks; let _ ← option comment; done; return ls.filterMap id) bs
      (ls.filterMap id) [] := by
    refine (reads_blanks hbs Stops.nil).bind_nil ?_
    refine (fails_comment Stops.nil).option.nil_bind ?_
    exact Reads.done.bind_nil (Reads.pure _ [])
  have hlines : lines.Reads (body ++ bs) (ls.filterMap id) [] := by
    have hbody : (many anyLine).Reads body ls (bs ++ []) := by rwa [List.append_nil]
    rw [← List.append_nil (body ++ bs)] at hmark
    exact hmark.option.nil_bind (hbody.bind hend)
  rw [hlines.run, hls]

/-- Entries with different keys are put into the root table one after another. -/
theorem foldlM_addLine (before : Entries) {after : Entries} (h : ((before ++ after).map (·.1)).Nodup) :
    (after.map fun entry => Line.entry [] entry.1 entry.2).foldlM addLine ([], before) =
      some ([], before ++ after) := by
  induction after generalizing before with
  | nil => simp
  | cons entry after ih =>
    obtain ⟨key, v⟩ := entry
    have hnew : before.get? key = none := by
      refine List.lookup_eq_none_iff.mpr fun other hother => ?_
      rw [List.map_append, List.nodup_append] at h
      have hne := h.2.2 other.1 (List.mem_map_of_mem hother) key (by simp)
      exact bne_iff_ne.mpr hne.symm
    have hadd : addLine ([], before) (.entry [] key v) = some ([], before ++ [(key, v)]) := by
      simp [addLine, Entries.modifyAt, Entries.assign, hnew]
    rw [List.map_cons, List.foldlM_cons, hadd, Option.bind_eq_bind, Option.bind_some, ih]
    · simp
    · simpa using h

/-- **A document whose keys differ is read as the table of its entries.** -/
theorem Document.parse?_eq (h : Document entries cs)
    (hvalue : ∀ entry ∈ entries, Value.ofWord? entry.2 = some (value entry.2))
    (hkeys : (entries.map (·.1)).Nodup) :
    parse? cs = some (entries.map fun entry => (entry.1, value entry.2)) := by
  have hnames : ((([] : Entries) ++ entries.map fun entry => (entry.1, value entry.2)).map
      (·.1)).Nodup := by
    simpa [Function.comp_def] using hkeys
  have htable := foldlM_addLine [] hnames
  rw [List.map_map, List.nil_append] at htable
  unfold parse?
  rw [h.lines_eq hvalue, Option.bind_eq_bind, Option.bind_some]
  exact congrArg (·.bind fun tables => some tables.2) htable

end Document

end ScenePack.Toml
