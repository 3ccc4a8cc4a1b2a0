import ScenePack.Proofs.Ron.Word
import ScenePack.Ron.Structure

/-!
# Structures of words

A RON document that is one structure, with or without its name, whose fields have words for their
values, with blanks and comments between all its parts.

* `SpellsField`, `SpellsFields`, `SpellsStructure`: the texts of such a structure and of its parts.

Results:
* `SpellsFields.reads`: fields are read one after another, up to the closing bracket.
* **`SpellsStructure.fields_eq`**: a structure is read as the values of its fields, in order.
-/

namespace ScenePack.Ron

open Text (Parser Stops)
open Text.Parser

variable {cs rest : List Char}

/-! ## Texts -/

/-- A field with a word for its value, and the gap behind it. -/
inductive SpellsField (key : String) (word : List Char) : List Char → Prop
  | mk {before behind back : List Char} : SpellsGap before → SpellsGap behind → SpellsGap back →
      SpellsField key word (key.toList ++ (before ++ (':' :: (behind ++ (word ++ back)))))

/-- Fields with commas between them; a comma may stand behind the last. -/
inductive SpellsFields : List (String × List Char) → List Char → Prop
  | last {key : String} {word cs : List Char} : SpellsField key word cs → SpellsFields [(key, word)] cs
  | comma {key : String} {word cs blanks : List Char} : SpellsField key word cs → SpellsGap blanks →
      SpellsFields [(key, word)] (cs ++ ',' :: blanks)
  | cons {key : String} {word cs blanks more : List Char} {entries : List (String × List Char)} :
      SpellsField key word cs → SpellsGap blanks → SpellsFields entries more →
      SpellsFields ((key, word) :: entries) (cs ++ ',' :: (blanks ++ more))

/-- What stands before the opening bracket of a structure: its name, or nothing. -/
inductive SpellsTitle (structName : String) : List Char → Prop
  | bare : SpellsTitle structName []
  | named {blanks : List Char} : SpellsGap blanks → SpellsTitle structName (structName.toList ++ blanks)

/-- A document that is one structure, with its fields in this order. -/
inductive SpellsStructure (structName : String) : List (String × List Char) → List Char → Prop
  | bare {front title inner back : List Char} : SpellsGap front → SpellsTitle structName title →
      SpellsGap inner → SpellsGap back →
      SpellsStructure structName [] (front ++ (title ++ ('(' :: (inner ++ (')' :: back)))))
  | full {front title inner body back : List Char} {entries : List (String × List Char)} :
      SpellsGap front → SpellsTitle structName title → SpellsGap inner → SpellsFields entries body →
      SpellsGap back →
      SpellsStructure structName entries
        (front ++ (title ++ ('(' :: (inner ++ (body ++ (')' :: back))))))

/-! ## Fields -/

section Fields

variable {α : Type} {field : List Extension → String → Parser α} {value : String × List Char → α}
  {entries : List (String × List Char)}

/-- The reader of one field. -/
def item (field : List Extension → String → Parser α) : Parser α := do
  gap
  let key ← name
  gap
  word ":"
  gap
  let a ← field [] key
  gap
  return a

/-- The field of a name is read as a value from its word. -/
def ReadsField (field : List Extension → String → Parser α) (value : String × List Char → α)
    (entry : String × List Char) : Prop :=
  IsName entry.1 ∧ (∃ c ∈ entry.2.head?, isBlank c = false ∧ c ≠ '/') ∧
    ∀ rest, Stops isRawChar rest → (field [] entry.1).Reads entry.2 (value entry) rest

theorem IsName.stops {key : String} {more : List Char} {kind : Char → Bool} (h : IsName key)
    (hkind : ∀ c, isNameChar c = true → kind c = false) : Stops kind (key.toList ++ more) := by
  obtain ⟨⟨c, hhead, -⟩, hchars⟩ := h
  obtain ⟨cs, hcs⟩ := List.head?_eq_some_iff.mp hhead
  rw [hcs, List.cons_append, Stops.cons_iff]
  exact hkind c (hchars c (by simp [hcs]))

/-- No character of a name belongs to a gap. -/
theorem gap_eq_false_of_isNameChar {c : Char} (h : isNameChar c = true) :
    (isBlank c || c = '/') = false := by
  refine Bool.eq_false_iff.mpr fun hgap => ?_
  simp only [isBlank, Bool.or_eq_true, decide_eq_true_eq] at hgap
  rcases hgap with (((rfl | rfl) | rfl) | rfl) | rfl <;> exact absurd h (by decide)

/-- **A field is read**, also behind a gap. -/
theorem SpellsField.reads {key : String} {word blanks : List Char} (h : SpellsField key word cs)
    (hread : ReadsField field value (key, word)) (hblanks : SpellsGap blanks)
    (hrest : ∃ c ∈ rest.head?, c = ',' ∨ c = ')') :
    (item field).Reads (blanks ++ cs) (value (key, word)) rest := by
  obtain ⟨hbefore, hbehind, hback⟩ := h
  rename_i before behind back
  obtain ⟨hname, ⟨c, hhead, hblank, hslash⟩, hvalue⟩ := hread
  obtain ⟨d, hd, hend⟩ := hrest
  obtain ⟨more, rfl⟩ := List.head?_eq_some_iff.mp hd
  have hrest {kind : Char → Bool} (hcomma : kind ',' = false) (hclose : kind ')' = false) :
      Stops kind (d :: more) := by
    rw [Stops.cons_iff]
    rcases hend with rfl | rfl
    · exact hcomma
    · exact hclose
  have hword (after : List Char) : Stops (fun c => isBlank c || c = '/') (word ++ after) := by
    obtain ⟨ds, hds⟩ := List.head?_eq_some_iff.mp hhead
    have hds : word = c :: ds := hds
    rw [hds, List.cons_append, Stops.cons_iff]
    simp [hblank, hslash]
  have hcolon (after : List Char) : Reads (Text.Parser.word ":") [':'] () after := Reads.word rfl _
  have hvalue : Reads (do gap; let a ← field [] key; gap; return a) (behind ++ (word ++ back))
      (value (key, word)) (d :: more) := by
    refine Reads.bind (hbehind.reads ?_) ?_
    · rw [List.append_assoc]
      exact hword _
    refine (hvalue _ (hback.stops rfl (hrest rfl rfl))).bind ?_
    exact (hback.reads (hrest rfl rfl)).bind_nil (Reads.pure _ _)
  refine Reads.bind (hblanks.reads ?_) ?_
  · rw [List.append_assoc]
    exact hname.stops fun c => gap_eq_false_of_isNameChar
  refine Reads.bind (reads_name hname ?_) ?_
  · rw [List.append_assoc]
    exact hbefore.stops rfl (Stops.cons_iff.mpr rfl)
  exact (hbefore.reads (Stops.cons_iff.mpr rfl)).bind ((hcolon _).bind hvalue)

/-- Where a bracket closes there is no further field. -/
theorem fails_item {blanks more : List Char} (hblanks : SpellsGap blanks) :
    (item field).Fails (blanks ++ ')' :: more) := by
  refine Reads.bind_fails blanks (hblanks.reads (Stops.cons_iff.mpr rfl)) (Fails.bind ?_)
  refine Fails.orElse (Fails.word 'r' rfl (Stops.cons_iff.mpr rfl)).bind ?_
  have hahead : Reads (ahead isNameStart) [] false (')' :: more) :=
    Reads.ahead_of_stops (Stops.cons_iff.mpr rfl)
  exact Reads.bind_fails [] hahead rfl

/-- The fields of a structure behind its first, each behind its comma. -/
def moreItems (field : List Extension → String → Parser α) : Parser (List α) :=
  many do
    let _ ← word ","
    item field

/-- **Fields are read one after another**, up to the closing bracket; a comma may be left over. -/
theorem SpellsFields.reads (h : SpellsFields entries cs)
    (hread : ∀ entry ∈ entries, ReadsField field value entry) (after : List Char) :
    ∃ entry others, entries = entry :: others ∧ ∃ first more tail, cs = first ++ (more ++ tail) ∧
      (tail = [] ∨ ∃ blanks, SpellsGap blanks ∧ tail = ',' :: blanks) ∧
      (∀ blanks, SpellsGap blanks → (item field).Reads (blanks ++ first) (value entry)
        (more ++ (tail ++ ')' :: after))) ∧
      (moreItems field).Reads more (others.map value) (tail ++ ')' :: after) := by
  have hcomma {blanks : List Char} (hblanks : SpellsGap blanks) : (moreItems field).Reads [] []
      (',' :: (blanks ++ ')' :: after)) := by
    have hword : Reads (word ",") [','] () (blanks ++ ')' :: after) := Reads.word rfl _
    exact Reads.many_nil (hword.bind_fails [','] (fails_item hblanks))
  induction h with
  | @last key word cs hfield =>
    refine ⟨(key, word), [], rfl, cs, [], [], by simp, .inl rfl, fun blanks hblanks => ?_, ?_⟩
    · exact hfield.reads (hread _ (by simp)) hblanks ⟨')', rfl, .inr rfl⟩
    · exact Reads.many_nil (Fails.word ',' rfl (Stops.cons_iff.mpr rfl)).bind
  | @comma key word cs blanks hfield hblanks =>
    refine ⟨(key, word), [], rfl, cs, [], ',' :: blanks, by simp, .inr ⟨blanks, hblanks, rfl⟩,
      fun front hfront => ?_, hcomma hblanks⟩
    exact hfield.reads (hread _ (by simp)) hfront ⟨',', rfl, .inl rfl⟩
  | @cons key word cs blanks more entries hfield hblanks _ ih =>
    rw [List.forall_mem_cons] at hread
    obtain ⟨entry, others, rfl, first, rest, tail, rfl, htail, hfirst, hrest⟩ := ih hread.2
    refine ⟨(key, word), entry :: others, rfl, cs, ',' :: (blanks ++ first) ++ rest, tail,
      by simp, htail, fun front hfront => ?_, ?_⟩
    · exact hfield.reads hread.1 hfront ⟨',', rfl, .inl rfl⟩
    · have hword (text : List Char) : Reads (Text.Parser.word ",") [','] () text := Reads.word rfl _
      exact Reads.many_cons ((hword _).bind (hfirst blanks hblanks)) (by simp) hrest

/-- The fields of a structure, if it has some. -/
def allItems (field : List Extension → String → Parser α) : Parser (Option (List α)) :=
  option do
    let fields ← separated1 (item field) (word ",")
    let _ ← option (word ",")
    return fields

theorem SpellsFields.reads_all (h : SpellsFields entries cs)
    (hread : ∀ entry ∈ entries, ReadsField field value entry) (after : List Char) :
    ∃ body blanks, cs = body ++ blanks ∧ SpellsGap blanks ∧
      (allItems field).Reads body (some (entries.map value)) (blanks ++ ')' :: after) := by
  obtain ⟨entry, others, rfl, first, more, tail, rfl, htail, hfirst, hmore⟩ := h.reads hread after
  have hitems : (separated1 (item field) (word ",")).Reads (first ++ more)
      (value entry :: others.map value) (tail ++ ')' :: after) :=
    Reads.separated1 (hfirst [] .nil) hmore
  rcases htail with rfl | ⟨blanks, hblanks, rfl⟩
  · have hcomma : (word ",").Fails ([] ++ ')' :: after) :=
      Fails.word ',' rfl (Stops.cons_iff.mpr rfl)
    refine ⟨first ++ more, [], by simp, .nil, Reads.option ?_⟩
    exact hitems.bind_nil (hcomma.option.bind_nil (Reads.pure _ _))
  · have hcomma : (word ",").Reads [','] () (blanks ++ ')' :: after) := Reads.word rfl _
    refine ⟨first ++ more ++ [','], blanks, by simp, hblanks, Reads.option ?_⟩
    exact Reads.bind hitems (hcomma.option.bind_nil (Reads.pure _ _))

/-- Fields begin with a name. -/
theorem SpellsFields.stops {kind : Char → Bool} (h : SpellsFields entries cs)
    (hnames : ∀ entry ∈ entries, IsName entry.1)
    (hkind : ∀ c, isNameChar c = true → kind c = false) : Stops kind (cs ++ rest) := by
  have hfield {key : String} {word text more : List Char} (hname : IsName key)
      (h : SpellsField key word text) : Stops kind (text ++ more) := by
    obtain ⟨-, -, -⟩ := h
    rw [List.append_assoc]
    exact hname.stops hkind
  cases h with
  | last h => exact hfield (hnames _ List.mem_cons_self) h
  | comma h | cons h =>
    rw [List.append_assoc]
    exact hfield (hnames _ List.mem_cons_self) h

/-- What is read from the opening bracket on. -/
def brackets (field : List Extension → String → Parser α) : Parser (List α) := do
  word "("
  gap
  let fields ← allItems field
  gap
  word ")"
  gap
  done
  return fields.getD []

/-- Fields in their brackets are read, with what stands around them. -/
theorem reads_brackets {inner body blanks back : List Char} {read : Option (List α)}
    (hinner : SpellsGap inner) (hblanks : SpellsGap blanks) (hback : SpellsGap back)
    (hstops : Stops (fun c => isBlank c || c = '/') (body ++ (blanks ++ ')' :: back)))
    (hread : (allItems field).Reads body read (blanks ++ ')' :: back)) :
    (brackets field).Reads ('(' :: (inner ++ (body ++ (blanks ++ (')' :: back))))) (read.getD []) [] := by
  have hopen (text : List Char) : Reads (word "(") ['('] () text := Reads.word rfl _
  have hclose (text : List Char) : Reads (word ")") [')'] () text := Reads.word rfl _
  have hend : Reads (do gap; done; return read.getD []) back (read.getD []) [] :=
    (hback.reads Stops.nil).bind_nil (Reads.done.bind_nil (Reads.pure _ _))
  have hfields : Reads (do
      let fields ← allItems field
      gap
      word ")"
      gap
      done
      return fields.getD []) (body ++ (blanks ++ (')' :: back))) (read.getD []) [] := by
    refine Reads.bind (by rwa [List.append_nil]) ?_
    refine Reads.bind (hblanks.reads (Stops.cons_iff.mpr rfl)) ?_
    exact (hclose _).bind hend
  refine (hopen _).bind (Reads.bind (hinner.reads ?_) hfields)
  rwa [List.append_nil]

/-- The name before the opening bracket, if there is one, must be the given one. -/
def title (structName : String) : Parser (Option Unit) :=
  option do
    let s ← name
    if s ≠ structName then failure

/-- What may stand before the opening bracket is passed over. -/
theorem SpellsTitle.reads {structName : String} (h : SpellsTitle structName cs) (hname : IsName structName)
    (more : List Char) :
    ∃ front blanks read, cs = front ++ blanks ∧ SpellsGap blanks ∧
      (title structName).Reads front read (blanks ++ '(' :: more) := by
  cases h with
  | bare =>
    have hfails : Fails (do
        let s ← name
        if s ≠ structName then failure) ('(' :: more) := by
      refine Fails.bind (Fails.orElse (Fails.word 'r' rfl (Stops.cons_iff.mpr rfl)).bind ?_)
      have hahead : Reads (ahead isNameStart) [] false ('(' :: more) :=
        Reads.ahead_of_stops (Stops.cons_iff.mpr rfl)
      exact Reads.bind_fails [] hahead rfl
    exact ⟨[], [], none, rfl, .nil, hfails.option⟩
  | @named blanks hblanks =>
    have hstops : Stops isRawChar (blanks ++ '(' :: more) :=
      hblanks.stops rfl (Stops.cons_iff.mpr rfl)
    have hread := reads_name hname hstops
    have hnamed : Reads (do
        let s ← name
        if s ≠ structName then failure) structName.toList () (blanks ++ '(' :: more) :=
      hread.bind_nil (Reads.ite_neg (not_not.mpr rfl) (Reads.pure () _))
    exact ⟨structName.toList, blanks, some (), rfl, hblanks, hnamed.option⟩

/-- A structure begins with its name or its bracket. -/
theorem SpellsTitle.stops {structName : String} {kind : Char → Bool} (h : SpellsTitle structName cs)
    (hname : IsName structName) (hkind : ∀ c, isNameChar c = true → kind c = false)
    (hopen : kind '(' = false) (more : List Char) : Stops kind (cs ++ '(' :: more) := by
  cases h with
  | bare => exact Stops.cons_iff.mpr hopen
  | named =>
    rw [List.append_assoc]
    exact hname.stops hkind

/-- A document without extensions is read from the bracket on. -/
theorem reads_fields {structName : String} {front title' more : List Char} {a : List α}
    (hname : IsName structName) (hfront : SpellsGap front) (htitle : SpellsTitle structName title')
    (hmore : (brackets field).Reads ('(' :: more) a []) :
    (fields structName field).Reads (front ++ (title' ++ '(' :: more)) a [] := by
  obtain ⟨named, blanks, read, htext, hblanks, hread⟩ := htitle.reads hname more
  have hgap : Stops (fun c => isBlank c || c = '/') (title' ++ '(' :: more) :=
    htitle.stops hname (fun c => gap_eq_false_of_isNameChar) rfl more
  have hmark : Stops (· = '#') (title' ++ '(' :: more) := by
    refine htitle.stops hname (fun c hc => decide_eq_false ?_) rfl more
    rintro rfl
    exact absurd hc (by decide)
  have hnone : (many enabling).Reads [] [] (title' ++ '(' :: more) :=
    Reads.many_nil (Fails.bind (Fails.word '#' rfl hmark))
  have htitled : Reads (do
      let _ ← title structName
      gap
      brackets field) (title' ++ '(' :: more) a [] := by
    have hopen : Stops (fun c => isBlank c || c = '/') ('(' :: more) := Stops.cons_iff.mpr rfl
    have hrest : Reads (do gap; brackets field) (blanks ++ '(' :: more) a [] :=
      Reads.bind (by rw [List.append_nil]; exact hblanks.reads hopen) hmore
    rw [htext, List.append_assoc]
    exact Reads.bind (by rwa [List.append_nil]) hrest
  refine Reads.bind (a := ()) ?_ (Reads.nil_bind (a := []) ?_ htitled)
  · rw [List.append_nil]
    exact hfront.reads hgap
  · rwa [List.append_nil]

/-- **A structure is read as the values of its fields, in order.** -/
theorem SpellsStructure.fields_eq {structName : String} (h : SpellsStructure structName entries cs)
    (hname : IsName structName) (hread : ∀ entry ∈ entries, ReadsField field value entry) :
    (fields structName field).run cs = some (entries.map value) := by
  cases h with
  | @bare front title inner back hfront htitle hinner hback =>
    have hnone : (item field).Fails ([] ++ ')' :: back) := fails_item .nil
    have hfails : (separated1 (item field) (word ",")).Fails (')' :: back) := hnone.separated1
    have hall : (allItems field).Reads [] none ([] ++ ')' :: back) := (Fails.bind hfails).option
    have hbrackets := reads_brackets hinner .nil hback (Stops.cons_iff.mpr rfl) hall
    exact (reads_fields hname hfront htitle hbrackets).run
  | @full front title inner body back entries hfront htitle hinner hbody hback =>
    obtain ⟨main, blanks, rfl, hblanks, hall⟩ := hbody.reads_all hread back
    have hstops : Stops (fun c => isBlank c || c = '/') (main ++ blanks ++ ')' :: back) :=
      hbody.stops (fun entry hentry => (hread entry hentry).1) fun c => gap_eq_false_of_isNameChar
    rw [List.append_assoc] at hstops ⊢
    have hbrackets := reads_brackets hinner hblanks hback hstops hall
    exact (reads_fields hname hfront htitle hbrackets).run

end Fields

end ScenePack.Ron
