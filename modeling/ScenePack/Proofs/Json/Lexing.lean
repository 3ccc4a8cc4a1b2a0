import ScenePack.Json.Reader
import ScenePack.Proofs.Json.Literal

/-!
# How a JSON text falls into tokens

Which tokens a text that can be read falls into, said without places and without a scan: `Lexed`
puts the tokens one behind the other, with spaces between them, and asks of a number or a word that
it does not go on where the next token begins. The reader of tokens goes by what they are and not by
where they stand (`accepts`).

* `Spells`: some characters are a token, wherever they stand.
* `Lexed`: a text falls into tokens.
* `accepts`: what a list of tokens reads as.

Results:

* `parse_eq_ok_iff`: a text reads as a value exactly if it falls into tokens that do.
* `Lexed.append`, `Lexed.split`: texts one behind the other fall into the tokens of both, unless a
  word goes on from one into the other.
* `accepts_words`: two words or numbers one behind the other are never read.
* `parse_space_iff`: a space between two parts of a text changes nothing, unless it parts a word.
-/

namespace ScenePack.Json

open Comment (Closes Outside)

/-! ## Tokens where they stand -/

/-- Whether a token is a number or a word, or a character that can only be part of one. -/
def Lexeme.isWord : Lexeme → Bool
  | plain _ | stray => true
  | _ => false

/-- What characters a token has. -/
inductive Shape : List Char → Lexeme → Prop
  | word {w : List Char} {v : Value} : w ≠ [] → (∀ c ∈ w, isWordChar c) → Shape w (.plain (.ok v))
  | string {w : List Char} {s : String} : Closes w → Shape ('"' :: w) (.string (.ok s))
  | mark {c : Char} {lexeme : Lexeme} : c ≠ '"' → isWordChar c = false → lexeme.isWord = false →
      Shape [c] lexeme

/-- The characters `w` are a token wherever they stand, if a number or a word does not go on behind
them. -/
structure Spells (w : List Char) (lexeme : Lexeme) : Prop where
  shape : Shape w lexeme
  step : ∀ offset rest, (lexeme.isWord → startsWord rest = false) →
    ∃ c cs next, w = c :: cs ∧
      Token.step offset c (cs ++ rest) = .token lexeme cs.length next

namespace Token

variable {offset taken next : Nat} {c : Char} {rest : List Char} {lexeme : Lexeme}

/-- A space is no part of a word. -/
theorem not_isWordChar_of_isSpace (h : isSpace c) : ¬ isWordChar c := by
  simp only [isSpace, Bool.or_eq_true, decide_eq_true_eq] at h
  rcases h with ((rfl | rfl) | rfl) | rfl <;> decide

theorem step_space (h : isSpace c) (offset : Nat) (rest : List Char) :
    step offset c rest = .space := by
  unfold step
  rw [if_pos h]

theorem step_digit (h : c.isDigit) (offset : Nat) (rest : List Char) :
    step offset c rest = numberStep (readNumber false 0 offset (c :: rest)) := by
  have hspace : ¬ isSpace c :=
    fun hspace => not_isWordChar_of_isSpace hspace (isWordChar_of_isDigit h)
  unfold step
  rw [if_neg hspace, if_pos h]

theorem numberStep_token {read : Except Fault (Extent Number)}
    (h : numberStep read = .token lexeme taken next) :
    ∃ e, read = .ok e ∧ lexeme = .plain (.ok (.number e.value)) ∧ taken = e.taken - 1 := by
  cases read with
  | error fault => contradiction
  | ok e =>
    obtain ⟨rfl, rfl, -⟩ := Step.token.inj h
    exact ⟨e, rfl, rfl, rfl⟩

/-- A number without a sign. -/
theorem digit_spells (hdigit : c.isDigit) (h : step offset c rest = .token lexeme taken next) :
    ∃ w r, rest = w ++ r ∧ taken = w.length ∧ Spells (c :: w) lexeme := by
  rw [step_digit hdigit] at h
  obtain ⟨e, hread, rfl, rfl⟩ := numberStep_token h
  obtain ⟨w, r, htext, htaken, htakes⟩ := readNumber_local false 0 _ _ _ hread
  cases w with
  | nil =>
    obtain ⟨next, hempty⟩ := htakes.again 0 [] rfl
    contradiction
  | cons d w =>
    obtain ⟨rfl, rfl⟩ := List.cons.inj htext
    have hlength : e.taken - 1 = w.length := by
      rw [htaken, List.length_cons]
      omega
    refine ⟨w, r, rfl, hlength, .word (by simp) htakes.word, fun offset rest hrest => ?_⟩
    obtain ⟨next, hagain⟩ := htakes.again offset rest (hrest rfl)
    rw [List.cons_append] at hagain
    exact ⟨c, w, next, rfl, by rw [step_digit hdigit, hagain, ← hlength]; rfl⟩

/-- A number with a minus sign. -/
theorem minus_spells (h : numberStep (readNumber true 1 (offset + 1) rest) =
      .token lexeme taken next) :
    ∃ w r, rest = w ++ r ∧ taken = w.length ∧ Spells ('-' :: w) lexeme := by
  obtain ⟨e, hread, rfl, rfl⟩ := numberStep_token h
  obtain ⟨w, r, rfl, htaken, htakes⟩ := readNumber_local true 1 _ _ _ hread
  have hlength : e.taken - 1 = w.length := by omega
  have hword : ∀ c ∈ '-' :: w, isWordChar c := by
    intro c hc
    rcases List.mem_cons.mp hc with rfl | hc
    · rfl
    · exact htakes.word c hc
  refine ⟨w, r, rfl, hlength, .word (by simp) hword, fun offset rest hrest => ?_⟩
  obtain ⟨next, hagain⟩ := htakes.again (offset + 1) rest (hrest rfl)
  refine ⟨'-', w, next, rfl, ?_⟩
  rw [← hlength]
  exact congrArg numberStep hagain

/-- A word. -/
theorem word_spells {letters : List Char} {v : Value}
    (hword : (c :: letters).all isWordChar)
    (hstep : ∀ offset rest, step offset c rest = wordStep offset letters v rest)
    (h : wordStep offset letters v rest = .token lexeme taken next) :
    ∃ w r, rest = w ++ r ∧ taken = w.length ∧ Spells (c :: w) lexeme := by
  rw [wordStep] at h
  split at h
  · next next' hread =>
    obtain ⟨rfl, rfl, -⟩ := Step.token.inj h
    obtain ⟨r, rfl, hagain⟩ := readWord_local hread
    have hshape : Shape (c :: letters) (.plain (.ok v)) :=
      .word (by simp) (List.all_eq_true.mp hword)
    refine ⟨letters, r, rfl, rfl, hshape, fun offset rest _ => ?_⟩
    obtain ⟨next, hread⟩ := hagain (offset + 1) rest
    exact ⟨c, letters, next, rfl, by rw [hstep, wordStep, hread]⟩
  · contradiction

/-- A string. -/
theorem string_spells (h : stringStep offset rest = .token lexeme taken next) :
    ∃ w r, rest = w ++ r ∧ taken = w.length ∧ Spells ('"' :: w) lexeme := by
  rw [stringStep] at h
  split at h
  · next e hread =>
    obtain ⟨rfl, rfl, -⟩ := Step.token.inj h
    obtain ⟨w, r, rfl, htakes⟩ := readString_local hread
    have hlength : e.taken = w.length := by rw [htakes.count, Nat.zero_add]
    refine ⟨w, r, rfl, hlength, .string htakes.closes, fun offset rest _ => ?_⟩
    obtain ⟨next, hagain⟩ := htakes.again (offset + 1) rest
    refine ⟨'"', w, next, rfl, ?_⟩
    change stringStep offset (w ++ rest) = _
    rw [stringStep, hagain, ← hlength]
  · contradiction

/-- A token of one character. -/
theorem mark_spells {mark : Lexeme} (hquote : c ≠ '"') (hword : isWordChar c = false)
    (hmark : mark.isWord = false)
    (hstep : ∀ offset rest, step offset c rest = .token mark 0 (offset + 1))
    (h : Step.token mark 0 (offset + 1) = .token lexeme taken next) :
    ∃ w r, rest = w ++ r ∧ taken = w.length ∧ Spells (c :: w) lexeme := by
  obtain ⟨rfl, rfl, -⟩ := Step.token.inj h
  exact ⟨[], rest, rfl, rfl, .mark hquote hword hmark,
    fun offset rest _ => ⟨c, [], offset + 1, rfl, hstep offset rest⟩⟩

/-- What a step takes is a token wherever it stands. -/
theorem step_spells (h : step offset c rest = .token lexeme taken next) :
    ∃ w r, rest = w ++ r ∧ taken = w.length ∧ Spells (c :: w) lexeme := by
  by_cases hspace : isSpace c
  · rw [step_space hspace] at h
    contradiction
  by_cases hdigit : c.isDigit
  · exact digit_spells hdigit h
  unfold step at h
  rw [if_neg hspace, if_neg hdigit] at h
  split at h
  · exact mark_spells (by decide) (by decide) rfl (fun _ _ => rfl) h
  · exact mark_spells (by decide) (by decide) rfl (fun _ _ => rfl) h
  · exact mark_spells (by decide) (by decide) rfl (fun _ _ => rfl) h
  · exact mark_spells (by decide) (by decide) rfl (fun _ _ => rfl) h
  · exact mark_spells (by decide) (by decide) rfl (fun _ _ => rfl) h
  · exact mark_spells (by decide) (by decide) rfl (fun _ _ => rfl) h
  · exact string_spells h
  · exact minus_spells h
  · exact word_spells rfl (fun _ _ => rfl) h
  · exact word_spells rfl (fun _ _ => rfl) h
  · exact word_spells rfl (fun _ _ => rfl) h
  · contradiction

end Token

/-! ## Texts that fall into tokens -/

/-- A text falls into tokens, with spaces between them. -/
inductive Lexed : List Char → List Lexeme → Prop
  | nil : Lexed [] []
  | space {c : Char} {rest : List Char} {ls : List Lexeme} :
      isSpace c → Lexed rest ls → Lexed (c :: rest) ls
  | token {w rest : List Char} {lexeme : Lexeme} {ls : List Lexeme} :
      Spells w lexeme → (lexeme.isWord → startsWord rest = false) → Lexed rest ls →
      Lexed (w ++ rest) (lexeme :: ls)

namespace Token

/-- The tokens of a text, without their places. -/
def lexemes (offset : Nat) (text : List Char) : List Lexeme :=
  (scan 0 offset text).map (·.lexeme)

theorem scan_skip (offset : Nat) (w rest : List Char) :
    scan w.length offset (w ++ rest) = scan 0 offset rest := by
  induction w with
  | nil => rfl
  | cons c w ih => rw [List.length_cons, List.cons_append, scan, ih]

theorem lexemes_space {offset : Nat} {c : Char} {rest : List Char} (h : isSpace c) :
    lexemes offset (c :: rest) = lexemes (offset + 1) rest := by
  rw [lexemes, scan, step_space h, lexemes]

theorem lexemes_token {offset next : Nat} {c : Char} {w rest : List Char} {lexeme : Lexeme}
    (h : step offset c (w ++ rest) = .token lexeme w.length next) :
    lexemes offset (c :: (w ++ rest)) = lexeme :: lexemes next rest := by
  rw [lexemes, scan, h, lexemes]
  simp only [scan_skip, List.map_cons]

/-- The scan finds the tokens that a text falls into. -/
theorem lexemes_of_lexed {text : List Char} {ls : List Lexeme} (h : Lexed text ls) (offset : Nat) :
    lexemes offset text = ls := by
  induction h generalizing offset with
  | nil => rfl
  | space hspace _ ih => rw [lexemes_space hspace, ih]
  | @token w rest lexeme ls hspells hnext _ ih =>
    obtain ⟨c, cs, next, rfl, hstep⟩ := hspells.step offset rest hnext
    rw [List.cons_append, lexemes_token hstep, ih]

end Token

/-! ## What tokens read as -/

/-- What one token leads to, wherever it stands. -/
def follow (expecting : Expecting) (stack : List Frame) (lexeme : Lexeme) :
    Option (Expecting × List Frame) :=
  (advance expecting stack ⟨lexeme, 0⟩).toOption

/-- What a list of tokens reads as. -/
def accepts : Expecting → List Frame → List Lexeme → Option Value
  | expecting, stack, [] => (conclude expecting stack 0).toOption
  | expecting, stack, lexeme :: rest =>
    (follow expecting stack lexeme).bind fun next => accepts next.1 next.2 rest

theorem begin_toOption (stack : List Frame) (t : Token) :
    (begin stack t).toOption = (begin stack ⟨t.lexeme, 0⟩).toOption := by
  obtain ⟨lexeme, offset⟩ := t
  cases lexeme with
  | openList | openObject => simp only [begin]; split <;> rfl
  | string s | plain v => rfl
  | closeObject | closeList | colon | comma | stray => rfl

theorem attach_toOption (frame : Frame) (v : Value) (t : Token) :
    (attach frame v t).toOption = (attach frame v ⟨t.lexeme, 0⟩).toOption := by
  obtain ⟨lexeme, offset⟩ := t
  cases frame <;> cases lexeme <;> rfl

theorem toOption_map {α β : Type} (f : α → β) {x y : Except Fault α}
    (h : x.toOption = y.toOption) : (x.map f).toOption = (y.map f).toOption := by
  cases x <;> cases y <;> simp_all [Except.map, Except.toOption]

/-- A token leads on by what it is. -/
theorem advance_toOption (expecting : Expecting) (stack : List Frame) (t : Token) :
    (advance expecting stack t).toOption = follow expecting stack t.lexeme := by
  obtain ⟨lexeme, offset⟩ := t
  cases expecting with
  | value => exact toOption_map _ (begin_toOption _ ⟨lexeme, offset⟩)
  | firstItem | nextItem before =>
    cases lexeme with
    | openList => exact toOption_map _ (begin_toOption _ ⟨.openList, offset⟩)
    | openObject => exact toOption_map _ (begin_toOption _ ⟨.openObject, offset⟩)
    | _ => rfl
  | firstKey | nextKey before => cases lexeme <;> rfl
  | colon before key => cases lexeme <;> rfl
  | behind v =>
    cases stack with
    | nil => rfl
    | cons frame stack => exact toOption_map _ (attach_toOption frame v ⟨lexeme, offset⟩)

theorem conclude_toOption (expecting : Expecting) (stack : List Frame) (offset : Nat) :
    (conclude expecting stack offset).toOption = (conclude expecting stack 0).toOption := by
  cases expecting with
  | behind v =>
    cases stack with
    | nil => rfl
    | cons frame stack => cases frame <;> rfl
  | _ => rfl

/-- The reader of tokens goes by what they are. -/
theorem read_toOption (length : Nat) (expecting : Expecting) (stack : List Frame)
    (ts : List Token) :
    (read length expecting stack ts).toOption = accepts expecting stack (ts.map (·.lexeme)) := by
  induction ts generalizing expecting stack with
  | nil => exact conclude_toOption expecting stack length
  | cons t ts ih =>
    rw [List.map_cons, accepts, ← advance_toOption, read]
    cases advance expecting stack t with
    | error fault => rfl
    | ok next => exact ih next.1 next.2

theorem parse_toOption (text : List Char) :
    (parse text).toOption = accepts .value [] (Token.lexemes 0 text) :=
  read_toOption _ _ _ _

/-! ## Tokens that are not taken -/

/-- Behind a value that is complete there is a comma or the end of a list or an object. -/
theorem follow_behind (v : Value) (stack : List Frame) {lexeme : Lexeme} (hcomma : lexeme ≠ .comma)
    (hlist : lexeme ≠ .closeList) (hobject : lexeme ≠ .closeObject) :
    follow (.behind v) stack lexeme = none := by
  cases stack with
  | nil => rfl
  | cons frame stack =>
    have hattach : (attach frame v ⟨lexeme, 0⟩).toOption = none := by
      cases frame <;> cases lexeme <;> first | rfl | contradiction
    rw [follow, advance]
    exact toOption_map (y := .error ⟨.trailingText, 0⟩) _ hattach

/-- Whether a token holds a fault. -/
def Lexeme.isFaulty : Lexeme → Bool
  | plain (.error _) | string (.error _) | stray => true
  | _ => false

/-- A token that holds a fault is never taken. -/
theorem follow_faulty (expecting : Expecting) (stack : List Frame) {lexeme : Lexeme}
    (h : lexeme.isFaulty) : follow expecting stack lexeme = none := by
  cases expecting with
  | behind v =>
    exact follow_behind v stack (by rintro rfl; contradiction) (by rintro rfl; contradiction)
      (by rintro rfl; contradiction)
  | _ =>
    cases lexeme with
    | plain p => cases p <;> first | rfl | contradiction
    | string p => cases p <;> first | rfl | contradiction
    | stray => rfl
    | _ => contradiction

/-- A number or a word is a value. -/
theorem follow_word {expecting : Expecting} {stack : List Frame} {lexeme : Lexeme}
    (hword : lexeme.isWord) {next : Expecting × List Frame}
    (h : follow expecting stack lexeme = some next) : ∃ v, next.1 = .behind v := by
  cases lexeme with
  | plain p =>
    cases p with
    | error fault => rw [follow_faulty expecting stack rfl] at h; contradiction
    | ok v =>
      cases expecting with
      | value | firstItem | nextItem before =>
        obtain rfl := Option.some.inj h
        exact ⟨v, rfl⟩
      | behind v => rw [follow_behind v stack (by simp) (by simp) (by simp)] at h; contradiction
      | _ => contradiction
  | stray => rw [follow_faulty expecting stack rfl] at h; contradiction
  | _ => contradiction

/-- A number or a word behind another one is never taken. -/
theorem accepts_words {expecting : Expecting} {stack : List Frame} {before after : List Lexeme}
    {first second : Lexeme} (hfirst : first.isWord) (hsecond : second.isWord) :
    accepts expecting stack (before ++ first :: second :: after) = none := by
  induction before generalizing expecting stack with
  | nil =>
    rw [List.nil_append, accepts]
    cases hnext : follow expecting stack first with
    | none => rfl
    | some next =>
      obtain ⟨v, hbehind⟩ := follow_word hfirst hnext
      have hsecond : follow (.behind v) next.2 second = none :=
        follow_behind v next.2 (by rintro rfl; contradiction) (by rintro rfl; contradiction)
          (by rintro rfl; contradiction)
      rw [Option.bind_some, accepts, hbehind, hsecond, Option.bind_none]
  | cons lexeme before ih =>
    rw [List.cons_append, accepts]
    cases follow expecting stack lexeme with
    | none => rfl
    | some next => exact ih

/-! ## Reading a text -/

namespace Token

/-- A step that takes no token leaves a fault, and at a character of a word no string. -/
theorem step_faulty {offset : Nat} {c : Char} {rest : List Char} {lexeme : Lexeme}
    (h : step offset c rest = .faulty lexeme) :
    lexeme.isFaulty ∧ (isWordChar c → lexeme.isWord) := by
  have hnumber {read : Except Fault (Extent Number)} (h : numberStep read = .faulty lexeme) :
      lexeme.isFaulty ∧ lexeme.isWord := by
    cases read with
    | error fault =>
      obtain rfl := Step.faulty.inj h
      exact ⟨rfl, rfl⟩
    | ok e => contradiction
  have hletters {letters : List Char} {v : Value}
      (h : wordStep offset letters v rest = .faulty lexeme) : lexeme.isFaulty ∧ lexeme.isWord := by
    rw [wordStep] at h
    split at h
    · contradiction
    · obtain rfl := Step.faulty.inj h
      exact ⟨rfl, rfl⟩
  unfold step at h
  split at h
  · contradiction
  split at h
  · exact ⟨(hnumber h).1, fun _ => (hnumber h).2⟩
  split at h
  · contradiction
  · contradiction
  · contradiction
  · contradiction
  · contradiction
  · contradiction
  · rw [stringStep] at h
    split at h
    · contradiction
    · obtain rfl := Step.faulty.inj h
      exact ⟨rfl, fun hword => absurd hword (by decide)⟩
  · exact ⟨(hnumber h).1, fun _ => (hnumber h).2⟩
  · exact ⟨(hletters h).1, fun _ => (hletters h).2⟩
  · exact ⟨(hletters h).1, fun _ => (hletters h).2⟩
  · exact ⟨(hletters h).1, fun _ => (hletters h).2⟩
  · obtain rfl := Step.faulty.inj h
    exact ⟨rfl, fun _ => rfl⟩

/-- Only a space is passed over. -/
theorem isSpace_of_step {offset : Nat} {c : Char} {rest : List Char}
    (h : step offset c rest = .space) : isSpace c := by
  have hnumber {read : Except Fault (Extent Number)} (h : numberStep read = .space) :
      isSpace c := by
    cases read <;> contradiction
  have hletters {letters : List Char} {v : Value} (h : wordStep offset letters v rest = .space) :
      isSpace c := by
    rw [wordStep] at h
    split at h <;> contradiction
  unfold step at h
  split at h
  · assumption
  split at h
  · exact hnumber h
  split at h
  iterate 6 contradiction
  · rw [stringStep] at h
    split at h <;> contradiction
  · exact hnumber h
  iterate 3 exact hletters h
  · contradiction

/-- The characters of a word begin a number or a word. -/
theorem isWord_of_spells {w : List Char} {lexeme : Lexeme} {c : Char} (hspells : Spells w lexeme)
    (hhead : w.head? = some c) (hc : isWordChar c) : lexeme.isWord := by
  cases hspells.shape with
  | word _ _ => rfl
  | string _ =>
    obtain rfl := Option.some.inj hhead
    exact absurd hc (by decide)
  | mark _ hword _ =>
    obtain rfl := Option.some.inj hhead
    rw [hc] at hword
    contradiction

theorem lexemes_faulty {offset : Nat} {c : Char} {rest : List Char} {lexeme : Lexeme}
    (h : step offset c rest = .faulty lexeme) : lexemes offset (c :: rest) = [lexeme] := by
  rw [lexemes, scan, h]
  rfl

/-- Where a word may go on, a number or a word begins, or the fault of one. -/
theorem lexemes_word {text : List Char} (h : startsWord text) (offset : Nat) :
    ∃ lexeme ls, lexemes offset text = lexeme :: ls ∧ lexeme.isWord := by
  cases text with
  | nil => contradiction
  | cons c rest =>
    have hc : isWordChar c := h
    cases hstep : step offset c rest with
    | space =>
      exact absurd hc (not_isWordChar_of_isSpace (isSpace_of_step hstep))
    | token lexeme taken next =>
      obtain ⟨w, r, rfl, rfl, hspells⟩ := step_spells hstep
      exact ⟨lexeme, _, lexemes_token hstep, isWord_of_spells hspells rfl hc⟩
    | faulty lexeme => exact ⟨lexeme, [], lexemes_faulty hstep, (step_faulty hstep).2 hc⟩

/-- A text whose tokens are read falls into them. -/
theorem lexed_of_accepts {text : List Char} {offset : Nat} {expecting : Expecting}
    {stack : List Frame} {v : Value}
    (h : accepts expecting stack (lexemes offset text) = some v) :
    Lexed text (lexemes offset text) := by
  -- The rest behind a token is not the tail of the text, so the induction is on its length.
  induction hlength : text.length using Nat.strongRecOn
    generalizing text offset expecting stack with
  | ind n ih =>
    cases text with
    | nil => exact .nil
    | cons c rest =>
      cases hstep : step offset c rest with
      | space =>
        have hspace := isSpace_of_step hstep
        rw [lexemes_space hspace] at h ⊢
        exact .space hspace (ih rest.length (by rw [← hlength]; simp) h rfl)
      | token lexeme taken next =>
        obtain ⟨w, r, rfl, rfl, hspells⟩ := step_spells hstep
        have hshorter : r.length < n := by
          rw [← hlength, List.length_cons, List.length_append]
          omega
        rw [lexemes_token hstep] at h ⊢
        refine .token hspells (fun hword => ?_) ?_
        · cases hr : startsWord r with
          | false => rfl
          | true =>
            obtain ⟨second, ls, hls, hsecond⟩ := lexemes_word hr next
            rw [hls, ← List.nil_append (lexeme :: second :: ls), accepts_words hword hsecond] at h
            contradiction
        · rw [accepts] at h
          obtain ⟨_, _, haccepts⟩ := Option.bind_eq_some_iff.mp h
          exact ih r.length hshorter haccepts rfl
      | faulty lexeme =>
        rw [lexemes_faulty hstep, accepts, follow_faulty _ _ (step_faulty hstep).1] at h
        contradiction

end Token

/-- A text reads as a value exactly if it falls into tokens that do. -/
theorem parse_eq_ok_iff {text : List Char} {v : Value} :
    parse text = .ok v ↔ ∃ ls, Lexed text ls ∧ accepts .value [] ls = some v := by
  have hparse : parse text = .ok v ↔ accepts .value [] (Token.lexemes 0 text) = some v := by
    rw [← parse_toOption]
    cases parse text <;> simp [Except.toOption]
  rw [hparse]
  constructor
  · intro h
    exact ⟨_, Token.lexed_of_accepts h, h⟩
  · rintro ⟨ls, hlexed, haccepts⟩
    rwa [Token.lexemes_of_lexed hlexed]

/-! ## Texts one behind the other -/

theorem endsWord_append {a b : List Char} (hb : b ≠ []) : endsWord (a ++ b) = endsWord b := by
  rw [endsWord, endsWord, List.getLast?_append, Option.or_of_isSome]
  simpa using hb

theorem endsWord_behind {a b : List Char} (h : endsWord b) : endsWord (a ++ b) := by
  rw [endsWord_append]
  · exact h
  · rintro rfl
    contradiction

theorem startsWord_append {a b : List Char} (ha : a ≠ []) :
    startsWord (a ++ b) = startsWord a := by
  cases a with
  | nil => contradiction
  | cons c a => rfl

theorem not_startsWord_space (cs : List Char) : ¬ startsWord (' ' :: cs) := by
  change ¬ isWordChar ' '
  decide

theorem endsWord_of_forall {w : List Char} (hsome : w ≠ []) (hword : ∀ c ∈ w, isWordChar c) :
    endsWord w := by
  rw [endsWord, List.getLast?_eq_some_getLast hsome, Option.any_some]
  exact hword _ (List.getLast_mem hsome)

/-- A number or a word ends where it may go on. -/
theorem Spells.endsWord {w : List Char} {lexeme : Lexeme} (h : Spells w lexeme)
    (hword : lexeme.isWord) : endsWord w := by
  cases h.shape with
  | word hsome hchars => exact endsWord_of_forall hsome hchars
  | string _ => contradiction
  | mark _ _ hmark => rw [hmark] at hword; contradiction

/-- The characters of a token are the first of a text that ends outside strings, unless the token is
a word that goes on behind it. -/
theorem Spells.fits {w a x rest : List Char} {lexeme : Lexeme} (hspells : Spells w lexeme)
    (ha : Outside a) (hsome : a ≠ []) (hseam : ¬ (Json.endsWord a ∧ startsWord x))
    (htext : w ++ rest = a ++ x) : ∃ a', a = w ++ a' ∧ rest = a' ++ x ∧ Outside a' := by
  cases hspells.shape with
  | word _ hword =>
    have hquote : ∀ c ∈ w, c ≠ '"' := by
      rintro c hc rfl
      exact absurd (hword _ hc) (by decide)
    rcases List.append_eq_append_iff.mp htext with ⟨a', rfl, hrest⟩ | ⟨u, rfl, rfl⟩
    · exact ⟨a', rfl, hrest, ha.of_append hquote⟩
    · cases u with
      | nil => exact ⟨[], by simp, by simp, .nil⟩
      | cons d u =>
        -- The word goes on behind `a`.
        have hends : Json.endsWord a :=
          endsWord_of_forall hsome fun c hc => hword c (List.mem_append_left _ hc)
        have hstarts : isWordChar d := hword d (by simp)
        exact absurd ⟨hends, hstarts⟩ hseam
  | @string s _ hs =>
    cases a with
    | nil => contradiction
    | cons c a =>
      obtain ⟨rfl, htail⟩ := List.cons.inj htext
      obtain ⟨s', a', rfl, hs', ha'⟩ := ha.exists_string
      obtain ⟨rfl, rfl⟩ := hs.unique hs' (htail.trans (List.append_assoc s' a' x))
      exact ⟨a', rfl, rfl, ha'⟩
  | @mark c _ hquote _ _ =>
    cases a with
    | nil => contradiction
    | cons d a =>
      obtain ⟨rfl, rfl⟩ := List.cons.inj htext
      exact ⟨a, rfl, rfl, ha.of_cons hquote⟩

namespace Lexed

variable {a b x : List Char} {la lb ls : List Lexeme}

/-- Two texts one behind the other fall into the tokens of both, if no word goes on from one into
the other. -/
theorem append (ha : Lexed a la) (hb : Lexed b lb) (hseam : ¬ (endsWord a ∧ startsWord b)) :
    Lexed (a ++ b) (la ++ lb) := by
  induction ha with
  | nil => exact hb
  | @space c rest ls hspace _ ih =>
    exact .space hspace (ih fun h => hseam ⟨endsWord_behind (a := [c]) h.1, h.2⟩)
  | @token w rest lexeme ls hspells hnext _ ih =>
    have hrest := ih fun h => hseam ⟨endsWord_behind h.1, h.2⟩
    rw [List.append_assoc]
    refine .token hspells (fun hword => ?_) hrest
    cases rest with
    | nil =>
      cases hb : startsWord b with
      | false => exact hb
      | true =>
        rw [List.append_nil] at hseam
        exact absurd ⟨hspells.endsWord hword, hb⟩ hseam
    | cons c rest =>
      rw [startsWord_append (by simp)]
      exact hnext hword

/-- The tokens of a text with a part that ends outside strings are those of the part and those of
the rest, if no word goes on from one into the other. -/
theorem split (h : Lexed (a ++ x) ls) (ha : Outside a) (hseam : ¬ (endsWord a ∧ startsWord x)) :
    ∃ la lx, ls = la ++ lx ∧ Lexed a la ∧ Lexed x lx := by
  generalize htext : a ++ x = text at h
  induction h generalizing a with
  | nil =>
    obtain ⟨rfl, rfl⟩ := List.append_eq_nil_iff.mp htext
    exact ⟨[], [], rfl, .nil, .nil⟩
  | @space c rest ls hspace hrest ih =>
    cases a with
    | nil =>
      rw [List.nil_append] at htext
      exact ⟨[], ls, rfl, .nil, htext ▸ .space hspace hrest⟩
    | cons d a =>
      obtain ⟨rfl, htail⟩ := List.cons.inj htext
      have hquote : d ≠ '"' := by
        rintro rfl
        exact absurd hspace (by decide)
      obtain ⟨la, lx, rfl, hla, hlx⟩ := ih (ha.of_cons hquote)
        (fun h => hseam ⟨endsWord_behind (a := [d]) h.1, h.2⟩) htail
      exact ⟨la, lx, rfl, .space hspace hla, hlx⟩
  | @token w rest lexeme ls hspells hnext hrest ih =>
    by_cases hsome : a = []
    · subst hsome
      rw [List.nil_append] at htext
      exact ⟨[], lexeme :: ls, rfl, .nil, htext ▸ .token hspells hnext hrest⟩
    · obtain ⟨a', rfl, rfl, ha'⟩ := hspells.fits ha hsome hseam htext.symm
      obtain ⟨la, lx, rfl, hla, hlx⟩ := ih ha' (fun h => hseam ⟨endsWord_behind h.1, h.2⟩) rfl
      refine ⟨lexeme :: la, lx, rfl, .token hspells (fun hword => ?_) hla, hlx⟩
      cases a' with
      | nil => rfl
      | cons d a' => exact hnext hword

/-- Behind a space there are the tokens that are there without it. -/
theorem of_space (h : Lexed (' ' :: x) ls) : Lexed x ls := by
  obtain ⟨la, lx, rfl, hla, hlx⟩ :=
    h.split (a := [' ']) (.char (by decide) .nil) fun h => absurd h.1 (by decide)
  have hnone : la = [] := (Token.lexemes_of_lexed hla 0).symm
  rwa [hnone]

/-- A text that ends where a word may go on ends with a word. -/
theorem exists_last_word (h : Lexed a la) (hends : endsWord a) :
    ∃ before last, la = before ++ [last] ∧ last.isWord := by
  induction h with
  | nil => contradiction
  | @space c rest ls hspace hrest ih =>
    by_cases hsome : rest = []
    · subst hsome
      exact absurd hends (Token.not_isWordChar_of_isSpace hspace)
    · rw [← List.singleton_append, endsWord_append hsome] at hends
      exact ih hends
  | @token w rest lexeme ls hspells _ hrest ih =>
    by_cases hsome : rest = []
    · subst hsome
      have hnone : ls = [] := (Token.lexemes_of_lexed hrest 0).symm
      rw [List.append_nil] at hends
      refine ⟨[], lexeme, by rw [hnone]; rfl, ?_⟩
      cases hspells.shape with
      | word _ _ => rfl
      | string hs =>
        rw [endsWord, List.getLast?_cons, hs.getLast?] at hends
        exact absurd hends (by decide)
      | @mark c _ _ hword _ =>
        have hchar : isWordChar c := hends
        rw [hword] at hchar
        contradiction
    · rw [endsWord_append hsome] at hends
      obtain ⟨before, last, rfl, hlast⟩ := ih hends
      exact ⟨lexeme :: before, last, rfl, hlast⟩

/-- A text that starts where a word may go on starts with a word. -/
theorem exists_first_word (h : Lexed b lb) (hstarts : startsWord b) :
    ∃ first after, lb = first :: after ∧ first.isWord := by
  rw [← Token.lexemes_of_lexed h 0]
  exact Token.lexemes_word hstarts 0

end Lexed

/-- **A space between two parts of a text changes nothing, unless it parts a word.** The first part
ends outside strings. With a word on both sides of the space the text is not read at all. -/
theorem parse_space_iff {a b : List Char} (ha : Outside a) {v : Value} :
    parse (a ++ ' ' :: b) = .ok v ↔
      parse (a ++ b) = .ok v ∧ ¬ (endsWord a ∧ startsWord b) := by
  simp only [parse_eq_ok_iff]
  constructor
  · rintro ⟨ls, hlexed, haccepts⟩
    obtain ⟨la, lx, rfl, hla, hlx⟩ := hlexed.split ha fun h => not_startsWord_space b h.2
    have hlb := hlx.of_space
    have hseam : ¬ (endsWord a ∧ startsWord b) := by
      rintro ⟨hends, hstarts⟩
      obtain ⟨before, last, rfl, hlast⟩ := hla.exists_last_word hends
      obtain ⟨first, after, rfl, hfirst⟩ := hlb.exists_first_word hstarts
      rw [List.append_assoc, List.singleton_append, accepts_words hlast hfirst] at haccepts
      contradiction
    exact ⟨⟨la ++ lx, hla.append hlb hseam, haccepts⟩, hseam⟩
  · rintro ⟨⟨ls, hlexed, haccepts⟩, hseam⟩
    obtain ⟨la, lb, rfl, hla, hlb⟩ := hlexed.split ha hseam
    have hspace : Lexed (' ' :: b) lb := .space (by decide) hlb
    exact ⟨la ++ lb, hla.append hspace fun h => not_startsWord_space b h.2, haccepts⟩

end ScenePack.Json
