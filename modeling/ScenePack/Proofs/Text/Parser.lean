import Mathlib.Data.List.TakeWhile
import ScenePack.Text.Parser

/-!
# What parsers take

`p.Reads text a rest` says that `p`, before `text ++ rest`, takes exactly `text` and gives `a`. What
follows is part of the statement, since a parser of "as many as there are" looks at it. `Stops p
rest` says that a text does not go on with a character of some kind, and `p.Fails text` that `p` does
not apply.

There is one rule for each way of putting parsers together:
* `Reads.bind`, `Reads.map`, `Reads.orElse`, `Reads.orElse_of_fails`, `Reads.option`;
* `Reads.word`, `Reads.span`, `Reads.span1`;
* `Reads.many_cons`, `Reads.many_nil`, `Reads.separated1`;
* `Fails.bind`, `Fails.orElse`, `Fails.span1`, `Fails.word`.
-/

namespace ScenePack.Text

/-- The text does not go on with a character of some kind. -/
def Stops (p : Char → Bool) (rest : List Char) : Prop := ∀ c ∈ rest.head?, p c = false

namespace Stops

variable {p q : Char → Bool} {c : Char} {rest : List Char}

@[simp]
theorem nil : Stops p [] := by simp [Stops]

@[simp]
theorem cons_iff : Stops p (c :: rest) ↔ p c = false := by simp [Stops]

theorem mono (h : Stops q rest) (hpq : ∀ c, p c = true → q c = true) : Stops p rest := by
  intro c hc
  by_contra hp
  exact absurd (hpq c (by simpa using hp)) (by simp [h c hc])

end Stops

namespace Parser

variable {α β : Type} {p q : Parser α} {f : α → Parser β} {g : α → β} {a : α} {b : β}
  {text more rest : List Char} {kind : Char → Bool}

/-- Before `text ++ rest` the parser takes `text` and gives `a`. -/
def Reads (p : Parser α) (text : List Char) (a : α) (rest : List Char) : Prop :=
  p (text ++ rest) = some (a, rest)

/-- The parser does not apply. -/
def Fails (p : Parser α) (text : List Char) : Prop := p text = none

/-! ## One parser behind another -/

theorem bind_apply (p : Parser α) (f : α → Parser β) (cs : List Char) :
    (p >>= f) cs = (p cs).bind fun x => f x.1 x.2 := rfl

theorem map_apply (g : α → β) (p : Parser α) (cs : List Char) :
    (g <$> p) cs = (p cs).map fun x => (g x.1, x.2) := by
  show (p >>= fun a => pure (g a)) cs = _
  rw [bind_apply]
  cases p cs <;> rfl

theorem orElse_apply (p q : Parser α) (cs : List Char) : (p <|> q) cs = (p cs <|> q cs) := rfl

theorem Reads.pure (a : α) (rest : List Char) : Reads (Pure.pure a) [] a rest := rfl

theorem Reads.bind (hp : p.Reads text a (more ++ rest)) (hf : (f a).Reads more b rest) :
    (p >>= f).Reads (text ++ more) b rest := by
  unfold Reads at *
  rw [bind_apply, List.append_assoc, hp]
  exact hf

/-- A parser that takes nothing, with another behind it. -/
theorem Reads.nil_bind (hp : p.Reads [] a (text ++ rest)) (hf : (f a).Reads text b rest) :
    (p >>= f).Reads text b rest := by
  have h := hp.bind hf
  rwa [List.nil_append] at h

/-- A parser behind which nothing is taken. -/
theorem Reads.bind_nil (hp : p.Reads text a rest) (hf : (f a).Reads [] b rest) :
    (p >>= f).Reads text b rest := by
  have h : (p >>= f).Reads (text ++ []) b rest := hp.bind hf
  rwa [List.append_nil] at h

theorem Reads.map (hp : p.Reads text a rest) : (g <$> p).Reads text (g a) rest := by
  unfold Reads at *
  rw [map_apply, hp]
  rfl

theorem Reads.run (hp : p.Reads text a []) : p.run text = some a := by
  unfold Reads at hp
  rw [List.append_nil] at hp
  rw [Parser.run, hp]

theorem Reads.done : Reads Parser.done [] () [] := rfl

theorem Fails.bind (hp : p.Fails text) : (p >>= f).Fails text := by
  unfold Fails at *
  rw [bind_apply, hp]
  rfl

/-- What stands behind a parser does not apply. -/
theorem Reads.bind_fails (text : List Char) (hp : p.Reads text a rest) (hf : (f a).Fails rest) :
    (p >>= f).Fails (text ++ rest) := by
  unfold Reads Fails at *
  rw [bind_apply, hp]
  exact hf

theorem Fails.map (hp : p.Fails text) : (g <$> p).Fails text := by
  unfold Fails at *
  rw [map_apply, hp]
  rfl

theorem fails_failure (text : List Char) : Fails (failure : Parser α) text := rfl

theorem Reads.ite_pos {c : Prop} [Decidable c] (hc : c) (hp : p.Reads text a rest) :
    Reads (if c then p else q) text a rest := by
  rwa [if_pos hc]

theorem Reads.ite_neg {c : Prop} [Decidable c] (hc : ¬ c) (hq : q.Reads text a rest) :
    Reads (if c then p else q) text a rest := by
  rwa [if_neg hc]

/-! ## Alternatives -/

theorem Reads.orElse (hp : p.Reads text a rest) : (p <|> q).Reads text a rest := by
  unfold Reads at *
  rw [orElse_apply, hp]
  rfl

theorem Reads.orElse_of_fails (hp : p.Fails (text ++ rest)) (hq : q.Reads text a rest) :
    (p <|> q).Reads text a rest := by
  unfold Reads Fails at *
  rw [orElse_apply, hp]
  exact hq

theorem Fails.orElse (hp : p.Fails text) (hq : q.Fails text) : (p <|> q).Fails text := by
  unfold Fails at *
  rw [orElse_apply, hp]
  exact hq

theorem Reads.option (hp : p.Reads text a rest) : (option p).Reads text (some a) rest :=
  (Reads.map hp).orElse

theorem Fails.option (hp : p.Fails rest) : (option p).Reads [] none rest :=
  Reads.orElse_of_fails hp.map (Reads.pure none rest)

/-! ## Characters -/

theorem Reads.char (c : Char) (rest : List Char) : Reads (Parser.char c) [c] c rest :=
  if_pos (decide_eq_true rfl)

theorem Fails.char {c : Char} (h : Stops (· = c) text) : Fails (Parser.char c) text := by
  cases text with
  | nil => rfl
  | cons d text => exact if_neg (by simpa using Stops.cons_iff.mp h)

theorem Reads.chars (cs rest : List Char) : Reads (Parser.chars cs) cs () rest := by
  induction cs with
  | nil => rfl
  | cons c cs ih => exact (Reads.char c (cs ++ rest)).bind ih

theorem Reads.word {s : String} (h : s.toList = text) (rest : List Char) :
    Reads (Parser.word s) text () rest := by
  unfold Parser.word
  rw [h]
  exact Reads.chars text rest

/-- A word's first character is enough to see that the text goes on otherwise. -/
theorem Fails.chars {c : Char} {cs : List Char} (h : Stops (· = c) text) :
    Fails (Parser.chars (c :: cs)) text :=
  (Fails.char h).bind

/-- A word does not apply where the text does not begin with it. -/
theorem Fails.chars_of_not_prefix {cs : List Char} (h : ¬ cs <+: text) :
    Fails (Parser.chars cs) text := by
  induction cs generalizing text with
  | nil => exact absurd List.nil_prefix h
  | cons c cs ih =>
    by_cases hstops : Stops (· = c) text
    · exact Fails.chars hstops
    · obtain ⟨d, more, rfl⟩ : ∃ d more, text = d :: more := by
        refine List.exists_cons_of_ne_nil ?_
        rintro rfl
        exact hstops Stops.nil
      obtain rfl : d = c := by simpa using hstops
      have hmore : ¬ cs <+: more := by simpa using h
      exact (Reads.char d more).bind_fails [d] (ih hmore)

theorem Fails.word_of_not_prefix {s : String} (h : ¬ s.toList <+: text) :
    Fails (Parser.word s) text :=
  Fails.chars_of_not_prefix h

theorem Fails.word {s : String} (c : Char) (hs : s.toList.head? = some c)
    (h : Stops (· = c) text) : Fails (Parser.word s) text := by
  obtain ⟨cs, hcs⟩ := List.head?_eq_some_iff.mp hs
  unfold Parser.word
  rw [hcs]
  exact Fails.chars h

theorem Reads.span (h : ∀ c ∈ text, kind c = true) (hrest : Stops kind rest) :
    Reads (Parser.span kind) text text rest := by
  have htake : (text ++ rest).takeWhile kind = text := by
    rw [List.takeWhile_append_of_pos h]
    cases rest with
    | nil => simp
    | cons c rest => simp [Stops.cons_iff.mp hrest]
  have hdrop : (text ++ rest).dropWhile kind = rest := by
    rw [List.dropWhile_append_of_pos h]
    cases rest with
    | nil => simp
    | cons c rest => simp [Stops.cons_iff.mp hrest]
  unfold Reads Parser.span
  rw [htake, hdrop]

theorem Reads.span1 (h : ∀ c ∈ text, kind c = true) (hne : text ≠ []) (hrest : Stops kind rest) :
    Reads (Parser.span1 kind) text text rest := by
  refine (Reads.span h hrest).bind_nil ?_
  rw [if_neg (by simpa using hne)]
  exact Reads.pure text rest

theorem Fails.span1 (h : Stops kind text) : Fails (Parser.span1 kind) text := by
  refine Reads.bind_fails [] (Reads.span (by simp) h) ?_
  exact fails_failure text

/-- Nothing is taken to see how the text goes on. -/
theorem Reads.ahead (kind : Char → Bool) (rest : List Char) :
    Reads (Parser.ahead kind) [] (rest.head?.any kind) rest := rfl

theorem Reads.ahead_of_stops (h : Stops kind rest) : Reads (Parser.ahead kind) [] false rest := by
  unfold Reads Parser.ahead
  cases rest with
  | nil => rfl
  | cons c rest => simp [Stops.cons_iff.mp h]

/-! ## Repetitions -/

theorem Reads.many_nil (hp : p.Fails rest) : (many p).Reads [] [] rest := by
  unfold Reads many
  rw [List.nil_append, manyFrom.eq_def, hp]

theorem Reads.many_cons {as : List α} (hp : p.Reads text a (more ++ rest)) (hne : text ≠ [])
    (hmany : (many p).Reads more as rest) : (many p).Reads (text ++ more) (a :: as) rest := by
  unfold Reads many at *
  obtain ⟨c, text, rfl⟩ := List.exists_cons_of_ne_nil hne
  have hmore : manyFrom p (more ++ rest) = (as, rest) := Option.some.inj hmany
  rw [List.append_assoc, manyFrom.eq_def, hp]
  simp only [hmore, List.length_append, List.length_cons]
  rw [if_pos (by omega)]

theorem Reads.separated1 {separator : Parser β} {as : List α}
    (hp : p.Reads text a (more ++ rest))
    (hmany : (many do let _ ← separator; p).Reads more as rest) :
    (separated1 p separator).Reads (text ++ more) (a :: as) rest :=
  hp.bind (hmany.bind_nil (Reads.pure _ rest))

theorem Fails.separated1 {separator : Parser β} (hp : p.Fails text) :
    (separated1 p separator).Fails text := hp.bind

end Parser

end ScenePack.Text
