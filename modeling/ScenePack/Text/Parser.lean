/-!
# Parsers

A parser takes characters off the front of a text, or does not apply. Of two alternatives the second
is tried, on the same text, where the first does not apply. A repetition ends where its part does
not apply or takes nothing.
-/

namespace ScenePack.Text

/-- A parser of values: the value and the rest of the text. -/
abbrev Parser (α : Type) := StateT (List Char) Option α

namespace Parser

variable {α β : Type}

/-- The text ends here. -/
def done : Parser Unit
  | [] => some ((), [])
  | _ :: _ => none

/-- One character of some kind. -/
def satisfy (p : Char → Bool) : Parser Char
  | [] => none
  | c :: rest => if p c then some (c, rest) else none

/-- The given character. -/
def char (c : Char) : Parser Char := satisfy (· = c)

/-- The given characters. -/
def chars : List Char → Parser Unit
  | [] => pure ()
  | c :: cs => do
    let _ ← char c
    chars cs

/-- The given text. -/
def word (s : String) : Parser Unit := chars s.toList

/-- As many characters of some kind as there are. -/
def span (p : Char → Bool) : Parser (List Char) :=
  fun cs => some (cs.takeWhile p, cs.dropWhile p)

/-- As many characters of some kind as there are, at least one. -/
def span1 (p : Char → Bool) : Parser (List Char) := do
  let cs ← span p
  if cs.isEmpty then failure else pure cs

/-- Whether the text goes on with a character of some kind; nothing is taken. -/
def ahead (p : Char → Bool) : Parser Bool := fun cs => some (cs.head?.any p, cs)

/-- The parser's value, or nothing where it does not apply. -/
def option (p : Parser α) : Parser (Option α) := (some <$> p) <|> pure none

/-- What a parser takes again and again. -/
def manyFrom (p : Parser α) (cs : List Char) : List α × List Char :=
  match p cs with
  | none => ([], cs)
  | some (a, rest) =>
    if rest.length < cs.length then
      let (as, last) := manyFrom p rest
      (a :: as, last)
    else ([], cs)
termination_by cs.length

/-- What a parser takes again and again, as long as it takes something. -/
def many (p : Parser α) : Parser (List α) := fun cs => some (manyFrom p cs)

/-- Items with a separator between them, at least one. -/
def separated1 (item : Parser α) (separator : Parser β) : Parser (List α) := do
  let first ← item
  let others ← many do
    let _ ← separator
    item
  return first :: others

/-- Read a whole text. -/
def run (p : Parser α) (cs : List Char) : Option α :=
  match p cs with
  | some (a, []) => some a
  | _ => none

end Parser

end ScenePack.Text
