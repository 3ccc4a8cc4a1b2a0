import ScenePack.Ron.Word

/-!
# Values in RON

Any value at all, to pass over what is not asked for. A document may enable extensions; one of
them lets a value stand behind `Some` without brackets. How deep values may nest is bounded, and
the bound counts steps: one into the value of `Some`, one into brackets, and one more from there to
what stands in them.

* `Extension`: what a document may enable.
* `skipValue`, `skipItem` pass over a value, and over one that stands in brackets.
-/

namespace ScenePack.Ron

open Text (Parser)
open Text.Parser

/-! ## Extensions -/

/-- The extensions that a document may enable. -/
inductive Extension where
  | unwrapNewtypes
  | implicitSome
  | unwrapVariantNewtypes
  deriving DecidableEq, Repr

namespace Extension

/-- All extensions. -/
def all : List Extension := [unwrapNewtypes, implicitSome, unwrapVariantNewtypes]

/-- The name by which a document enables an extension. -/
def key : Extension → String
  | unwrapNewtypes => "unwrap_newtypes"
  | implicitSome => "implicit_some"
  | unwrapVariantNewtypes => "unwrap_variant_newtypes"

/-- The extension of a name. -/
def ofKey? (key : String) : Option Extension := all.find? fun e => e.key = key

end Extension

/-! ## Values without parts -/

/-- The words that are no names of structures, unless they are raw. -/
def reservedWords : List String := ["true", "false", "None", "Some", "inf", "NaN"]

/-- The name of a structure. -/
def structureName : Parser String :=
  rawName <|> (do
    let s ← plainName
    if reservedWords.contains s then failure
    return s)

/-- A value without parts. -/
def skipPlain : Parser Unit :=
  skipString <|> skipChar <|> skipNumber <|> (do let _ ← bool) <|> keyword "None" <|> word "()"
    <|> (do let _ ← structureName)

/-! ## Values with parts -/

/-- Items with commas between them, up to a closing bracket. A comma may stand behind the last. -/
def skipItems (item : Parser Unit) (close : Char) : Parser Unit := do
  gap
  let _ ← option do
    let _ ← separated1 (do gap; item; gap) (word ",")
    option (word ",")
  gap
  let _ ← char close

/-- Two parts with a colon between them. -/
def skipPair (key value : Parser Unit) : Parser Unit := do
  key
  gap
  word ":"
  gap
  value

/-- Named fields or plain items in parentheses. -/
def skipParens (item : Parser Unit) : Parser Unit := do
  word "("
  skipItems (skipPair (do let _ ← name) item) ')' <|> skipItems item ')'

/-- A value behind `Some`: in parentheses, or with none where that is enabled. -/
def skipSome (enabled : List Extension) (value : Parser Unit) : Parser Unit := do
  keyword "Some"
  gap
  if ← ahead (· = '(') then
    word "("
    gap
    value
    gap
    let _ ← option (word ",")
    gap
    word ")"
  else if enabled.contains .implicitSome then value
  else failure

mutual

/-- Any value, with at most `depth` steps into its parts. -/
def skipValue (enabled : List Extension) : (depth : Nat) → Parser Unit
  | 0 => skipPlain
  | depth + 1 =>
    let item := skipItem enabled depth
    skipSome enabled (skipValue enabled depth)
      <|> (do word "["; skipItems item ']')
      <|> (do word "\x7b"; skipItems (skipPair item item) '\x7d')
      <|> skipParens item
      <|> (do
        let _ ← structureName
        gap
        skipParens item)
      <|> skipPlain

/-- A value that stands in brackets: it takes one of the steps to get there. -/
def skipItem (enabled : List Extension) : (depth : Nat) → Parser Unit
  | 0 => failure
  | depth + 1 => skipValue enabled depth

end

end ScenePack.Ron
