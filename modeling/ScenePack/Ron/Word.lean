import ScenePack.Binary.Single
import ScenePack.Text.Natural
import ScenePack.Text.Parser

/-!
# The words of RON

Blanks and comments, names, numbers, truth values, texts and characters.

* `gap`: blanks and comments, which may stand between any two words.
* `name`: a plain name, or a raw one, which may be any word.
* `natural64`, `single`, `bool`: the values that settings take.
* `skipNumber`, `skipString`, `skipChar` pass over the values of other fields.
-/

namespace ScenePack.Ron

open Text (Parser)
open Text.Parser

/-! ## Blanks and comments -/

def isBlank (c : Char) : Bool := c = ' ' || c = '\t' || c = '\n' || c = '\r'

/-- What is behind a block comment with `level + 1` openings to be closed. -/
def blockEnd : (level : Nat) → List Char → Option (List Char)
  | 0, '*' :: '/' :: rest => some rest
  | level + 1, '*' :: '/' :: rest => blockEnd level rest
  | level, '/' :: '*' :: rest => blockEnd (level + 1) rest
  | level, _ :: rest => blockEnd level rest
  | _, [] => none

/-- A comment to the end of the line, or one in brackets, which may hold others. -/
def comment : Parser Unit :=
  (do word "//"; let _ ← span (· ≠ '\n'))
    <|> (do word "/*"; fun cs => (blockEnd 0 cs).map ((), ·))

/-- Blanks and comments. A slash that begins no comment ends the document. -/
def gap : Parser Unit := do
  let _ ← many ((do let _ ← span1 isBlank) <|> comment)

/-! ## Names -/

def isNameStart (c : Char) : Bool := c.isAlpha || c = '_'

def isNameChar (c : Char) : Bool := c.isAlphanum || c = '_'

/-- A character that only a raw name may hold as well. -/
def isRawChar (c : Char) : Bool := isNameChar c || c = '.' || c = '+' || c = '-'

/-- A raw name, behind its mark. -/
def rawName : Parser String := do
  word "r#"
  let cs ← span1 isRawChar
  return String.ofList cs

/-- A plain name. The mark of a raw string begins none. -/
def plainName : Parser String := do
  if !(← ahead isNameStart) then failure
  let cs ← span1 isRawChar
  if cs = ['r'] ∧ (← ahead fun c => c = '"' || c = '#') then failure
  if cs.all isNameChar then return String.ofList cs else failure

/-- A name. -/
def name : Parser String := rawName <|> plainName

/-- A word that is not just the front of a longer name. -/
def keyword (s : String) : Parser Unit := do
  word s
  if ← ahead isNameChar then failure

/-! ## Numbers -/

/-- Digits of a base, between which underscores may stand. -/
def digitsOf (base : Nat) : Parser Nat := do
  let cs ← span1 fun c => Text.isDigitOf 16 c || c = '_'
  let digits := cs.filter (· ≠ '_')
  if cs.head? = some '_' ∨ !digits.all (Text.isDigitOf base) then failure
  return Text.ofDigitsIn base digits

/-- A natural number, decimal or in base 16, 8 or 2 behind its mark. -/
def natural : Parser Nat :=
  (do word "0x"; digitsOf 16) <|> (do word "0o"; digitsOf 8) <|> (do word "0b"; digitsOf 2)
    <|> digitsOf 10

/-- A natural number of 64 bits. -/
def natural64 : Parser UInt64 := do
  let n ← natural
  if n < UInt64.size then return UInt64.ofNat n else failure

/-- A decimal in its parts. -/
structure DecimalText where
  negative : Bool
  coefficient : Nat
  exponent : Int

/-- The single nearest to a decimal. -/
def DecimalText.toSingle (d : DecimalText) : Single :=
  Single.ofDecimal d.negative d.coefficient d.exponent

/-- A sign, if there is one; whether it is a minus. -/
def sign : Parser Bool := (do word "-"; return true) <|> (do word "+"; return false) <|> pure false

/-- A decimal. Digits may be missing on one side of its point. -/
def decimal : Parser DecimalText := do
  let negative ← sign
  let whole ← span Char.isDigit
  let fraction ← option do
    word "."
    span Char.isDigit
  let digits := whole ++ fraction.getD []
  if digits.isEmpty then failure
  let exponent ← option do
    let _ ← char 'e' <|> char 'E'
    let below ← sign
    let cs ← span1 Char.isDigit
    return if below then -(Text.ofDigits cs : Int) else Text.ofDigits cs
  if ← ahead isRawChar then failure
  return ⟨negative, Text.ofDigits digits, exponent.getD 0 - (fraction.getD []).length⟩

/-- A single: a decimal or one of the special values. -/
def single : Parser Single :=
  (do
      keyword "inf" <|> keyword "+inf"
      return Single.ofNumber ⟨false, BinaryFormat.single.infinity⟩)
    <|> (do
      keyword "-inf"
      return Single.ofNumber ⟨true, BinaryFormat.single.infinity⟩)
    <|> (do
      keyword "NaN" <|> keyword "+NaN" <|> keyword "-NaN"
      return Single.ofNumber BinaryFormat.single.nan)
    <|> DecimalText.toSingle <$> decimal

/-- A truth value. -/
def bool : Parser Bool :=
  (do keyword "true"; return true) <|> (do keyword "false"; return false)

/-- An integer of 64 bits: a natural number, or one behind a sign, up to half their range. -/
def skipInteger : Parser Unit :=
  (do let _ ← natural64)
    <|> (do word "-"; let n ← natural; if n > 0x8000000000000000 then failure)
    <|> (do word "+"; let n ← natural; if n ≥ 0x8000000000000000 then failure)

/-- A number: a decimal of any size, a special value or an integer. -/
def skipNumber : Parser Unit := (do let _ ← single) <|> skipInteger

/-! ## Texts -/

/-- A character of a code in braces, of at most six hexadecimal digits. -/
def codePoint : Parser Char := do
  word "\x7b"
  let cs ← span1 (Text.isDigitOf 16)
  word "\x7d"
  let n := Text.ofDigitsIn 16 cs
  if cs.length ≤ 6 ∧ n.isValidChar then return Char.ofNat n else failure

/-- An escape behind its backslash. -/
def escape : Parser Char := do
  match ← satisfy fun _ => true with
  | '\'' => return '\''
  | '"' => return '"'
  | '\\' => return '\\'
  | 'n' => return '\n'
  | 'r' => return '\r'
  | 't' => return '\t'
  | '0' => return '\x00'
  | 'x' => do
    let a ← satisfy (Text.isDigitOf 16)
    let b ← satisfy (Text.isDigitOf 16)
    return Char.ofNat (Text.ofDigitsIn 16 [a, b])
  | 'u' => codePoint
  | _ => failure

/-- What is behind the quote that ends a raw string, with as many marks as began it. -/
def rawEnd (marks : List Char) : List Char → Option (List Char)
  | [] => none
  | c :: rest =>
    if c = '"' ∧ marks.isPrefixOf rest then some (rest.drop marks.length) else rawEnd marks rest

/-- A string, which may be a raw one. -/
def skipString : Parser Unit :=
  (do
    word "\""
    let _ ← many ((do let _ ← span1 fun c => c ≠ '"' && c ≠ '\\')
      <|> (do word "\\"; let _ ← escape))
    word "\"")
    <|> (do
      word "r"
      let marks ← span (· = '#')
      word "\""
      fun cs => (rawEnd marks cs).map ((), ·))

/-- A character between single quotes. -/
def skipChar : Parser Unit := do
  word "'"
  (do word "\\"; let _ ← escape) <|> (do let _ ← satisfy fun c => c ≠ '\'' && c ≠ '\\')
  word "'"

end ScenePack.Ron
