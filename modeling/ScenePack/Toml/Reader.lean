import ScenePack.Text.Parser
import ScenePack.Toml.Table

/-!
# Reading TOML

A document is a run of lines: blank ones, comments, headers, and keys with their values. Reading it
gives the tables that it describes, or nothing.

* `string`, `dottedKey`, `value`: the parts of a line.
* `Line`, `lines`: what the lines of a document say; `addLine` adds one to the tables.
* `parse?` reads a document.
-/

namespace ScenePack.Toml

open Text (Parser)
open Text.Parser

/-! ## Blanks and comments -/

def isBlank (c : Char) : Bool := c = ' ' || c = '\t'

/-- Any character that a comment may hold. -/
def isCommentChar (c : Char) : Bool := c = '\t' || (' ' ≤ c && c ≠ '\x7f')

def blanks : Parser Unit := do
  let _ ← span isBlank

def newline : Parser Unit := word "\n" <|> word "\r\n"

/-- A comment up to the end of its line. -/
def comment : Parser Unit := do
  word "#"
  let _ ← span isCommentChar

/-- What may stand behind a key's value or a header. -/
def lineEnd : Parser Unit := do
  blanks
  let _ ← option comment
  newline <|> done

/-- Blanks, newlines, and comments that end with a newline. -/
def gap : Parser Unit := do
  let _ ← many ((do let _ ← span1 isBlank) <|> newline <|> (do comment; newline))

/-! ## Strings -/

/-- A character that stands for itself between double quotes. -/
def isBasicChar (c : Char) : Bool := isCommentChar c && c ≠ '"' && c ≠ '\\'

/-- A character that stands for itself between single quotes. -/
def isLiteralChar (c : Char) : Bool := isCommentChar c && c ≠ '\''

/-- The character of a code in `count` hexadecimal digits. -/
def codePoint (count : Nat) : Parser Char := fun cs =>
  let code := cs.take count
  let n := Text.ofDigitsIn 16 code
  if code.length = count ∧ code.all (Text.isDigitOf 16) ∧ n.isValidChar then
    some (Char.ofNat n, cs.drop count)
  else none

/-- An escape behind its backslash. -/
def escape : Parser Char := do
  match ← satisfy fun _ => true with
  | 'b' => pure '\x08'
  | 't' => pure '\t'
  | 'n' => pure '\n'
  | 'f' => pure '\x0c'
  | 'r' => pure '\r'
  | '"' => pure '"'
  | '\\' => pure '\\'
  | 'u' => codePoint 4
  | 'U' => codePoint 8
  | _ => failure

/-- Characters, each read by one parser, as one string. -/
def stringOf (part : Parser (List Char)) : Parser String := do
  let parts ← many part
  return String.ofList parts.flatten

/-- A string of one line between double quotes. -/
def basicString : Parser String := do
  word "\""
  let s ← stringOf (span1 isBasicChar <|> do word "\\"; return [← escape])
  word "\""
  return s

/-- A string of one line between single quotes, without escapes. -/
def literalString : Parser String := do
  word "'"
  let cs ← span isLiteralChar
  word "'"
  return String.ofList cs

/-- One or two quotes that do not end a string of many lines: more text follows, or the three that
do. -/
def innerQuotes (quote : Char) : Parser (List Char) := fun cs =>
  let quotes := (cs.takeWhile (· = quote)).length
  if quotes = 1 ∨ quotes = 2 then some (cs.take quotes, cs.drop quotes)
  else if quotes = 4 ∨ quotes = 5 then some (cs.take (quotes - 3), cs.drop (quotes - 3))
  else none

/-- A backslash at the end of a line, which leaves out all blanks up to the next text. -/
def lineJoin : Parser (List Char) := do
  word "\\"
  blanks
  newline
  let _ ← many ((do let _ ← span1 isBlank) <|> newline)
  return []

/-- A string of many lines between three quotes, of parts read by one parser. A newline right
behind the opening quotes is left out. -/
def manyLines (quote : Char) (part : Parser (List Char)) : Parser String := do
  chars [quote, quote, quote]
  let _ ← option newline
  let s ← stringOf (part <|> (do newline; return ['\n']) <|> innerQuotes quote)
  chars [quote, quote, quote]
  return s

/-- A string in any of its four forms. -/
def string : Parser String :=
  manyLines '"' (span1 isBasicChar <|> lineJoin <|> do word "\\"; return [← escape])
    <|> manyLines '\'' (span1 isLiteralChar)
    <|> basicString
    <|> literalString

/-! ## Keys -/

def isKeyChar (c : Char) : Bool := c.isAlphanum || c = '_' || c = '-'

/-- A bare or a quoted key. -/
def simpleKey : Parser String :=
  (String.ofList <$> span1 isKeyChar) <|> basicString <|> literalString

/-- As many keys may be joined by points, and as many brackets may be open at once. -/
def maxDepth : Nat := 79

/-- Keys joined by points: the last of them, and those on the way to it. -/
def dottedKey : Parser (List String × String) := do
  let keys ← separated1 (do blanks; let key ← simpleKey; blanks; return key) (word ".")
  match keys.reverse with
  | last :: before => if keys.length ≤ maxDepth then return (before.reverse, last) else failure
  | [] => failure

/-! ## Values -/

/-- A character of a word, which is a value without brackets or quotes. -/
def isWordChar (c : Char) : Bool := isKeyChar c || c = '+' || c = '.' || c = ':'

/-- A word. A time may stand one space behind a date. -/
def wordValue : Parser Value := do
  let cs ← span1 isWordChar
  let time ← option do
    word " "
    span1 isWordChar
  match time with
  | none => match Value.ofWord? cs with
    | some v => return v
    | none => failure
  | some time => if isDate cs && isTimeWithOffset time then return .moment else failure

/-- Add the entries of a table in braces one after another. -/
def inlineTable (pairs : List ((List String × String) × Value)) : Option Value :=
  (pairs.foldlM (fun entries ((path, key), v) => Entries.assign v key path true entries) []).map
    (.table .inline ·)

/-- A value with at most `depth` brackets open at once. -/
def value : (depth : Nat) → Parser Value
  | 0 => (.string <$> string) <|> wordValue
  | depth + 1 =>
    (.string <$> string)
    <|> (do
      word "["
      let items ← option (separated1 (do gap; let v ← value depth; gap; return v) (word ","))
      match items with
      | none => gap
      | some _ => do
        let _ ← option (word ",")
        gap
      word "]"
      return .array (items.getD []))
    <|> (do
      word "\x7b"
      let pairs ← option (separated1
        (do
          let key ← dottedKey
          word "="
          blanks
          let v ← value depth
          blanks
          return (key, v))
        (word ","))
      blanks
      word "\x7d"
      match inlineTable (pairs.getD []) with
      | some v => return v
      | none => failure)
    <|> wordValue

/-! ## Documents -/

/-- A line that says something. -/
inductive Line where
  /-- A header, which may be a repeated one, with the keys on the way to its own. -/
  | header (repeated : Bool) (path : List String) (key : String)
  | entry (path : List String) (key : String) (v : Value)

/-- A line that says something, with its end. -/
def line : Parser Line := do
  blanks
  let l ←
    (do
      word "[["
      let (path, key) ← dottedKey
      word "]]"
      return Line.header true path key)
    <|> (do
      word "["
      let (path, key) ← dottedKey
      word "]"
      return Line.header false path key)
    <|> (do
      let (path, key) ← dottedKey
      word "="
      blanks
      let v ← value maxDepth
      return Line.entry path key v)
  lineEnd
  return l

/-- A line that says nothing. -/
def emptyLine : Parser Unit := do
  blanks
  (do comment; newline <|> done) <|> newline

/-- The lines of a document that say something. -/
def lines : Parser (List Line) := do
  let _ ← option (word "\ufeff")
  let ls ← many ((some <$> line) <|> (do emptyLine; return none))
  blanks
  let _ ← option comment
  done
  return ls.filterMap id

/-- Add a line to a document, which comes with the path of its latest header. -/
def addLine : List String × Entries → Line → Option (List String × Entries)
  | (_, root), .header repeated path key => do
    let opened := if repeated then Entries.openRepeated key else Entries.openTable key
    return (path ++ [key], ← root.modifyAt opened path)
  | (latest, root), .entry path key v => do
    return (latest, ← root.modifyAt (Entries.assign v key path true) latest)

/-- The root table of a document (`toml::from_str`). -/
def parse? (text : List Char) : Option Entries := do
  let ls ← Parser.run lines text
  let (_, root) ← ls.foldlM addLine ([], [])
  return root

end ScenePack.Toml
