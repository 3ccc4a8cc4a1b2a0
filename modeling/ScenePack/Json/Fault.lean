/-!
# Faults of JSON text

Why a text is no JSON, and where. A fault is placed by how many bytes of the text lie before the
place it names; `position` turns that into a line and a column.
-/

namespace ScenePack.Json

/-- Why a text is no JSON. -/
inductive FaultKind where
  | endInValue
  | endInObject
  | endInList
  | endInString
  | valueExpected
  | wordExpected
  | colonExpected
  | objectEndExpected
  | listEndExpected
  | keyNotString
  | trailingComma
  | trailingText
  | controlCharacter
  | badEscape
  | unpairedSurrogate
  | surrogateCutShort
  | badNumber
  | numberTooLarge
  | tooDeep
  deriving DecidableEq, Repr

/-- A fault and the number of bytes before its place. -/
structure Fault where
  kind : FaultKind
  offset : Nat
  deriving DecidableEq, Repr

/-- A place in a text: the line, from one on, and how many bytes of it lie before the place. -/
structure Position where
  line : Nat
  column : Nat
  deriving DecidableEq, Repr

namespace Position

/-- The place before a text. -/
def start : Position := ⟨1, 0⟩

/-- The place `offset` bytes on. A character counts as many columns as it has bytes, and a place
inside a character is on the character's line. -/
def advance (p : Position) : Nat → List Char → Position
  | _, [] => p
  | 0, _ => p
  | offset, c :: rest =>
    if offset < c.utf8Size then { p with column := p.column + offset }
    else
      advance (if c = '\n' then ⟨p.line + 1, 0⟩ else { p with column := p.column + c.utf8Size })
        (offset - c.utf8Size) rest

/-- The place `offset` bytes into a text. -/
def ofOffset (text : List Char) (offset : Nat) : Position := start.advance offset text

end Position

namespace FaultKind

/-- What is wrong, in words. -/
def message : FaultKind → String
  | endInValue => "EOF while parsing a value"
  | endInObject => "EOF while parsing an object"
  | endInList => "EOF while parsing a list"
  | endInString => "EOF while parsing a string"
  | valueExpected => "expected value"
  | wordExpected => "expected ident"
  | colonExpected => "expected \x60:\x60"
  | objectEndExpected => "expected \x60,\x60 or \x60\x7d\x60"
  | listEndExpected => "expected \x60,\x60 or \x60]\x60"
  | keyNotString => "key must be a string"
  | trailingComma => "trailing comma"
  | trailingText => "trailing characters"
  | controlCharacter => "control character (\\u0000-\\u001F) found while parsing a string"
  | badEscape => "invalid escape"
  | unpairedSurrogate => "lone leading surrogate in hex escape"
  | surrogateCutShort => "unexpected end of hex escape"
  | badNumber => "invalid number"
  | numberTooLarge => "number out of range"
  | tooDeep => "recursion limit exceeded"

end FaultKind

end ScenePack.Json
