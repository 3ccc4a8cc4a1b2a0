import ScenePack.Json.Literal

/-!
# Tokens of JSON text

`Token.scan` cuts a text into tokens, each with the number of bytes before it. A literal that is
begun but not well formed is a token too, which holds its fault; nothing is scanned behind it. So
it is left to the reader of tokens whether the literal, or its being there at all, is the fault.

* `Lexeme`, `Token`: what is read, and where it begins.
* `Token.step` looks at one place of the text; `Token.scan` goes through all of it.
-/

namespace ScenePack.Json

/-- What a token is. -/
inductive Lexeme where
  | openObject
  | closeObject
  | openList
  | closeList
  | colon
  | comma
  | string (s : Except Fault String)
  | plain (v : Except Fault Value)
  /-- A character that begins no token. -/
  | stray

/-- A token and the number of bytes before it. -/
structure Token where
  lexeme : Lexeme
  offset : Nat

/-- JSON knows four blank characters. -/
def isSpace (c : Char) : Bool := c = ' ' || c = '\n' || c = '\t' || c = '\r'

namespace Token

/-- What stands at some place of a text. -/
inductive Step where
  | space
  /-- A token, how many more characters it takes and the offset behind it. -/
  | token (lexeme : Lexeme) (taken next : Nat)
  | faulty (lexeme : Lexeme)

/-- A word of JSON, behind its first letter. -/
def wordStep (offset : Nat) (letters : List Char) (v : Value) (rest : List Char) : Step :=
  match readWord (offset + 1) letters rest with
  | .ok next => .token (.plain (.ok v)) letters.length next
  | .error fault => .faulty (.plain (.error fault))

/-- A string, behind its quote. -/
def stringStep (offset : Nat) (rest : List Char) : Step :=
  match readString [] 0 (offset + 1) rest with
  | .ok s => .token (.string (.ok s.value)) s.taken s.next
  | .error fault => .faulty (.string (.error fault))

/-- What reading a number comes to. -/
def numberStep (read : Except Fault (Extent Number)) : Step :=
  match read with
  | .ok n => .token (.plain (.ok (.number n.value))) (n.taken - 1) n.next
  | .error fault => .faulty (.plain (.error fault))

/-- What begins with the character `c`, `offset` bytes into the text and before `rest`. -/
def step (offset : Nat) (c : Char) (rest : List Char) : Step :=
  if isSpace c then .space
  else if c.isDigit then numberStep (readNumber false 0 offset (c :: rest))
  else match c with
    | '{' => .token .openObject 0 (offset + 1)
    | '}' => .token .closeObject 0 (offset + 1)
    | '[' => .token .openList 0 (offset + 1)
    | ']' => .token .closeList 0 (offset + 1)
    | ':' => .token .colon 0 (offset + 1)
    | ',' => .token .comma 0 (offset + 1)
    | '"' => stringStep offset rest
    | '-' => numberStep (readNumber true 1 (offset + 1) rest)
    | 't' => wordStep offset ['r', 'u', 'e'] (.bool true) rest
    | 'f' => wordStep offset ['a', 'l', 's', 'e'] (.bool false) rest
    | 'n' => wordStep offset ['u', 'l', 'l'] .null rest
    | _ => .faulty .stray

/-- The tokens of a text, from `offset` bytes on. The next `skip` characters belong to a token that
has been read. -/
def scan : (skip offset : Nat) → List Char → List Token
  | _, _, [] => []
  | skip + 1, offset, _ :: rest => scan skip offset rest
  | 0, offset, c :: rest =>
    match step offset c rest with
    | .space => scan 0 (offset + 1) rest
    | .token lexeme taken next => ⟨lexeme, offset⟩ :: scan taken next rest
    | .faulty lexeme => [⟨lexeme, offset⟩]

end Token

end ScenePack.Json
