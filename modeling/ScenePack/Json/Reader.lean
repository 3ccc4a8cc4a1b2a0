import ScenePack.Json.Token

/-!
# Reading JSON

`read` goes through the tokens of a text with a stack of the lists and objects that are open. A
token that cannot come next is a fault placed behind the token's first byte; a text that stops too
early is at fault where it ends.

* `Frame` is a list or an object that is open, `Expecting` what has to come next.
* `advance` takes one token, `conclude` the end of the text; `read` folds the first over the tokens
  and closes with the second.
* `parse` reads a text.
-/

namespace ScenePack.Json

/-- A list or an object that is open around the value being read. -/
inductive Frame where
  /-- The items before the value, latest first. -/
  | list (before : List Value)
  /-- The fields before the value, and its key. -/
  | object (before : Fields) (key : String)

/-- What has to come next. -/
inductive Expecting where
  | value
  /-- A first item, or the end of an empty list. -/
  | firstItem
  /-- An item behind a comma. -/
  | nextItem (before : List Value)
  /-- A first key, or the end of an empty object. -/
  | firstKey
  /-- A key behind a comma. -/
  | nextKey (before : Fields)
  /-- The colon behind a key. -/
  | colon (before : Fields) (key : String)
  /-- Whatever may follow a value that is complete. -/
  | behind (v : Value)

/-- As many lists and objects may be open at once. -/
def maxOpen : Nat := 127

/-- Start on a value at a token. -/
def begin (stack : List Frame) (t : Token) : Except Fault Expecting :=
  match t.lexeme with
  | .openList => if stack.length < maxOpen then .ok .firstItem else .error ⟨.tooDeep, t.offset + 1⟩
  | .openObject => if stack.length < maxOpen then .ok .firstKey else .error ⟨.tooDeep, t.offset + 1⟩
  | .string s => s.map fun s => .behind (.string s)
  | .plain v => v.map .behind
  | _ => .error ⟨.valueExpected, t.offset + 1⟩

/-- Take a token as a key of an object with the fields `before`. -/
def keyed (before : Fields) (t : Token) : Except Fault Expecting :=
  match t.lexeme with
  | .string s => s.map (.colon before)
  | _ => .error ⟨.keyNotString, t.offset + 1⟩

/-- What comes of a value that is complete inside `frame`, at the token behind it. -/
def attach (frame : Frame) (v : Value) (t : Token) : Except Fault Expecting :=
  match frame, t.lexeme with
  | .list before, .comma => .ok (.nextItem (v :: before))
  | .list before, .closeList => .ok (.behind (.array (v :: before).reverse))
  | .list _, _ => .error ⟨.listEndExpected, t.offset + 1⟩
  | .object before key, .comma => .ok (.nextKey (before.insert key v))
  | .object before key, .closeObject => .ok (.behind (.object (before.insert key v)))
  | .object _ _, _ => .error ⟨.objectEndExpected, t.offset + 1⟩

/-- What one token leads to: the open frames and what comes next. -/
def advance (expecting : Expecting) (stack : List Frame) (t : Token) :
    Except Fault (Expecting × List Frame) :=
  match expecting, t.lexeme with
  | .value, _ => (begin stack t).map (·, stack)
  | .firstItem, .closeList => .ok (.behind (.array []), stack)
  | .firstItem, _ => (begin (.list [] :: stack) t).map (·, .list [] :: stack)
  | .nextItem _, .closeList => .error ⟨.trailingComma, t.offset + 1⟩
  | .nextItem before, _ => (begin (.list before :: stack) t).map (·, .list before :: stack)
  | .firstKey, .closeObject => .ok (.behind (.object []), stack)
  | .firstKey, _ => (keyed [] t).map (·, stack)
  | .nextKey _, .closeObject => .error ⟨.trailingComma, t.offset + 1⟩
  | .nextKey before, _ => (keyed before t).map (·, stack)
  | .colon before key, .colon => .ok (.value, .object before key :: stack)
  | .colon _ _, _ => .error ⟨.colonExpected, t.offset + 1⟩
  | .behind v, _ =>
    match stack with
    | [] => .error ⟨.trailingText, t.offset + 1⟩
    | frame :: stack => (attach frame v t).map (·, stack)

/-- What the end of the text amounts to, `offset` bytes in. -/
def conclude (expecting : Expecting) (stack : List Frame) (offset : Nat) : Except Fault Value :=
  match expecting, stack with
  | .behind v, [] => .ok v
  | .behind _, .list _ :: _ => .error ⟨.endInList, offset⟩
  | .behind _, .object _ _ :: _ => .error ⟨.endInObject, offset⟩
  | .firstItem, _ => .error ⟨.endInList, offset⟩
  | .firstKey, _ => .error ⟨.endInObject, offset⟩
  | .colon _ _, _ => .error ⟨.endInObject, offset⟩
  | .value, _ => .error ⟨.endInValue, offset⟩
  | .nextItem _, _ => .error ⟨.endInValue, offset⟩
  | .nextKey _, _ => .error ⟨.endInValue, offset⟩

/-- Go through the tokens of a text of `length` bytes. -/
def read (length : Nat) : Expecting → List Frame → List Token → Except Fault Value
  | expecting, stack, [] => conclude expecting stack length
  | expecting, stack, t :: rest =>
    match advance expecting stack t with
    | .ok (expecting, stack) => read length expecting stack rest
    | .error fault => .error fault

/-- Read a text as one JSON value (`serde_json::from_str`). -/
def parse (text : List Char) : Except Fault Value :=
  read (byteLength text) .value [] (Token.scan 0 0 text)

end ScenePack.Json
