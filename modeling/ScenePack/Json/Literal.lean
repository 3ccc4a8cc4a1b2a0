import ScenePack.Json.Fault
import ScenePack.Json.Value
import ScenePack.Text.Natural

/-!
# Words, strings and numbers of JSON text

Each reader starts behind the first character of a literal, at a known number of bytes into the
text, and answers with the literal's value, how many more characters it takes and how many bytes
lie before its end; or with a fault.

A number that is no 64-bit integer is a significand times a power of ten. The significand takes
digits as long as it fits 64 bits; what it leaves of the whole part counts as places, what it
leaves of the fraction is dropped. The double is the significand's, multiplied or divided by the
power of ten.

* `readWord`, `readString`, `readNumber`: the readers.
* `gather` makes the significand, `scale?` the double, `wholeNumber` the integers.
-/

namespace ScenePack.Json

/-- A literal that was read: its value, how many characters it took and the offset behind it. -/
structure Extent (α : Type) where
  value : α
  taken : Nat
  next : Nat
  deriving Repr

/-- The length of a text in bytes. -/
def byteLength : List Char → Nat
  | [] => 0
  | c :: rest => c.utf8Size + byteLength rest

/-! ## Words -/

/-- Read the rest of a word; it is a fault to stop or to go on otherwise. -/
def readWord (offset : Nat) : List Char → List Char → Except Fault Nat
  | [], _ => .ok offset
  | _ :: _, [] => .error ⟨.endInValue, offset⟩
  | letter :: word, c :: cs =>
    if c = letter then readWord (offset + 1) word cs else .error ⟨.wordExpected, offset + 1⟩

/-! ## Strings -/

/-- The value of four hexadecimal digits. -/
def hexWord? (a b c d : Char) : Option Nat :=
  if [a, b, c, d].all (Text.isDigitOf 16) then some (Text.ofDigitsIn 16 [a, b, c, d]) else none

/-- The character of an escape letter. -/
def escapeChar? : Char → Option Char
  | '"' => some '"'
  | '\\' => some '\\'
  | '/' => some '/'
  | 'b' => some '\x08'
  | 'f' => some '\x0c'
  | 'n' => some '\n'
  | 'r' => some '\r'
  | 't' => some '\t'
  | _ => none

/-- The first half of a pair that stands for a character beyond 16 bits. -/
def isLeading (n : Nat) : Bool := 0xd800 ≤ n && n < 0xdc00

/-- The second half of such a pair. -/
def isTrailing (n : Nat) : Bool := 0xdc00 ≤ n && n < 0xe000

/-- The character of a pair. -/
def pairChar (leading trailing : Nat) : Char :=
  Char.ofNat (0x10000 + (leading - 0xd800) * 0x400 + (trailing - 0xdc00))

/-- The fault of an escape whose four digits are not there: too few bytes are left, or four bytes
that are no digits. -/
def cutEscape (offset : Nat) (cs : List Char) : Fault :=
  if byteLength cs < 4 then ⟨.endInString, offset + byteLength cs⟩ else ⟨.badEscape, offset + 4⟩

/-- Read the rest of a string. `before` holds its characters so far, latest first. -/
def readString (before : List Char) (taken offset : Nat) :
    List Char → Except Fault (Extent String)
  | [] => .error ⟨.endInString, offset⟩
  | '"' :: _ => .ok ⟨String.ofList before.reverse, taken + 1, offset + 1⟩
  | ['\\'] => .error ⟨.endInString, offset + 1⟩
  | '\\' :: 'u' :: a :: b :: c :: d :: rest =>
    match hexWord? a b c d with
    | none => .error ⟨.badEscape, offset + 6⟩
    | some n =>
      if isTrailing n then .error ⟨.unpairedSurrogate, offset + 6⟩
      else if isLeading n then
        match rest with
        | '\\' :: 'u' :: a :: b :: c :: d :: rest =>
          match hexWord? a b c d with
          | none => .error ⟨.badEscape, offset + 12⟩
          | some m =>
            if isTrailing m then
              readString (pairChar n m :: before) (taken + 12) (offset + 12) rest
            else .error ⟨.unpairedSurrogate, offset + 12⟩
        | '\\' :: 'u' :: short => .error (cutEscape (offset + 8) short)
        | '\\' :: _ :: _ => .error ⟨.surrogateCutShort, offset + 8⟩
        | ['\\'] => .error ⟨.endInString, offset + 7⟩
        | _ :: _ => .error ⟨.surrogateCutShort, offset + 7⟩
        | [] => .error ⟨.endInString, offset + 6⟩
      else readString (Char.ofNat n :: before) (taken + 6) (offset + 6) rest
  | '\\' :: 'u' :: short => .error (cutEscape (offset + 2) short)
  | '\\' :: letter :: rest =>
    match escapeChar? letter with
    | some c => readString (c :: before) (taken + 2) (offset + 2) rest
    | none => .error ⟨.badEscape, offset + 2⟩
  | c :: rest =>
    if c < ' ' then .error ⟨.controlCharacter, offset + 1⟩
    else readString (c :: before) (taken + 1) (offset + c.utf8Size) rest

/-! ## Numbers -/

/-- Take digits into a significand as long as it fits 64 bits; the digits left over come with it. -/
def gather (significand : Nat) : List Char → Nat × List Char
  | [] => (significand, [])
  | c :: rest =>
    let longer := significand * 10 + Text.digitValue c
    if longer < UInt64.size then gather longer rest else (significand, c :: rest)

/-- The double nearest to a power of ten. -/
def powerOfTen (n : Nat) : Double := Double.ofDecimal false 1 n

/-- The greatest power of ten that is a double. -/
def greatestPower : Nat := 308

/-- Move the point of a significand's double to the left. Powers beyond the greatest double are
divided out in two steps; after more than two steps nothing is left of any significand. -/
def shiftDown (x : Double) (places : Nat) : Double :=
  if places ≤ greatestPower then x.div (powerOfTen places)
  else if places ≤ 2 * greatestPower then
    (x.div (powerOfTen greatestPower)).div (powerOfTen (places - greatestPower))
  else Double.ofInt 0

/-- The double of `significand * 10 ^ exponent`, if it is finite. -/
def scale? (significand : Nat) (exponent : Int) : Option Double :=
  let x := Double.ofInt significand
  if exponent < 0 then some (shiftDown x (-exponent).toNat)
  else if exponent.toNat ≤ greatestPower then
    let y := x.mul (powerOfTen exponent.toNat)
    if y.isInfinite then none else some y
  else if significand = 0 then some x
  else none

/-- The digits a text starts with. -/
def leadingDigits (cs : List Char) : List Char := cs.takeWhile Char.isDigit

/-- What the exponent of a number amounts to. -/
inductive Exponent where
  | within (e : Int)
  /-- Too large to be counted; the number of its digits up to the one where that shows. -/
  | beyond (negative : Bool) (digits : Nat)

/-- The value of an exponent's digits, or how many of them go beyond 32 bits with the sign. -/
def exponentOf (negative : Bool) (value : Nat) (count : Nat) : List Char → Exponent
  | [] => .within (if negative then -(value : Int) else value)
  | c :: rest =>
    let longer := value * 10 + Text.digitValue c
    if longer < 0x80000000 then exponentOf negative longer (count + 1) rest
    else .beyond negative (count + 1)

/-- Give a number that is no integer its sign. -/
def signed (negative : Bool) (x : Double) : Number := .real (if negative then x.neg else x)

/-- The number of a significand and a power of ten, which ends at `offset`. -/
def finishReal (negative : Bool) (significand : Nat) (exponent : Int) (taken offset : Nat) :
    Except Fault (Extent Number) :=
  match scale? significand exponent with
  | some x => .ok ⟨signed negative x, taken, offset⟩
  | none => .error ⟨.numberTooLarge, offset⟩

/-- Read an exponent from behind its letter. -/
def readExponent (negative : Bool) (significand : Nat) (exponent : Int) (taken offset : Nat)
    (cs : List Char) : Except Fault (Extent Number) :=
  let signs := if cs.head? = some '+' ∨ cs.head? = some '-' then 1 else 0
  let digits := leadingDigits (cs.drop signs)
  if digits.isEmpty then
    if (cs.drop signs).isEmpty then .error ⟨.endInValue, offset + signs⟩
    else .error ⟨.badNumber, offset + signs + 1⟩
  else
    let length := signs + digits.length
    match exponentOf (cs.head? = some '-') 0 0 digits with
    | .within e => finishReal negative significand (exponent + e) (taken + length) (offset + length)
    | .beyond below count =>
      if significand ≠ 0 ∧ ¬ below then .error ⟨.numberTooLarge, offset + signs + count⟩
      else .ok ⟨signed negative (Double.ofInt 0), taken + length, offset + length⟩

/-- Read a fraction from behind its point. -/
def readFraction (negative : Bool) (significand : Nat) (exponent : Int) (taken offset : Nat)
    (cs : List Char) : Except Fault (Extent Number) :=
  let digits := leadingDigits cs
  let rest := cs.drop digits.length
  if digits.isEmpty then
    if cs.isEmpty then .error ⟨.endInValue, offset⟩ else .error ⟨.badNumber, offset + 1⟩
  else
    let (significand, dropped) := gather significand digits
    let exponent := exponent - (digits.length - dropped.length : Nat)
    let taken := taken + digits.length
    let offset := offset + digits.length
    if rest.head? = some 'e' ∨ rest.head? = some 'E' then
      readExponent negative significand exponent (taken + 1) (offset + 1) (rest.drop 1)
    else finishReal negative significand exponent taken offset

/-- The number of a whole significand: an integer if it fits 64 bits with its sign. Zero with a
minus sign is no integer. -/
def wholeNumber (negative : Bool) (significand : Nat) : Number :=
  if negative then
    if 0 < significand ∧ significand ≤ 0x8000000000000000 then .integer (-(significand : Int))
    else signed true (Double.ofInt significand)
  else .integer significand

/-- Read a number from behind its sign, which has been counted as `taken`. -/
def readNumber (negative : Bool) (taken offset : Nat) (cs : List Char) :
    Except Fault (Extent Number) :=
  let digits := leadingDigits cs
  if digits.isEmpty then
    if cs.isEmpty then .error ⟨.endInValue, offset⟩ else .error ⟨.badNumber, offset + 1⟩
  else if digits.head? = some '0' ∧ 1 < digits.length then .error ⟨.badNumber, offset + 2⟩
  else
    let rest := cs.drop digits.length
    let (significand, places) := gather 0 digits
    let taken := taken + digits.length
    let offset := offset + digits.length
    if rest.head? = some '.' then
      readFraction negative significand places.length (taken + 1) (offset + 1) (rest.drop 1)
    else if rest.head? = some 'e' ∨ rest.head? = some 'E' then
      readExponent negative significand places.length (taken + 1) (offset + 1) (rest.drop 1)
    else if places.isEmpty then .ok ⟨wholeNumber negative significand, taken, offset⟩
    else finishReal negative significand places.length taken offset

end ScenePack.Json
