import ScenePack.Text.Printable

/-!
# Quoted text

The quoted form of a text in messages: between double quotes, with a backslash before quotes and
backslashes, short escapes for the common controls and the code point of every other character
that cannot stand for itself.
-/

namespace ScenePack.Text

/-- The characters that stand for `c` between the quotes. -/
def quoteChar (c : Char) : List Char :=
  match c with
  | '\\' => ['\\', '\\']
  | '"' => ['\\', '"']
  | '\n' => ['\\', 'n']
  | '\r' => ['\\', 'r']
  | '\t' => ['\\', 't']
  | '\x00' => ['\\', '0']
  | c =>
    if isPrintable c then [c]
    else ['\\', 'u', '\x7b'] ++ Nat.toDigits 16 c.toNat ++ ['\x7d']

/-- The quoted form of a text. -/
def quoted (s : String) : String :=
  String.ofList ('"' :: s.toList.flatMap quoteChar ++ ['"'])

end ScenePack.Text
