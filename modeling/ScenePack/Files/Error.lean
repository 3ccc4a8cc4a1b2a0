/-!
# File errors

Why a file could not be read or written, in the words of the operating system.
-/

namespace ScenePack

/-- Why a file could not be read or written. -/
inductive FileError where
  | notFound
  | exists
  | notDirectory
  | isDirectory
  | nameTooLong
  /-- The path holds a character of code zero. -/
  | zeroInPath
  /-- The file was read, but it is no text. -/
  | notText
  /-- Any other answer of the operating system. -/
  | system (code : Nat) (text : String)
  deriving DecidableEq, Repr

namespace FileError

/-- The error in words. -/
def message : FileError → String
  | notFound => "No such file or directory (os error 2)"
  | .exists => "File exists (os error 17)"
  | notDirectory => "Not a directory (os error 20)"
  | isDirectory => "Is a directory (os error 21)"
  | nameTooLong => "File name too long (os error 36)"
  | zeroInPath => "file name contained an unexpected NUL byte"
  | notText => "stream did not contain valid UTF-8"
  | system code text => text ++ " (os error " ++ toString code ++ ")"

end FileError

/-- The text of a file's bytes. -/
def textOfBytes (bytes : ByteArray) : Except FileError String :=
  match String.fromUTF8? bytes with
  | some text => .ok text
  | none => .error .notText

end ScenePack
