import ScenePack.CommandLine.Run

/-!
# The program

The command line on the files of the operating system.
-/

namespace ScenePack

/-- What went wrong, in the terms of file stores. -/
def fileErrorOf : IO.Error → FileError
  | .noFileOrDirectory .. => .notFound
  | .noSuchThing .. => .notFound
  | .alreadyExists _ code text => if code = 17 then .exists else .system code.toNat text
  | .inappropriateType _ code text =>
    if code = 20 then .notDirectory
    else if code = 21 then .isDirectory
    else .system code.toNat text
  | .invalidArgument _ code text => if code = 36 then .nameTooLong else .system code.toNat text
  | .permissionDenied _ code text => .system code.toNat text
  | e => .system 5 e.toString

/-- An action on files, with its error as a value. -/
def attempted {α : Type} (act : IO α) : IO (Except FileError α) := do
  try
    return .ok (← act)
  catch e => return .error (fileErrorOf e)

/-- The files of the operating system. -/
def systemStore : FileStore IO where
  read path := attempted (IO.FS.readBinFile path)
  write path bytes := attempted (IO.FS.writeBinFile path bytes)
  makeDirectory path := attempted (IO.FS.createDir path)
  isDirectory path := do
    try
      return ← (← IO.FS.realPath path).isDir
    catch _ => return false

end ScenePack

/-- Run the command line and hand on what it reports. -/
def main (args : List String) : IO UInt32 := do
  let report ← ScenePack.CommandLine.run ScenePack.systemStore args
  IO.print report.out
  IO.eprint report.err
  return UInt32.ofNat report.code
