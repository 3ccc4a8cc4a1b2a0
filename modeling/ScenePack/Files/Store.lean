import ScenePack.Files.Error
import ScenePack.Files.Path

/-!
# File stores

What a program needs of a file system, in whatever monad the file system works.

* `FileStore` holds the operations of the file system itself.
* `FileStore.makeDirectories` makes a directory and those on the way to it.
-/

namespace ScenePack

/-- A place where files can be read and written. -/
structure FileStore (m : Type → Type) where
  /-- The bytes of a file. -/
  read : String → m (Except FileError ByteArray)
  /-- Give a file new bytes, making it if it is not there. -/
  write : String → ByteArray → m (Except FileError Unit)
  /-- Make a directory in one that is there. -/
  makeDirectory : String → m (Except FileError Unit)
  /-- Whether a path leads to a directory. -/
  isDirectory : String → m Bool

namespace FileStore

variable {m : Type → Type} [Monad m]

/-- What making a directory comes to: it is no error if it is there afterwards. -/
def ensured (store : FileStore m) (path : String) :
    Except FileError Unit → m (Except FileError Unit)
  | .ok () => pure (.ok ())
  | .error e => do return if ← store.isDirectory path then .ok () else .error e

/-- Make the first of some directories, each of which lies in the next; the next is made only if it
is missing. -/
def makeFirst (store : FileStore m) : List String → m (Except FileError Unit)
  | [] => pure (.ok ())
  | path :: parents => do
    match ← store.makeDirectory path with
    | .error .notFound =>
      match ← store.makeFirst parents with
      | .ok () => store.ensured path (← store.makeDirectory path)
      | .error e => return .error e
    | made => store.ensured path made

/-- Make a directory and those on the way to it (`fs::create_dir_all`). What was made before an
error stays. -/
def makeDirectories (store : FileStore m) (path : String) : m (Except FileError Unit) :=
  if path = "" then pure (.ok ()) else store.makeFirst (path :: Path.ancestors path)

end FileStore

end ScenePack
