import ScenePack.Files.Path
import ScenePack.Files.Store

/-!
# Directories

A directory as a value: files with their bytes, and directories. Paths are followed from it name by
name, as the operating system does, so that every way of going wrong has its own error. What lies
outside the directory is not known and holds nothing.

* `FileNode`, `Directory`: the tree.
* `follow` takes a path to its `Place`.
* `read`, `write` and `makeDirectory` are what a program does with files; `store` hands them out.
-/

namespace ScenePack

/-- A file or a directory. -/
inductive FileNode where
  | file (bytes : ByteArray)
  | directory (entries : List (String × FileNode))

/-- The directory in which a program works. -/
structure Directory where
  entries : List (String × FileNode)

/-- Where a path leads: to a node of the directory, named from its top on, or out of it. -/
inductive Place where
  | inside (names : List String)
  | outside
  deriving DecidableEq, Repr

namespace FileNode

/-- The node at a list of names. -/
def find? : List String → FileNode → Option FileNode
  | [], node => some node
  | _ :: _, file _ => none
  | name :: rest, directory entries => (entries.lookup name).bind (find? rest)

/-- Give a name of a directory a node. -/
def putEntry (name : String) (node : FileNode) :
    List (String × FileNode) → List (String × FileNode)
  | [] => [(name, node)]
  | (other, old) :: rest =>
    if other = name then (name, node) :: rest else (other, old) :: putEntry name node rest

/-- Put a node at a list of names whose directories are there. -/
def put (node : FileNode) : List String → FileNode → FileNode
  | [], _ => node
  | _ :: _, file bytes => file bytes
  | name :: rest, directory entries =>
    directory (putEntry name (put node rest ((entries.lookup name).getD (directory []))) entries)

end FileNode

namespace Place

/-- One step up. -/
def parent : Place → Place
  | inside [] => outside
  | inside names => inside names.dropLast
  | outside => outside

/-- One step down. -/
def child (name : String) : Place → Place
  | inside names => inside (names ++ [name])
  | outside => outside

end Place

namespace Directory

/-- Nothing is there. -/
def empty : Directory := ⟨[]⟩

/-- The node at a place. -/
def at? (d : Directory) : Place → Option FileNode
  | .inside names => FileNode.find? names (.directory d.entries)
  | .outside => some (.directory [])

/-- Put a node at a place. -/
def putAt (d : Directory) (node : FileNode) : Place → Directory
  | .outside => d
  | .inside names =>
    match FileNode.put node names (.directory d.entries) with
    | .directory entries => ⟨entries⟩
    | .file _ => d

/-- The longest name, in bytes. -/
def maxName : Nat := 255

/-- The longest path, in bytes. -/
def maxPath : Nat := 4095

/-- Follow names from a place. -/
def follow (d : Directory) (place : Place) : List String → Except FileError Place
  | [] => .ok place
  | name :: rest =>
    match d.at? place with
    | some (.directory entries) =>
      if Path.isIdle name then d.follow place rest
      else if name = ".." then d.follow place.parent rest
      else if maxName < name.utf8ByteSize then .error .nameTooLong
      else if (entries.lookup name).isSome then d.follow (place.child name) rest
      else .error .notFound
    | some (.file _) => .error .notDirectory
    | none => .error .notFound

/-- Refuse paths that no file can have. -/
def checkPath (path : String) : Except FileError Unit :=
  if path.toList.contains '\x00' then .error .zeroInPath
  else if path = "" then .error .notFound
  else if maxPath < path.utf8ByteSize then .error .nameTooLong
  else .ok ()

/-- Where paths start. -/
def origin (path : String) : Place := if Path.isAbsolute path then .outside else .inside []

/-- The bytes of the file at a path (`fs::read`). -/
def read (d : Directory) (path : String) : Except FileError ByteArray := do
  checkPath path
  let place ← d.follow (origin path) (Path.names path)
  match d.at? place with
  | some (.file bytes) => return bytes
  | some (.directory _) => throw .isDirectory
  | none => throw .notFound

/-- What a node can be made in: the entries of the directory at a place. -/
def entriesAt (d : Directory) (place : Place) : Except FileError (List (String × FileNode)) :=
  match d.at? place with
  | some (.directory entries) => .ok entries
  | some (.file _) => .error .notDirectory
  | none => .error .notFound

/-- The names of a path without idle ones at its end, last name first. -/
def reversedNames (path : String) : List String :=
  (Path.names path).reverse.dropWhile (· = "")

/-- Where the last name of a path stands, and what is there. A path without a last name, or with one
that leads to a directory whatever lies there, has the error `noName`. -/
def destination (d : Directory) (path : String) (noName : FileError) :
    Except FileError (Place × Option FileNode) := do
  checkPath path
  match reversedNames path with
  | [] => throw noName
  | name :: before => do
    let parent ← d.follow (origin path) before.reverse
    let entries ← d.entriesAt parent
    if name = "." ∨ name = ".." then throw noName
    if maxName < name.utf8ByteSize then throw .nameTooLong
    return (parent.child name, entries.lookup name)

/-- Write a file (`fs::write`). A path that ends in a slash can only be a directory's. -/
def write (d : Directory) (path : String) (bytes : ByteArray) : Except FileError Directory := do
  let (place, there) ← d.destination path .isDirectory
  if let some (.directory _) := there then throw .isDirectory
  if (Path.names path).getLast? = some "" then throw .isDirectory
  if place = .outside then throw .notFound
  return d.putAt (.file bytes) place

/-- Make a directory in one that is there. -/
def makeDirectory (d : Directory) (path : String) : Except FileError Directory := do
  let (place, there) ← d.destination path .exists
  if there.isSome then throw .exists
  if place = .outside then throw .notFound
  return d.putAt (.directory []) place

/-- Whether a path leads to a directory. -/
def isDirectory (d : Directory) (path : String) : Bool :=
  match checkPath path, d.follow (origin path) (Path.names path) with
  | .ok (), .ok place => (d.entriesAt place).toBool
  | _, _ => false

/-- What a change of the directory leaves, and what it answers. -/
def changed (d : Directory) : Except FileError Directory → Except FileError Unit × Directory
  | .ok d => (.ok (), d)
  | .error e => (.error e, d)

/-- A directory as a store of files, which its own writes change. -/
def store : FileStore (StateM Directory) where
  read path d := (d.read path, d)
  write path bytes d := d.changed (d.write path bytes)
  makeDirectory path d := d.changed (d.makeDirectory path)
  isDirectory path d := (d.isDirectory path, d)

end Directory

end ScenePack
