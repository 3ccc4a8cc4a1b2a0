/-!
# Paths

A path is a text of names with slashes between them. Its extension is what stands behind the last
point of its last name; a name that begins with its only point has none.
-/

namespace ScenePack.Path

/-- The names of a path, the empty ones between and behind slashes too. -/
def splitSlashes : List Char → List (List Char)
  | [] => [[]]
  | c :: rest =>
    match splitSlashes rest with
    | [] => [[c]]
    | name :: names => if c = '/' then [] :: name :: names else (c :: name) :: names

/-- The names of a path. -/
def names (path : String) : List String := (splitSlashes path.toList).map String.ofList

/-- Whether a path starts at the root of all files. -/
def isAbsolute (path : String) : Bool := path.toList.head? = some '/'

/-- A name that only says where one is. -/
def isIdle (name : String) : Bool := name = "" || name = "."

/-- The last name of a path, unless it leads upward. -/
def fileName? (path : String) : Option String :=
  match ((names path).filter (!isIdle ·)).getLast? with
  | some ".." => none
  | other => other

/-- The part of a name behind its last point, which is not its first character. -/
def extensionOfName? (name : String) : Option String :=
  let reversed := name.toList.reverse
  match reversed.dropWhile (· ≠ '.') with
  | [] | [_] => none
  | _ :: _ => some (String.ofList (reversed.takeWhile (· ≠ '.')).reverse)

/-- The extension of a path (`Path::extension`). -/
def extension? (path : String) : Option String := (fileName? path).bind extensionOfName?

/-- The path of names, from where a path starts. -/
def ofNames (absolute : Bool) (names : List String) : String :=
  (if absolute then "/" else "") ++ "/".intercalate names

/-- The non-empty paths on the way to a path, the longest first; idle names are left out. -/
def ancestors (path : String) : List String :=
  let steps := ((names path).filter (!isIdle ·)).dropLast
  (List.range steps.length).reverse.map fun n => ofNames (isAbsolute path) (steps.take (n + 1))

/-- The path of a name in a directory. -/
def join (directory name : String) : String :=
  if directory.toList.getLast? = some '/' then directory ++ name else directory ++ "/" ++ name

end ScenePack.Path
