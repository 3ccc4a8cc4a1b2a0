/-!
# Comments

Scene text is JSON with comments: from `//` to the end of the line, and from `/*` to the next `*/`.
`strip` follows `strip_comments` of the scene parser: it takes them out and keeps every newline, so
that what is left stands on the line it stood on. A comment opener inside a string is text, and a
quote inside a comment opens nothing.

* `Mode` says where the scan stands; `stripFrom` scans from a mode on, one character at a time but
  for the openers, which are two.
-/

namespace ScenePack.Comment

/-- Where a scan stands. -/
inductive Mode where
  /-- Outside strings and comments. -/
  | code
  /-- Inside a string; `escaped` behind a backslash. -/
  | string (escaped : Bool)
  /-- Inside a comment that ends with the line. -/
  | line
  /-- Inside a comment that ends with a star and a slash; `star` behind a star of its own. -/
  | block (star : Bool)
  deriving DecidableEq, Repr

/-- The text without its comments, from a place where the scan stands in some mode. -/
def stripFrom : Mode → List Char → List Char
  | _, [] => []
  | .code, '/' :: '/' :: rest => stripFrom .line rest
  | .code, '/' :: '*' :: rest => stripFrom (.block false) rest
  | .code, c :: rest => c :: stripFrom (if c = '"' then .string false else .code) rest
  | .string true, c :: rest => c :: stripFrom (.string false) rest
  | .string false, c :: rest =>
    let next := if c = '\\' then .string true else if c = '"' then .code else .string false
    c :: stripFrom next rest
  | .line, c :: rest => if c = '\n' then c :: stripFrom .code rest else stripFrom .line rest
  | .block star, c :: rest =>
    if c = '\n' then c :: stripFrom (.block false) rest
    else if star ∧ c = '/' then stripFrom .code rest
    else stripFrom (.block (c = '*')) rest

/-- The text without its comments (`strip_comments`). -/
def strip (text : List Char) : List Char := stripFrom .code text

end ScenePack.Comment
