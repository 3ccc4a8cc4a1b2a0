/-!
# The table of material names

Model of `SceneIndex`: names with positions. A name that is recorded again keeps its first position.
Two tables are equal when they give every name the same position, in whatever order the names came.

* `get?` and `insert` are the table's operations, `entries` its listing by position.
-/

namespace ScenePack

/-- Names and their positions, each name once, in the order in which they came. -/
structure NameTable where
  pairs : List (String × UInt32)
  deriving DecidableEq, Repr, Inhabited

namespace NameTable

/-- The table without names. -/
def empty : NameTable := ⟨[]⟩

/-- The position of a name (`SceneIndex::get`). -/
def get? (t : NameTable) (name : String) : Option UInt32 := t.pairs.lookup name

/-- Record a name, unless it is there (`SceneIndex::insert`). -/
def insert (t : NameTable) (name : String) (position : UInt32) : NameTable :=
  match t.get? name with
  | some _ => t
  | none => ⟨t.pairs ++ [(name, position)]⟩

/-- The number of names (`SceneIndex::len`). -/
def size (t : NameTable) : Nat := t.pairs.length

def isEmpty (t : NameTable) : Bool := t.pairs.isEmpty

/-- Whether one pair is listed before another: by position, then by name. -/
def listedBefore (a b : String × UInt32) : Bool :=
  a.2 < b.2 || (a.2 = b.2 && a.1 ≤ b.1)

/-- The pairs by position, and by name where positions agree (`SceneIndex::entries`). -/
def entries (t : NameTable) : List (String × UInt32) := t.pairs.mergeSort listedBefore

instance : BEq NameTable :=
  ⟨fun t u => t.size = u.size && t.pairs.all fun (name, position) => u.get? name = some position⟩

end NameTable

end ScenePack
