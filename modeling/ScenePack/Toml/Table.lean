import ScenePack.Toml.Value

/-!
# Growing TOML tables

How a document adds to its tables. A key is given once. A dotted key makes the tables on its way and
adds to tables that came about in the same manner. A header makes the tables on its way too, passes
through any table that is not written in braces, through a repeated header's to the last of its
tables, and may turn a table that was only named on a way into its own.

* `assign` gives a dotted key its value.
* `modifyAt` goes along the path of a header; `openTable` and `openRepeated` open what it names.
-/

namespace ScenePack.Toml

namespace Entries

/-- Put a value at a key, in place of what is there. -/
def put (key : String) (v : Value) : Entries → Entries
  | [] => [(key, v)]
  | (k, w) :: rest => if k = key then (key, v) :: rest else (k, w) :: put key v rest

/-- Give the key behind a path of dotted keys a value. `ownKeys` says whether the table may take a
key of its own, and not only one behind a further key. -/
def assign (v : Value) (key : String) : (path : List String) → (ownKeys : Bool) → Entries →
    Option Entries
  | [], ownKeys, entries =>
    if ownKeys && (entries.get? key).isNone then some (entries ++ [(key, v)]) else none
  | step :: path, _, entries =>
    match entries.get? step with
    | none => do
      let inner ← assign v key path true []
      return entries.put step (.table .dotted inner)
    | some (.table .dotted inner) => do
      return entries.put step (.table .dotted (← assign v key path true inner))
    | some (.table .implied inner) => do
      return entries.put step (.table .implied (← assign v key path false inner))
    | some (.tables bodies) =>
      match bodies.reverse with
      | last :: before => do
        return entries.put step (.tables (((← assign v key path false last) :: before).reverse))
      | [] => none
    | some _ => none

/-- Change the table at a path of headers, making the tables on the way. -/
def modifyAt (f : Entries → Option Entries) : List String → Entries → Option Entries
  | [], entries => f entries
  | step :: path, entries =>
    match entries.get? step with
    | none => do
      return entries.put step (.table .implied (← modifyAt f path []))
    | some (.table .inline _) => none
    | some (.table kind inner) => do
      return entries.put step (.table kind (← modifyAt f path inner))
    | some (.tables bodies) =>
      match bodies.reverse with
      | last :: before => do
        return entries.put step (.tables (((← modifyAt f path last) :: before).reverse))
      | [] => none
    | some _ => none

/-- Open the table of a header. -/
def openTable (key : String) (entries : Entries) : Option Entries :=
  match entries.get? key with
  | none => some (entries ++ [(key, .table .header [])])
  | some (.table .implied inner) => some (entries.put key (.table .header inner))
  | some _ => none

/-- Open one more table of a repeated header. -/
def openRepeated (key : String) (entries : Entries) : Option Entries :=
  match entries.get? key with
  | none => some (entries ++ [(key, .tables [[]])])
  | some (.tables bodies) => some (entries.put key (.tables (bodies ++ [[]])))
  | some _ => none

end Entries

end ScenePack.Toml
