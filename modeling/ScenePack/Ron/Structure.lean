import ScenePack.Ron.Value

/-!
# Structures in RON

A document that is one structure, with or without its name. Extensions are enabled at its head.

* `enabling`: one attribute that enables extensions.
* `fields` reads a whole document.
-/

namespace ScenePack.Ron

open Text (Parser)
open Text.Parser

/-- The name of an extension. -/
def extension : Parser Extension := do
  let s ← name
  Extension.ofKey? s

/-- An attribute that enables extensions. -/
def enabling : Parser (List Extension) := do
  word "#"; gap
  word "!"; gap
  word "["; gap
  word "enable"; gap
  word "("; gap
  let enabled ← separated1 (do gap; let e ← extension; gap; return e) (word ",")
  let _ ← option (word ",")
  gap
  word ")"; gap
  word "]"; gap
  return enabled

/-- The fields of a structure with the given name, or with none. The reader of a field's value is
found by the enabled extensions and the field's name. -/
def fields {α : Type} (structName : String) (field : List Extension → String → Parser α) :
    Parser (List α) := do
  gap
  let enabled ← many enabling
  let _ ← option do
    let s ← name
    if s ≠ structName then failure
  gap
  word "("
  gap
  let fields ← option do
    let fields ← separated1
      (do
        gap
        let key ← name
        gap
        word ":"
        gap
        let a ← field enabled.flatten key
        gap
        return a)
      (word ",")
    let _ ← option (word ",")
    return fields
  gap
  word ")"
  gap
  done
  return fields.getD []

end ScenePack.Ron
