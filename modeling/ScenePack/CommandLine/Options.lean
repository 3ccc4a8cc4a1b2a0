/-!
# Command-line options

What the arguments of the command line ask for. Options may stand before and behind the scene, at
most once each, and a value may be joined to its option or be the next argument, unless that looks
like an option. Behind two dashes nothing is an option.

* `Argument.ofText` says what one argument is by its looks.
* `Request.ofArguments` reads them all.
-/

namespace ScenePack.CommandLine

/-- What a run is to do. -/
structure Options where
  scene : Option String
  settings : Option String
  outDirectory : Option String
  lenientTemplates : Bool
  listTemplates : Bool
  deriving DecidableEq, Repr

/-- What the arguments amount to. -/
inductive Request where
  | run (options : Options)
  | help
  /-- The arguments make no sense. -/
  | usageError
  deriving DecidableEq, Repr

/-- The options that take a value. -/
inductive ValueOption where
  | settings
  | outDirectory
  deriving DecidableEq, Repr

namespace Options

/-- Nothing is asked for. -/
def none : Options := ⟨.none, .none, .none, false, false⟩

/-- Give an option its value, which is not empty; a second time makes no sense. -/
def setValue (o : Options) (option : ValueOption) (value : String) : Option Options :=
  if value = "" then .none
  else match option with
    | .settings => if o.settings.isNone then some { o with settings := some value } else .none
    | .outDirectory =>
      if o.outDirectory.isNone then some { o with outDirectory := some value } else .none

/-- Name the scene, once. -/
def setScene (o : Options) (value : String) : Option Options :=
  if value = "" ∨ o.scene.isSome then .none else some { o with scene := some value }

end Options

/-- What one argument is. -/
inductive Argument where
  | positional
  /-- Two dashes: no options follow. -/
  | options
  | help
  | lenientTemplates
  | listTemplates
  /-- An option with a value that is joined to it or yet to come. -/
  | valued (option : ValueOption) (value : Option String)
  | unknown
  deriving DecidableEq, Repr

/-- The value joined to a short option; an equals sign in front of it is not part of it. -/
def joined : List Char → Option String
  | [] => none
  | '=' :: value => some (String.ofList value)
  | value => some (String.ofList value)

namespace Argument

/-- The option of a long name. -/
def ofLong (name : String) (value : Option String) : Argument :=
  match name, value with
  | "config", value => valued .settings value
  | "out-dir", value => valued .outDirectory value
  | "lenient-templates", none => lenientTemplates
  | "list-templates", none => listTemplates
  | "help", none => help
  | _, _ => unknown

/-- What an argument is, by its looks. -/
def ofText (text : String) : Argument :=
  match text.toList with
  | ['-', '-'] => options
  | '-' :: '-' :: rest =>
    ofLong (String.ofList (rest.takeWhile (· ≠ '=')))
      (match rest.dropWhile (· ≠ '=') with
        | [] => none
        | _ :: value => some (String.ofList value))
  | '-' :: 'c' :: rest => valued .settings (joined rest)
  | '-' :: 'o' :: rest => valued .outDirectory (joined rest)
  | '-' :: 'h' :: _ => help
  | '-' :: _ :: _ => unknown
  | _ => positional

end Argument

/-- The scene behind two dashes. -/
def readPositionals (o : Options) : List String → Option Options
  | [] => some o
  | arg :: rest => (o.setScene arg).bind (readPositionals · rest)

/-- Read arguments one after another. `pending` is an option whose value comes next. -/
def readArguments (o : Options) (pending : Option ValueOption) : List String → Request
  | [] => if pending.isNone ∧ (o.scene.isSome ∨ o.listTemplates) then .run o else .usageError
  | arg :: rest =>
    let go (next : Option Options) (pending : Option ValueOption) : Request :=
      match next with
      | some o => readArguments o pending rest
      | none => .usageError
    match pending, Argument.ofText arg with
    | some option, .positional => go (o.setValue option arg) none
    | some _, _ => .usageError
    | none, .positional => go (o.setScene arg) none
    | none, .options =>
      match readPositionals o rest with
      | some o => if o.scene.isSome ∨ o.listTemplates then .run o else .usageError
      | none => .usageError
    | none, .help => .help
    | none, .lenientTemplates =>
      if o.lenientTemplates then .usageError else go (some { o with lenientTemplates := true }) none
    | none, .listTemplates =>
      if o.listTemplates then .usageError else go (some { o with listTemplates := true }) none
    | none, .valued option (some value) => go (o.setValue option value) none
    | none, .valued option none => go (some o) (some option)
    | none, .unknown => .usageError

/-- What the arguments of a command line ask for. -/
def Request.ofArguments (args : List String) : Request := readArguments .none none args

end ScenePack.CommandLine
