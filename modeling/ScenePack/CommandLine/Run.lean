import ScenePack.CommandLine.Options
import ScenePack.Compile
import ScenePack.Settings.File

/-!
# Running the command line

Model of `scenec`. A run loads the settings, compiles the scene, prints a summary and writes the
three arrays, in this order. The first step that fails ends it with exit code 1 and a report of what
caused the failure; what was printed and written before stays.

* `summary`, `failureText`, `helpText`: what is printed.
* `loadSettings`, `loadScene`, `writeArrays`: the steps, on any store of files.
* `run` does what the arguments ask for.
-/

namespace ScenePack.CommandLine

/-- What a run leaves behind, apart from files. -/
structure Report where
  code : Nat
  out : String
  err : String
  deriving DecidableEq, Repr

/-- The files that a run writes, in order, with their bytes. -/
def arrays (c : CompiledScene) : List (String × List UInt8) :=
  [("objects.bin", c.objectBytes), ("materials.bin", c.materialBytes), ("lights.bin", c.lightBytes)]

/-! ## Texts -/

/-- The known templates, one a line (`MaterialFactory::list_templates`). -/
def templateList : String := String.join (MaterialTemplate.all.map fun t => t.tag ++ "\n")

/-- The help text. -/
def helpText : String :=
  "Compiles JSON scene descriptions into GPU-ready object, material and light arrays\n\n"
  ++ "Usage: scenec [OPTIONS] [SCENE]\n\n"
  ++ "Arguments:\n"
  ++ "  [SCENE]  Scene file to compile\n\n"
  ++ "Options:\n"
  ++ "  -c, --config <FILE>      Compiler settings (.toml or .ron)\n"
  ++ "  -o, --out-dir <DIR>      Write objects.bin, materials.bin and lights.bin into this "
  ++ "directory\n"
  ++ "      --lenient-templates  Fall back to the default preset for unknown material templates\n"
  ++ "      --list-templates     Print the known material templates and exit\n"
  ++ "  -h, --help               Print help\n"

/-- A short account of a compiled scene (`print_summary`). -/
def summary (s : LoadedScene) : String :=
  let number (n : UInt32) : String := toString n.toNat
  let lights := s.compiled.lights.toList.map number
  "Scene: " ++ s.info.name ++ " (version " ++ s.info.version ++ ")\n"
  ++ "  Render: " ++ number s.render.width ++ "x" ++ number s.render.height ++ ", "
  ++ number s.render.samplesPerFrame ++ " spp/frame, " ++ number s.render.maxSamples
  ++ " max samples, " ++ number s.render.maxBounces ++ " bounces\n"
  ++ "  Objects: " ++ toString s.compiled.objects.size ++ " (" ++ s.compiled.objects.layout.name
  ++ " layout, " ++ toString s.compiled.objects.stride ++ " bytes each)\n"
  ++ "  Materials: " ++ toString s.compiled.materials.length ++ "\n"
  ++ "  Lights: [" ++ ", ".intercalate lights ++ "]\n"

/-- A text with its lines behind the first indented. -/
def indentLines (indent : String) (text : String) : String :=
  String.join (text.toList.map fun c => if c = '\n' then "\n" ++ indent else String.singleton c)

/-- The lines of the causes of a failure, numbered when there are several. -/
def causeLines : List String → String
  | [] => ""
  | [cause] => "\n    " ++ indentLines "    " cause
  | causes =>
    String.join (causes.zipIdx.map fun (cause, i) =>
      "\n" ++ String.ofList (List.replicate (5 - (toString i).length) ' ') ++ toString i ++ ": "
        ++ indentLines "       " cause)

/-- The report of a failure and its causes, each caused by the next. -/
def failureText (message : String) (causes : List String) : String :=
  "Error: " ++ message
    ++ (if causes.isEmpty then "" else "\n\nCaused by:" ++ causeLines causes) ++ "\n"

/-! ## Steps -/

/-- A failure and what caused it. -/
structure Failure where
  message : String
  causes : List String
  deriving DecidableEq, Repr

variable {m : Type → Type} [Monad m]

/-- The settings of a run before its other options bear on them. -/
def loadFile (store : FileStore m) : Option String → m (Except Failure Settings)
  | none => pure (.ok .default)
  | some path => do
    return (← Settings.load store path).mapError fun e =>
      ⟨"Failed to load compiler config " ++ path, e.messages⟩

/-- The settings of a run. -/
def loadSettings (store : FileStore m) (o : Options) : m (Except Failure Settings) := do
  return (← loadFile store o.settings).map fun s =>
    if o.lenientTemplates then { s with templateFallback := true } else s

/-- The scene of a run. -/
def loadScene (store : FileStore m) (s : Settings) (path : String) :
    m (Except Failure LoadedScene) := do
  return (LoadedScene.ofFile s path (← store.read path)).result.mapError fun e =>
    ⟨"Failed to compile " ++ path, e.messages⟩

/-- Write files into a directory one after another. -/
def writeFiles (store : FileStore m) (directory : String) :
    List (String × List UInt8) → m (Except Failure Unit)
  | [] => pure (.ok ())
  | (name, bytes) :: rest => do
    let path := Path.join directory name
    match ← store.write path ⟨bytes.toArray⟩ with
    | .error cause => return .error ⟨"Failed to write " ++ path, [cause.message]⟩
    | .ok () => writeFiles store directory rest

/-- Write the arrays of a scene into a directory, which is made if it is not there
(`write_arrays`). -/
def writeArrays (store : FileStore m) (directory : String) (c : CompiledScene) :
    m (Except Failure Unit) := do
  match ← store.makeDirectories directory with
  | .error cause =>
    return .error ⟨"Failed to create output directory " ++ directory, [cause.message]⟩
  | .ok () => writeFiles store directory (arrays c)

/-- The report of a run that failed after printing `out`. -/
def Report.ofFailure (out : String) (f : Failure) : Report :=
  ⟨1, out, failureText f.message f.causes⟩

/-- Compile the scene of a run. -/
def compileScene (store : FileStore m) (o : Options) (path : String) : m Report := do
  match ← loadSettings store o with
  | .error f => return .ofFailure "" f
  | .ok s =>
    match ← loadScene store s path with
    | .error f => return .ofFailure "" f
    | .ok scene =>
      match o.outDirectory with
      | none => return ⟨0, summary scene, ""⟩
      | some directory =>
        match ← writeArrays store directory scene.compiled with
        | .error f => return .ofFailure (summary scene) f
        | .ok () => return ⟨0, summary scene, ""⟩

/-- Run the command line with some arguments (`main`). -/
def run (store : FileStore m) (args : List String) : m Report :=
  match Request.ofArguments args with
  | .usageError => pure ⟨2, "", "error: the arguments make no sense\n"⟩
  | .help => pure ⟨0, helpText, ""⟩
  | .run o =>
    if o.listTemplates then pure ⟨0, templateList, ""⟩
    else match o.scene with
      | none => pure ⟨1, "", failureText "No scene file given" []⟩
      | some path => compileScene store o path

end ScenePack.CommandLine
