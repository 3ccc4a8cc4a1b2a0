import ScenePack.Compiled
import ScenePack.Files.Error
import ScenePack.Scene.Reader
import ScenePack.Validation

/-!
# From scene text to compiled scene

A scene is read, checked and compiled, each only after the step before it succeeded. What a file
holds goes the same way as a text, but a file that holds nothing but blanks and comments is an
error of its own.

* `SceneDescription.compile` checks a description and compiles it (`SceneCompiler::compile`).
* `LoadedScene.ofText`, `LoadedScene.ofFile`: the whole way from a text (`compile_str`) or a file
  (`compile_file`).
-/

namespace ScenePack

/-- Why a scene could not be compiled (`SceneError`). -/
inductive SceneError where
  | unreadable (path : String) (cause : FileError)
  | empty (path : String)
  | malformed (fault : SceneFault)
  | invalid (v : Violation)
  deriving Repr

namespace SceneError

/-- The error in words. -/
def message : SceneError → String
  | unreadable path cause =>
    "Could not read scene file " ++ Text.quoted path ++ ": " ++ cause.message
  | empty path => "Scene file is empty: " ++ Text.quoted path
  | malformed fault =>
    "Syntax error at " ++ fault.location.render ++ ": " ++ fault.problem.message
  | invalid v => "Scene validation failed: " ++ v.message

/-- The error's own message, and those of what caused it. -/
def messages (e : SceneError) : List String :=
  match e with
  | unreadable _ cause => [e.message, cause.message]
  | invalid v => [e.message, v.message]
  | _ => [e.message]

end SceneError

/-- A compiled scene with the sections that its host still needs. -/
structure LoadedScene where
  info : SceneInfo
  camera : Camera
  sky : Sky
  render : RenderSettings
  compiled : CompiledScene
  deriving BEq, Repr

/-- A step towards a compiled scene. -/
abbrev Compiling (α : Type) := Outcome SceneError α

namespace SceneDescription

/-- Check a description and compile it (`SceneCompiler::compile`). -/
def compile (s : Settings) (d : SceneDescription) : Compiling CompiledScene :=
  match d.validate s with
  | .error v => Outcome.fail (.invalid v)
  | .ok () => let (compiled, log) := CompiledScene.ofDescription d; ⟨.ok compiled, log⟩

/-- Compile a description and keep the sections that are not compiled (`SceneCompiler::finish`). -/
def load (s : Settings) (d : SceneDescription) : Compiling LoadedScene := do
  let compiled ← d.compile s
  return { info := d.info, camera := d.camera, sky := d.sky, render := d.render, compiled }

/-- Read a scene out of the bytes of the file at a path, or of why they could not be read
(`SceneParser::load_file`). -/
def ofFile (fallback : Bool) (path : String) (bytes : Except FileError ByteArray) :
    Compiling SceneDescription :=
  match bytes.bind textOfBytes with
  | .error cause => Outcome.fail (.unreadable path cause)
  | .ok text =>
    let stripped := Comment.strip text.toList
    if Text.isAllBlank stripped then Outcome.fail (.empty path)
    else do
      Outcome.emit (.loading path)
      (ofStripped fallback stripped).mapError .malformed

end SceneDescription

namespace LoadedScene

/-- Compile a scene from its text (`SceneCompiler::compile_str`). -/
def ofText (s : Settings) (text : String) : Compiling LoadedScene := do
  let d ← (SceneDescription.parse s.templateFallback text).mapError .malformed
  d.load s

/-- Compile a scene from its file (`SceneCompiler::compile_file`). -/
def ofFile (s : Settings) (path : String) (bytes : Except FileError ByteArray) :
    Compiling LoadedScene := do
  let d ← SceneDescription.ofFile s.templateFallback path bytes
  d.load s

end LoadedScene

end ScenePack
