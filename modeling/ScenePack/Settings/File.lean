import ScenePack.Files.Path
import ScenePack.Files.Store
import ScenePack.Settings.Ron
import ScenePack.Settings.Toml

/-!
# Settings files

The extension of a path says in which format its settings are. A path with another extension is
refused before any file is touched, and settings that cannot be written leave the file as it is.

* `SettingsFormat.ofPath` takes the format from the path.
* `Settings.ofText` and `Settings.toText` are the two directions in a format.
* `Settings.load` and `Settings.save` do the same with files.
-/

namespace ScenePack

/-- The formats of settings files (`ConfigFormat`). -/
inductive SettingsFormat where
  | toml
  | ron
  deriving DecidableEq, Repr

/-- Why settings could not be loaded or saved (`ConfigError`). -/
inductive SettingsError where
  | file (cause : FileError)
  | unreadable
  | unwritable
  | unsupportedFormat (path : String)
  deriving DecidableEq, Repr

namespace SettingsError

/-- The error in words, apart from what the formats say themselves. -/
def message : SettingsError → String
  | file cause => "IO error: " ++ cause.message
  | unreadable => "Parse error"
  | unwritable => "Serialization error"
  | unsupportedFormat path => "Unsupported format: " ++ path

/-- The error's own message, and those of what caused it. -/
def messages (e : SettingsError) : List String :=
  match e with
  | file cause => [e.message, cause.message]
  | _ => [e.message]

end SettingsError

namespace SettingsFormat

/-- The format of a path (`ConfigFormat::from_path`). -/
def ofPath (path : String) : Except SettingsError SettingsFormat :=
  match Path.extension? path with
  | some "toml" => .ok toml
  | some "ron" => .ok ron
  | _ => .error (.unsupportedFormat path)

end SettingsFormat

namespace Settings

/-- Read settings from the text of a file. -/
def ofText (format : SettingsFormat) (text : String) : Except SettingsError Settings :=
  let read? := match format with
    | .toml => ofToml? text
    | .ron => ofRon? text
  match read? with
  | some s => .ok s
  | none => .error .unreadable

/-- The text of a file with settings. -/
def toText (format : SettingsFormat) (s : Settings) : Except SettingsError String :=
  match format with
  | .toml => match s.toToml? with
    | some text => .ok text
    | none => .error .unwritable
  | .ron => .ok s.toRon

variable {m : Type → Type} [Monad m]

/-- Load settings from a file (`Config::load_from_file`). -/
def load (store : FileStore m) (path : String) : m (Except SettingsError Settings) :=
  match SettingsFormat.ofPath path with
  | .error e => pure (.error e)
  | .ok format => do
    match (← store.read path).bind textOfBytes with
    | .error cause => return .error (.file cause)
    | .ok text => return ofText format text

/-- Save settings to a file (`Config::save_to_file`). -/
def save (store : FileStore m) (path : String) (s : Settings) : m (Except SettingsError Unit) :=
  match (SettingsFormat.ofPath path).bind fun format => s.toText format with
  | .error e => pure (.error e)
  | .ok text => do return (← store.write path text.toUTF8).mapError .file

end Settings

end ScenePack
