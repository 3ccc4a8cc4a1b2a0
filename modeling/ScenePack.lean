import ScenePack.Binary.Double
import ScenePack.Binary.Format
import ScenePack.Binary.Single
import ScenePack.CommandLine.Options
import ScenePack.CommandLine.Run
import ScenePack.Comment
import ScenePack.Compile
import ScenePack.Compiled
import ScenePack.Decimal.Shortest
import ScenePack.Decimal.Style
import ScenePack.Files.Directory
import ScenePack.Files.Error
import ScenePack.Files.Path
import ScenePack.Files.Store
import ScenePack.Json.Fault
import ScenePack.Json.Literal
import ScenePack.Json.Printer
import ScenePack.Json.Reader
import ScenePack.Json.Token
import ScenePack.Json.Value
import ScenePack.Log.Event
import ScenePack.Log.Outcome
import ScenePack.Material.Edit
import ScenePack.Material.Overrides
import ScenePack.Material.Preset
import ScenePack.Material.Record
import ScenePack.NameTable
import ScenePack.Object.Array
import ScenePack.Object.Record
import ScenePack.Object.Shape
import ScenePack.Ron.Structure
import ScenePack.Ron.Value
import ScenePack.Ron.Word
import ScenePack.Scene.Description
import ScenePack.Scene.Fault
import ScenePack.Scene.Field
import ScenePack.Scene.Reader
import ScenePack.Scene.Version
import ScenePack.Settings
import ScenePack.Settings.Assignment
import ScenePack.Settings.File
import ScenePack.Settings.Ron
import ScenePack.Settings.Toml
import ScenePack.Text.Blank
import ScenePack.Text.Natural
import ScenePack.Text.Parser
import ScenePack.Text.Printable
import ScenePack.Text.Quoted
import ScenePack.Toml.Reader
import ScenePack.Toml.Table
import ScenePack.Toml.Value
import ScenePack.Validation
import ScenePack.Vec3
import ScenePack.Violation
import ScenePack.Main
import ScenePack.Proofs.Binary.Class
import ScenePack.Proofs.Validation.Order
import ScenePack.Proofs.Compiled.Assembly
import ScenePack.Proofs.Compiled.Names
import ScenePack.Proofs.Outcome
import ScenePack.Proofs.Scene.Log
import ScenePack.Proofs.Validation.Accepted
import ScenePack.Proofs.Compiled.Placement
import ScenePack.Proofs.Binary.Bytes
import ScenePack.Proofs.Compiled.Projection
import ScenePack.Proofs.Material.Field
import ScenePack.Proofs.Material.Authored
import ScenePack.Proofs.Material.Upload
import ScenePack.Proofs.Object.Run
import ScenePack.Proofs.Json.Edit
import ScenePack.Proofs.Scene.Fallback
import ScenePack.Proofs.Scene.FirstFault
import ScenePack.Proofs.Scene.Typed
import ScenePack.Proofs.Settings.Gate
import ScenePack.Proofs.Scene.Section
import ScenePack.Proofs.Scene.Agreement
import ScenePack.Proofs.Scene.Unread
import ScenePack.Proofs.Scene.Silence
import ScenePack.Proofs.Comment.Piece
import ScenePack.Proofs.Comment.Place
import ScenePack.Proofs.Comment.Separation
import ScenePack.Proofs.Comment.Composition
import ScenePack.Proofs.Scene.File
import ScenePack.Proofs.Material.Run
import ScenePack.Proofs.Binary.Length
import ScenePack.Proofs.Object.Measured
import ScenePack.Proofs.Object.Index
import ScenePack.Proofs.Object.Extent
import ScenePack.Proofs.Binary.Ordered
import ScenePack.Proofs.Json.Numbers
import ScenePack.Proofs.Scene.Floats
import ScenePack.Proofs.Compiled.Floats
import ScenePack.Proofs.Decimal.Basin
import ScenePack.Proofs.Text.Digits
import ScenePack.Proofs.Scene.Version
import ScenePack.Proofs.Decimal.Plain
import ScenePack.Proofs.Binary.Widen
import ScenePack.Proofs.Text.Parser
import ScenePack.Proofs.Toml.Word
import ScenePack.Proofs.Toml.Lines
import ScenePack.Proofs.Settings.Assignment
import ScenePack.Proofs.Settings.Toml
import ScenePack.Proofs.Ron.Word
import ScenePack.Proofs.Ron.Structure
import ScenePack.Proofs.Settings.Ron
import ScenePack.Proofs.Settings.File
import ScenePack.Proofs.CommandLine.Run
import ScenePack.Proofs.Decimal.Short
import ScenePack.Proofs.Decimal.Canonical
import ScenePack.Proofs.Json.Reprint
import ScenePack.Proofs.Scene.NumericVersion
import ScenePack.Proofs.Compiled.Renaming
import ScenePack.Proofs.Compiled.Reordering
import ScenePack.Proofs.Scene.Literal
import ScenePack.Proofs.Scene.Count
import ScenePack.Proofs.Compiled.Listing
