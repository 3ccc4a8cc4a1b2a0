import ScenePack.Material.Overrides
import ScenePack.Object.Shape
import ScenePack.Scene.Version

/-!
# Scene descriptions

What a scene text says: who the scene is, the camera, the sky, the render settings, and the lists
of materials and objects. The sections have a value for every field; `default` is what a text that
leaves them out says.
-/

namespace ScenePack

/-- The name and the version of a scene. -/
structure SceneInfo where
  name : String
  /-- The version as it is written. -/
  version : String
  schema : SchemaVersion
  deriving DecidableEq, BEq, Repr

/-- The place and the lens of the camera (`CameraDescription`). -/
structure Camera where
  position : Vec3
  rotation : Vec3
  /-- The vertical field of view in degrees. -/
  fov : Single
  aperture : Single
  focusDist : Single
  deriving DecidableEq, BEq, Repr

/-- The gradient of the sky (`SkyDescription`). -/
structure Sky where
  colorTop : Vec3
  colorBottom : Vec3
  deriving DecidableEq, BEq, Repr

/-- The glow around bright places (`BloomSettings`). -/
structure Bloom where
  enabled : Bool
  threshold : Single
  knee : Single
  intensity : Single
  iterations : UInt32
  downscale : Single
  deriving DecidableEq, BEq, Repr

/-- The settings of the renderer. -/
structure RenderSettings where
  width : UInt32
  height : UInt32
  samplesPerFrame : UInt32
  maxSamples : UInt32
  maxBounces : UInt32
  bloom : Bloom
  deriving DecidableEq, BEq, Repr

namespace SceneInfo

def default : SceneInfo := ⟨"Untitled Scene", "1.0", .current⟩

end SceneInfo

namespace Camera

def default : Camera where
  position := ⟨0.1, 0.5, 0⟩
  rotation := .zero
  fov := 60
  aperture := 0
  focusDist := 10

end Camera

namespace Sky

def default : Sky := ⟨⟨0.5, 0.7, 1⟩, .replicate 0.98⟩

end Sky

namespace Bloom

def default : Bloom where
  enabled := false
  threshold := 1
  knee := 0.5
  intensity := 0.8
  iterations := 5
  downscale := 0.5

end Bloom

namespace RenderSettings

def default : RenderSettings where
  width := 1600
  height := 900
  samplesPerFrame := 8
  maxSamples := 5000
  maxBounces := 8
  bloom := .default

end RenderSettings

/-- What a scene text says. -/
structure SceneDescription where
  info : SceneInfo
  camera : Camera
  sky : Sky
  render : RenderSettings
  materials : List Material
  objects : List SceneObject
  deriving DecidableEq, BEq, Repr

end ScenePack
