import ScenePack.Binary.Single

/-!
# Settings of the compiler

How strictly a scene is read, and how large its arrays may grow.
-/

namespace ScenePack

/-- The settings of the compiler (`CompilerConfig`). -/
structure Settings where
  /-- Whether an unknown template stands for the default one instead of being an error. -/
  templateFallback : Bool
  /-- Normals of planes that are shorter are no directions. -/
  planeNormalEpsilon : Single
  maxObjects : UInt64
  maxMaterials : UInt64
  maxLights : UInt64
  deriving DecidableEq, BEq, Repr

namespace Settings

def default : Settings where
  templateFallback := false
  planeNormalEpsilon := 0.001
  maxObjects := 1024
  maxMaterials := 256
  maxLights := 64

end Settings

end ScenePack
