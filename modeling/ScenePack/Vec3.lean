import ScenePack.Binary.Single

/-!
# Vectors

Triples of singles for places, directions and colours, and the four-word slots in which they are
uploaded.
-/

namespace ScenePack

/-- Three singles. `==` compares them as numbers. -/
structure Vec3 where
  x : Single
  y : Single
  z : Single
  deriving DecidableEq, BEq, Repr, Inhabited

/-- Four singles that are uploaded as sixteen bytes. -/
structure Slot where
  x : Single
  y : Single
  z : Single
  w : Single
  deriving DecidableEq, BEq, Repr, Inhabited

namespace Vec3

/-- The same number three times. -/
def replicate (s : Single) : Vec3 := ⟨s, s, s⟩

def zero : Vec3 := replicate 0

def map (f : Single → Single) (v : Vec3) : Vec3 := ⟨f v.x, f v.y, f v.z⟩

/-- Scaled by a factor. -/
def scale (v : Vec3) (s : Single) : Vec3 := v.map (· * s)

/-- The length: the root of the sum of squares, each step rounded. -/
def norm (v : Vec3) : Single := (v.x * v.x + v.y * v.y + v.z * v.z).sqrt

/-- No component is infinite or a NaN (`Vec3Ext::all_finite`). -/
def allFinite (v : Vec3) : Bool := v.x.isFinite && v.y.isFinite && v.z.isFinite

/-- The slot with a fourth number behind the vector (`Vec3Ext::extend_to`). -/
def slot (v : Vec3) (w : Single) : Slot := ⟨v.x, v.y, v.z, w⟩

/-- The components in order. -/
def words (v : Vec3) : List UInt32 := [v.x.bits, v.y.bits, v.z.bits]

end Vec3

namespace Slot

def zero : Slot := ⟨0, 0, 0, 0⟩

/-- The words in order. -/
def words (s : Slot) : List UInt32 := [s.x.bits, s.y.bits, s.z.bits, s.w.bits]

end Slot

end ScenePack
