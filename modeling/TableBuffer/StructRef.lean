import TableBuffer.Image
import TableBuffer.StructLayout

/-!
# Reading a struct

The struct at a position of an image, by the positions that its layout fixes.
-/

namespace TableBuffer

structure StructRef where
  image : Image
  position : Nat

namespace StructRef

/-- The scalar that stands `offset` bytes into the struct. -/
def get (s : StructRef) (ty : ScalarType) (offset : Nat) : Outcome ty.Value :=
  s.image.scalar ty (s.position + offset)

/-- The struct that stands `offset` bytes into this one. -/
def nested (s : StructRef) (offset : Nat) : StructRef := ⟨s.image, s.position + offset⟩

def decode (s : StructRef) (layout : StructLayout) : Outcome layout.Value :=
  (s.image.slice s.position layout.size).map (layout.decode s.image.order)

/-- The image with another scalar `offset` bytes into the struct. -/
def set (s : StructRef) (ty : ScalarType) (offset : Nat) (v : ty.Value) : Outcome Image :=
  s.image.writeScalar ty (s.position + offset) v

end StructRef

end TableBuffer
