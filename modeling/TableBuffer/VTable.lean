import TableBuffer.Image
import TableBuffer.VTable.Layout

/-!
# Reading a vtable

The vtable at a position of an image. Nothing is assumed about the bytes, so each question may be a
fault.
-/

namespace TableBuffer

structure VTable where
  image : Image
  position : Nat

namespace VTable

/-- The length of the vtable in bytes. -/
def length (v : VTable) : Outcome Nat := v.image.word16 v.position

/-- The length of the table in bytes, as the vtable states it. -/
def tableLength (v : VTable) : Outcome Nat := v.image.word16 (v.position + 2)

def slotCount (v : VTable) : Outcome Nat := do
  let length ← v.length
  return length / 2 - headerWords

/-- The position of a slot's field in the table; zero if the field is absent or the slot not declared. -/
def entry (v : VTable) (slot : Nat) : Outcome Nat := do
  let length ← v.length
  if entryPosition slot < length then v.image.word16 (v.position + entryPosition slot) else return 0

/-- The slots of the fields that are present, in order, each with the position of its field. -/
def present (v : VTable) : Outcome (List (Nat × Nat)) := do
  let count ← v.slotCount
  let entries ← (List.range count).mapM fun slot => do
    let position ← v.entry slot
    return (slot, position)
  return entries.filter fun (_, position) => position != 0

def bytes (v : VTable) : Outcome (List UInt8) := do
  let length ← v.length
  v.image.slice v.position length

end VTable

end TableBuffer
