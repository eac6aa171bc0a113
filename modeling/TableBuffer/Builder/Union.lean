import TableBuffer.Builder.Object

/-!
# Building unions

A union is added to both of its slots at once. Both are checked before either is written.
-/

namespace TableBuffer.Build

def addUnion (typeSlot valueSlot : Nat) (union : UnionOffset) : Build Unit := do
  if valueSlot = typeSlot then reject .sharedSlot
  let _ ← openSlot .addUnion typeSlot
  let _ ← openSlot .addUnion valueSlot
  match union with
  | .none => return ()
  | .some tag payload _ => do
    addOffset valueSlot payload
    addScalarAlways typeSlot .u8 (BitVec.ofNat 8 tag.toNat)

end TableBuffer.Build
