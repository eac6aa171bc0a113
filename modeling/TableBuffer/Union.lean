import TableBuffer.Table

/-!
# Reading a union

A union takes two slots of its table: a tag of one byte and a reference to what the tag selects. Both
are there or neither is.
-/

namespace TableBuffer

/-- A union value: its tag, which is not zero, and where its payload stands. -/
structure UnionRef where
  tag : UInt8
  image : Image
  position : Nat

namespace UnionRef

def asTable (u : UnionRef) : Table := ⟨u.image, u.position⟩

def asString (u : UnionRef) : Outcome String := u.image.string u.position

def asStruct (u : UnionRef) : StructRef := ⟨u.image, u.position⟩

end UnionRef

/-- The union in two slots. An error if only one of them is set. -/
def Table.union? (t : Table) (typeSlot valueSlot : Nat) : Outcome (Option UnionRef) := do
  let bits ← t.scalar .u8 typeSlot 0
  let tag := UInt8.ofNat bits.toNat
  match ← t.target? valueSlot with
  | none => if tag = 0 then return none else throw (.error (.unionMismatch tag))
  | some position =>
    if tag = 0 then throw (.error (.unionMismatch tag)) else return some ⟨tag, t.image, position⟩

end TableBuffer
