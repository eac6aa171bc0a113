import TableBuffer.Root
import TableBuffer.Vector

/-!
# Changing a buffer in place

A change writes over bytes that are there: it makes no field present or absent and keeps the size.
Each function answers with the changed image, or with `none` where there is nothing to change.
-/

namespace TableBuffer.Table

/-- Writes another scalar into a field. -/
def setScalar (t : Table) (ty : ScalarType) (slot : Nat) (v : ty.Value) : Outcome (Option Image) :=
  t.readField slot fun position => t.image.writeScalar ty position v

/-- Writes another scalar over an element of a vector field. None past its end. -/
def setElement (t : Table) (ty : ScalarType) (slot index : Nat) (v : ty.Value) : Outcome (Option Image) := do
  match ← t.vector? (Element.scalar ty) slot with
  | none => return none
  | some vector =>
    if index < vector.length then
      let image ← t.image.writeScalar ty (vector.elementPosition index) v
      return some image
    else return none

/-- Makes the reference in a field lead to a position after the field. None if the position is not
after it, not in the buffer, or farther than a reference reaches. -/
def setTarget (t : Table) (slot target : Nat) : Outcome (Option Image) := do
  match ← t.fieldPosition? slot with
  | none => return none
  | some position =>
    if position < target ∧ target < t.image.size ∧ target - position < valueCount 4 then
      let image ← t.image.writeScalar .u32 position (BitVec.ofNat 32 (target - position))
      return some image
    else return none

/-- The table in a field, checked like a root. -/
def checkedTable? (t : Table) (slot : Nat) : Outcome (Option Table) :=
  t.readTarget slot t.image.checkedTable

/-- The table reached through one field after the other. None if one of them is absent. -/
def descend? (t : Table) : List Nat → Outcome (Option Table)
  | [] => return some t
  | slot :: rest => do
    match ← t.checkedTable? slot with
    | none => return none
    | some inner => inner.descend? rest

end TableBuffer.Table
