import TableBuffer.Vector

/-!
# Walking a vector from both ends

A cursor holds the indices that neither end has reached yet.
-/

namespace TableBuffer.Vector

/-- The elements of `vector` at the indices from `front` up to but not including `back`. -/
structure Cursor (α : Type) where
  vector : Vector α
  front : Nat
  back : Nat

def cursor {α : Type} (v : Vector α) : Cursor α := ⟨v, 0, v.length⟩

namespace Cursor

variable {α : Type}

/-- The number of elements left. -/
def remaining (c : Cursor α) : Nat := c.back - c.front

/-- Takes the first element that is left. -/
def next (c : Cursor α) : Outcome (Option α × Cursor α) :=
  if c.front < c.back then do
    let item ← c.vector.get? c.front
    return (item, { c with front := c.front + 1 })
  else return (none, c)

/-- Takes the last element that is left. -/
def nextBack (c : Cursor α) : Outcome (Option α × Cursor α) :=
  if c.front < c.back then do
    let item ← c.vector.get? (c.back - 1)
    return (item, { c with back := c.back - 1 })
  else return (none, c)

end Cursor

end TableBuffer.Vector
