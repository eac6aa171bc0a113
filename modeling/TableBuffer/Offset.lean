import TableBuffer.Error

/-!
# Offsets

A builder names what it has written by the distance of its first byte from the end of the buffer.
-/

namespace TableBuffer

/-- What an offset leads to. -/
inductive OffsetKind
  | table
  | string
  | vector
  | struct
  deriving DecidableEq, Repr

/-- The distance from the end of the buffer to something of the given kind. -/
structure Offset (kind : OffsetKind) where
  value : Nat
  deriving DecidableEq, Repr

namespace Offset

/-- The same distance, taken to lead to something of another kind. -/
def cast {kind : OffsetKind} (o : Offset kind) (other : OffsetKind) : Offset other := ⟨o.value⟩

def text {kind : OffsetKind} (o : Offset kind) : String := "Offset(" ++ toString o.value ++ ")"

end Offset

/-- A union value for a table: nothing, or a tag and what it selects. -/
inductive UnionOffset
  | none
  | some (tag : UInt8) (payload : Offset .table) (tag_ne_zero : tag ≠ 0)
  deriving DecidableEq

namespace UnionOffset

/-- Pairs a tag with a payload written earlier. Tag zero is kept for no value. -/
def new {kind : OffsetKind} (tag : UInt8) (payload : Offset kind) : Except Error UnionOffset :=
  if h : tag = 0 then .error (.invalidArgument .tag) else .ok (.some tag (payload.cast .table) h)

def tag : UnionOffset → UInt8
  | none => 0
  | some tag _ _ => tag

def isNone : UnionOffset → Bool
  | none => true
  | some .. => false

theorem tag_eq_zero_iff {u : UnionOffset} : u.tag = 0 ↔ u = none := by
  cases u with
  | none => simp [tag]
  | some t p h => simp [tag, h]

end UnionOffset

end TableBuffer
