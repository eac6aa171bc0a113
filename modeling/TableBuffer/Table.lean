import TableBuffer.StructRef
import TableBuffer.VTable

/-!
# Reading a table

A table starts with the distance back to its vtable, which says where the fields are. Only what is
asked for is read. An absent field has no position, and its readers answer `none`.
-/

namespace TableBuffer

structure Table where
  image : Image
  position : Nat
  deriving DecidableEq

namespace Table

/-- The vtable. A fault if it would stand before the image. -/
def vtable (t : Table) : Outcome VTable := do
  let distance ← t.image.int32 t.position
  let position := (t.position : Int) - distance
  if position < 0 then throw .fault else return ⟨t.image, position.toNat⟩

/-- The position of a field in the table; zero if it is absent. -/
def fieldOffset (t : Table) (slot : Nat) : Outcome Nat := do
  let vtable ← t.vtable
  vtable.entry slot

def has (t : Table) (slot : Nat) : Outcome Bool := do
  let offset ← t.fieldOffset slot
  return offset != 0

/-- The position of a field in the image. -/
def fieldPosition? (t : Table) (slot : Nat) : Outcome (Option Nat) := do
  let offset ← t.fieldOffset slot
  return if offset = 0 then none else some (t.position + offset)

/-- What `read` finds at the position of a field. -/
def readField {α : Type} (t : Table) (slot : Nat) (read : Nat → Outcome α) : Outcome (Option α) := do
  match ← t.fieldPosition? slot with
  | none => return none
  | some position =>
    let a ← read position
    return some a

/-- What `read` finds where the reference in a field leads. -/
def readTarget {α : Type} (t : Table) (slot : Nat) (read : Nat → Outcome α) : Outcome (Option α) :=
  t.readField slot fun position => do
    let target ← t.image.target position
    read target

def scalar? (t : Table) (ty : ScalarType) (slot : Nat) : Outcome (Option ty.Value) :=
  t.readField slot (t.image.scalar ty)

/-- A scalar field, or the default its schema gives it. -/
def scalar (t : Table) (ty : ScalarType) (slot : Nat) (default : ty.Value) : Outcome ty.Value := do
  let v ← t.scalar? ty slot
  return v.getD default

/-- The position that the reference in a field leads to. -/
def target? (t : Table) (slot : Nat) : Outcome (Option Nat) := t.readTarget slot pure

def string? (t : Table) (slot : Nat) : Outcome (Option String) := t.readTarget slot t.image.string

/-- The bytes of a string or byte vector. -/
def bytes? (t : Table) (slot : Nat) : Outcome (Option (List UInt8)) := t.readTarget slot t.image.byteRun

def table? (t : Table) (slot : Nat) : Outcome (Option Table) :=
  t.readTarget slot fun position => return ⟨t.image, position⟩

def struct? (t : Table) (slot : Nat) : Outcome (Option StructRef) :=
  t.readField slot fun position => return ⟨t.image, position⟩

def record? (t : Table) (layout : StructLayout) (slot : Nat) : Outcome (Option layout.Value) :=
  t.readField slot fun position => StructRef.decode ⟨t.image, position⟩ layout

/-- The number of elements of a vector field; zero if the field is absent. -/
def vectorLength (t : Table) (slot : Nat) : Outcome Nat := do
  let length ← t.readTarget slot t.image.word32
  return length.getD 0

end Table

end TableBuffer
