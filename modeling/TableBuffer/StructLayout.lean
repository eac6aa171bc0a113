import TableBuffer.Bytes
import TableBuffer.Scalar.Text

/-!
# Fixed structs

A struct has no vtable: its scalars stand at positions that its layout fixes. Bytes that no field
covers are zero, and where fields overlap the later one counts.
-/

namespace TableBuffer

/-- A scalar of a struct and where it stands. -/
structure StructField where
  position : Nat
  type : ScalarType
  deriving DecidableEq, Repr

structure StructLayout where
  size : Nat
  align : Nat
  /-- The scalars in the order in which they are written. -/
  fields : List StructField
  fits : ∀ f ∈ fields, f.position + f.type.size ≤ size := by decide

/-- A value for each field. -/
def Record : List StructField → Type
  | [] => Unit
  | f :: fs => f.type.Value × Record fs

namespace Record

/-- Writes the values of all fields over some bytes. -/
def write (order : ByteOrder) : (fs : List StructField) → Record fs → List UInt8 → List UInt8
  | [], _, bytes => bytes
  | f :: fs, (v, rest), bytes => write order fs rest (splice f.position (f.type.encode order v) bytes)

/-- Reads the values of all fields. -/
def read (order : ByteOrder) (bytes : List UInt8) : (fs : List StructField) → Record fs
  | [] => ()
  | f :: fs => (f.type.decode order ((bytes.drop f.position).take f.type.size), read order bytes fs)

/-- The text of each value. -/
def texts : (fs : List StructField) → Record fs → List String
  | [], _ => []
  | f :: fs, (v, rest) => f.type.text v :: texts fs rest

/-- The values that as many texts as there are fields stand for. -/
def ofTexts? : (fs : List StructField) → List String → Option (Record fs)
  | [], [] => some ()
  | f :: fs, s :: rest => do
    let v ← ScalarType.ofText? s f.type
    let values ← ofTexts? fs rest
    some (v, values)
  | _, _ => none

theorem length_write (order : ByteOrder) {fs : List StructField} (r : Record fs) {bytes : List UInt8}
    (h : ∀ f ∈ fs, f.position + f.type.size ≤ bytes.length) :
    (write order fs r bytes).length = bytes.length := by
  induction fs generalizing bytes with
  | nil => rfl
  | cons f fs ih =>
    obtain ⟨v, rest⟩ := r
    have hlen : (splice f.position (f.type.encode order v) bytes).length = bytes.length :=
      length_splice (by simpa using h f (by simp))
    have hrest : ∀ g ∈ fs, g.position + g.type.size
        ≤ (splice f.position (f.type.encode order v) bytes).length := by
      intro g hg
      rw [hlen]
      exact h g (by simp [hg])
    rw [write, ih rest hrest, hlen]

end Record

namespace StructLayout

/-- The layout of some fields, if they lie inside the size. -/
def ofFields? (size align : Nat) (fields : List StructField) : Option StructLayout :=
  if fits : ∀ f ∈ fields, f.position + f.type.size ≤ size then some ⟨size, align, fields, fits⟩ else none

abbrev Value (layout : StructLayout) : Type := Record layout.fields

def encode (layout : StructLayout) (order : ByteOrder) (v : layout.Value) : List UInt8 :=
  v.write order layout.fields (List.replicate layout.size 0)

def decode (layout : StructLayout) (order : ByteOrder) (bytes : List UInt8) : layout.Value :=
  Record.read order bytes layout.fields

@[simp] theorem length_encode (layout : StructLayout) (order : ByteOrder) (v : layout.Value) :
    (layout.encode order v).length = layout.size := by
  rw [encode, Record.length_write order v (by simpa using layout.fits), List.length_replicate]

end StructLayout

end TableBuffer
