import TableBuffer.Bytes
import TableBuffer.Error
import TableBuffer.Scalar

/-!
# Images

The bytes of a buffer and the order of its numbers, as a reader sees them. Every access outside the
bytes is a fault. A reference is stored as the distance from where it stands to its target; a run of
bytes is stored behind its length.
-/

namespace TableBuffer

structure Image where
  order : ByteOrder
  bytes : Array UInt8
  deriving DecidableEq

namespace Image

def ofList (order : ByteOrder) (bytes : List UInt8) : Image := ⟨order, bytes.toArray⟩

def size (m : Image) : Nat := m.bytes.size

/-- The `length` bytes from `start` on. -/
def slice (m : Image) (start length : Nat) : Outcome (List UInt8) :=
  if start + length ≤ m.size then .ok (m.bytes.extract start (start + length)).toList
  else .error .fault

def scalar (m : Image) (ty : ScalarType) (pos : Nat) : Outcome ty.Value :=
  (m.slice pos ty.size).map (ty.decode m.order)

/-- The word of two bytes at a position. -/
def word16 (m : Image) (pos : Nat) : Outcome Nat := (m.scalar .u16 pos).map BitVec.toNat

/-- The word of four bytes at a position. -/
def word32 (m : Image) (pos : Nat) : Outcome Nat := (m.scalar .u32 pos).map BitVec.toNat

/-- The signed word of four bytes at a position. -/
def int32 (m : Image) (pos : Nat) : Outcome Int := (m.scalar .i32 pos).map BitVec.toInt

/-- The position that the reference at `pos` leads to. -/
def target (m : Image) (pos : Nat) : Outcome Nat := do
  let distance ← m.word32 pos
  return pos + distance

/-- The run of bytes whose length stands at `pos`. -/
def byteRun (m : Image) (pos : Nat) : Outcome (List UInt8) := do
  let length ← m.word32 pos
  m.slice (pos + 4) length

/-- The text whose length stands at `pos`, or why its bytes are none. -/
def text (m : Image) (pos : Nat) : Outcome (Except Error String) := do
  let bytes ← m.byteRun pos
  return (Utf8.decode bytes).mapError fun fault => .invalidFormat (.text fault)

/-- The text whose length stands at `pos`. An error if its bytes are none. -/
def string (m : Image) (pos : Nat) : Outcome String := do
  match ← m.text pos with
  | .ok s => return s
  | .error e => throw (.error e)

/-- The image with `new` in place of the bytes from `start` on. -/
def write (m : Image) (start : Nat) (new : List UInt8) : Outcome Image :=
  if start + new.length ≤ m.size then .ok (ofList m.order (splice start new m.bytes.toList))
  else .error .fault

/-- The image with the value at a position replaced. -/
def writeScalar (m : Image) (ty : ScalarType) (pos : Nat) (v : ty.Value) : Outcome Image :=
  m.write pos (ty.encode m.order v)

/-- The positions at which two images of one size differ, with the old and the new byte. -/
def changes (old new : Image) : List (Nat × UInt8 × UInt8) :=
  ((old.bytes.toList.zip new.bytes.toList).zipIdx.filter fun ((a, b), _) => a != b).map
    fun ((a, b), position) => (position, a, b)

theorem length_slice {m : Image} {start length : Nat} {bytes : List UInt8}
    (h : m.slice start length = .ok bytes) : bytes.length = length := by
  unfold slice at h
  split at h
  · rename_i hle
    cases h
    simp only [size] at hle
    simp
    omega
  · cases h

theorem slice_ofList {order : ByteOrder} {bytes : List UInt8} {start length : Nat}
    (h : start + length ≤ bytes.length) :
    (ofList order bytes).slice start length = .ok ((bytes.drop start).take length) := by
  simp [slice, ofList, size, h]

/-- Writing keeps the size. -/
theorem size_write {m n : Image} {start : Nat} {new : List UInt8} (h : m.write start new = .ok n) :
    n.size = m.size := by
  unfold write at h
  split at h
  · rename_i hle
    cases h
    have hlist : start + new.length ≤ m.bytes.toList.length := by simpa [size] using hle
    simpa [size, ofList] using length_splice hlist
  · cases h

end Image

end TableBuffer
