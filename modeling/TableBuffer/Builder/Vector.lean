import TableBuffer.Builder.Object

/-!
# Building vectors and strings

A vector stands behind the number of its elements, a string behind the number of its bytes, with a
zero byte after it. A vector is written at once, or opened, filled from its last element to its first,
and closed.
-/

namespace TableBuffer.Build

/-- Opens a vector of `count` elements of `elementSize` bytes. -/
def startVector (elementSize count alignment : Nat) : Build Unit := do
  requireIdle .startVector
  let length := elementSize * count
  if wordLimit ≤ length then reject (.elementCount count)
  prep 4 length
  prep alignment length
  setStage (.vector ⟨count, ← offset, length⟩)

/-- The vector under construction, which is closed whatever comes of it. -/
def takeVector : Build OpenVector := do
  requireUnfinished
  match (← get).stage with
  | .vector v =>
    setStage .idle
    return v
  | _ => misuse .noVector

/-- Closes the vector under construction by writing its count. -/
def endVector : Build (Offset .vector) := do
  let v ← takeVector
  let written := (← offset) - v.start
  if written ≠ v.dataLength then misuse (.vectorSize written v.dataLength v.count)
  reserve 4
  putWord v.count
  return ⟨← offset⟩

/-- Writes a vector of scalars. -/
def createVector (ty : ScalarType) (items : List ty.Value) : Build (Offset .vector) := do
  startVector ty.size items.length ty.size
  let order := (← get).order
  put (items.flatMap (ty.encode order))
  endVector

/-- Writes a vector of bytes that starts at a multiple of `alignment`. -/
def createByteVectorAligned (bytes : List UInt8) (alignment : Nat) : Build (Offset .vector) := do
  if !(isPowerOfTwo alignment && alignment ≤ 8) then reject .alignment
  startVector 1 bytes.length alignment
  put bytes
  endVector

def createByteVector (bytes : List UInt8) : Build (Offset .vector) := createByteVectorAligned bytes 1

/-- Writes a finished buffer as a vector of bytes, aligned for any scalar in it. -/
def createNestedBuffer (bytes : List UInt8) : Build (Offset .vector) := createByteVectorAligned bytes 8

/-- Writes a vector of references to things written earlier. -/
def createVectorOfOffsets {kind : OffsetKind} (items : List (Offset kind)) : Build (Offset .vector) := do
  requireIdle .createVectorOfOffsets
  let bound ← offset
  items.forM fun item => requireWritten .createVectorOfOffsets item.value bound
  startVector 4 items.length 4
  items.reverse.forM fun item => do putWord ((← offset) - item.value + 4)
  endVector

/-- Writes a vector of structs. -/
def createVectorOfStructs (layout : StructLayout) (items : List layout.Value) : Build (Offset .vector) := do
  if layout.size = 0 then reject .structSize
  startVector layout.size items.length layout.align
  let order := (← get).order
  put (items.flatMap (layout.encode order))
  endVector

/-- Writes bytes as a string. -/
def createByteString (bytes : List UInt8) : Build (Offset .string) := do
  requireIdle .createString
  prep 4 (bytes.length + 1)
  put [0]
  put bytes
  reserve 4
  putWord bytes.length
  return ⟨← offset⟩

def createString (s : String) : Build (Offset .string) := createByteString s.toUTF8.toList

end TableBuffer.Build
