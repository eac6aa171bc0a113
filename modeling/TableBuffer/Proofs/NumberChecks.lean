import TableBuffer.Builder.Call

/-!
# Building with every number checked

The numbers that a builder works with have widths. A size is a machine word; an offset, and a reference that is
written, has four bytes; the words of a vtable have two; and the distance from a table to its vtable is signed.
Here is every call once more, step by step, with each number checked as it arises. A sum or an offset past its
width is a fault, and so is a difference below zero, a number that does not read back from the bytes written for
it, and an entry outside of its vtable. Room and patches are checked by the builder itself.
-/

namespace TableBuffer

/-- The room in all that an arena has after it has grown for `n` more bytes. -/
def Arena.grownCapacity (a : Arena) (n : Nat) : Nat :=
  min (max (min (2 * a.capacity) wordMax) (min (a.size + n) wordMax)) a.limit

/-- The bytes that are written for a number read back as the number itself. -/
def ByteOrder.Holds (order : ByteOrder) (width n : Nat) : Prop := order.decode (order.encode width n) = n

instance (order : ByteOrder) (width n : Nat) : Decidable (order.Holds width n) :=
  inferInstanceAs (Decidable (_ = _))

theorem ByteOrder.holds_of_lt (order : ByteOrder) {width n : Nat} (h : n < valueCount width) :
    order.Holds width n := by
  rw [Holds, decode_encode, Nat.mod_eq_of_lt h]

namespace Build

/-- A fault unless the condition holds. -/
def demand (p : Prop) [Decidable p] : Build Unit := if p then return () else fault

/-- A sum that is a machine word. -/
def sumInWords (m n : Nat) : Build Nat := do
  demand (m + n < wordLimit)
  return m + n

/-- A difference that is not below zero. -/
def differenceInWords (m n : Nat) : Build Nat := do
  demand (n ≤ m)
  return m - n

/-- The number of bytes written, as an offset. -/
def offsetInWords : Build Nat := do
  let n ← offset
  demand (n < valueCount 4)
  return n

/-- Makes room to which the written bytes can be moved if it is new. -/
def reserveInWords (n : Nat) : Build Unit := do
  let a := (← get).arena
  demand (a.size ≤ a.grownCapacity n)
  reserve n

/-- Puts a word of four bytes in front that holds the number itself. -/
def putWordInWords (n : Nat) : Build Unit := do
  demand ((← get).order.Holds 4 n)
  putWord n

def prepInWords (size additional : Nat) : Build Unit := do
  requireUnfinished
  if !isPowerOfTwo size then reject .size
  modify fun b => { b with minAlign := max b.minAlign size }
  let length ← sumInWords (← offset) additional
  let padded ← sumInWords (padding length size) size
  let total ← sumInWords padded additional
  reserveInWords total
  putZeros (padding length size)

def padInWords (n : Nat) : Build Unit := do
  requireUnfinished
  reserveInWords n
  putZeros n

def pushInWords (ty : ScalarType) (v : ty.Value) : Build Nat := do
  prepInWords ty.size 0
  put (ty.encode (← get).order v)
  offsetInWords

/-- Puts a reference in front, in room that is there. -/
def putReferenceInWords (target : Nat) : Build Unit := do
  let distance ← differenceInWords (← offsetInWords) target
  putWordInWords (distance + 4)

def pushReferenceInWords (target : Nat) : Build Unit := do
  prepInWords 4 0
  putReferenceInWords target

def pushOffsetInWords {kind : OffsetKind} (target : Offset kind) : Build Nat := do
  requireWritten .pushOffset target.value (← offsetInWords)
  pushReferenceInWords target.value
  offsetInWords

def startObjectInWords (slots : Nat) : Build Unit := do
  requireIdle .startObject
  if VTable.maxSlots < slots then reject .fieldCount
  setStage (.object ⟨← offsetInWords, slots, []⟩)

def storeFieldInWords (o : OpenObject) (slot size : Nat) : Build Unit := do
  setStage (.object { o with fields := ⟨slot, ← offsetInWords, size⟩ :: o.fields })

def addScalarInWords (slot : Nat) (ty : ScalarType) (v default : ty.Value) : Build Unit := do
  let o ← openSlot .addScalar slot
  if ty.equal v default && !(← get).options.forceDefaults then return ()
  let _ ← pushInWords ty v
  storeFieldInWords o slot ty.size

def addScalarAlwaysInWords (slot : Nat) (ty : ScalarType) (v : ty.Value) : Build Unit := do
  let o ← openSlot .addScalarAlways slot
  let _ ← pushInWords ty v
  storeFieldInWords o slot ty.size

def addOffsetInWords {kind : OffsetKind} (slot : Nat) (target : Offset kind) : Build Unit := do
  let o ← openSlot .addOffset slot
  requireWritten .addOffset target.value o.start
  pushReferenceInWords target.value
  storeFieldInWords o slot 4

def createStructInWords (layout : StructLayout) (v : layout.Value) : Build (Offset .struct) := do
  prepInWords layout.align layout.size
  put (layout.encode (← get).order v)
  modify fun b => { b with structSize := layout.size }
  return ⟨← offsetInWords⟩

def addStructInWords (slot : Nat) (struct : Offset .struct) : Build Unit := do
  let o ← openSlot .addStruct slot
  if struct.value ≠ (← offsetInWords) ∨ struct.value ≤ o.start then misuse .structNotInline
  storeFieldInWords o slot (← get).structSize

def addUnionInWords (typeSlot valueSlot : Nat) (union : UnionOffset) : Build Unit := do
  if valueSlot = typeSlot then reject .sharedSlot
  let _ ← openSlot .addUnion typeSlot
  let _ ← openSlot .addUnion valueSlot
  match union with
  | .none => return ()
  | .some tag payload _ => do
    addOffsetInWords valueSlot payload
    addScalarAlwaysInWords typeSlot .u8 (BitVec.ofNat 8 tag.toNat)

/-- The bytes from a table at `table` to the end of the farthest of some fields, or `least` if that is more. -/
def extentInWords (table : Nat) (fields : List StoredField) (least : Nat) : Build Nat :=
  fields.foldlM (fun length f => do
    let distance ← differenceInWords table f.offset
    let extent ← sumInWords distance f.size
    return max length extent) least

/-- Checks that a vtable with `slots` slots has an entry for each of some fields of a table at `table`, and that
the entry holds the position of the field. -/
def checkEntries (order : ByteOrder) (slots table : Nat) (fields : List StoredField) : Build Unit :=
  fields.forM fun f => do
    let position ← differenceInWords table f.offset
    demand (order.Holds 2 position ∧ VTable.entryPosition f.slot + 2 ≤ VTable.entryPosition slots)

/-- The vtable of a table of `length` bytes at `table`. -/
def vtableInWords (order : ByteOrder) (o : OpenObject) (table length : Nat) : Build (List UInt8) := do
  demand (order.Holds 2 (VTable.entryPosition o.slots) ∧ order.Holds 2 length)
  checkEntries order o.slots table o.fields
  return o.vtable order table

def sharedVTableInWords? (vtable : List UInt8) : Build (Option Nat) := do
  demand ((← get).vtables.hits + 1 < wordLimit)
  sharedVTable? vtable

def writeVTableInWords (vtable : List UInt8) : Build Nat := do
  prepInWords 2 vtable.length
  put vtable
  let position ← offsetInWords
  demand ((← get).vtablesWritten + 1 < wordLimit)
  modify fun b => { b with
    vtables := if b.options.dedupVTables then b.vtables.insert vtable position else b.vtables
    vtablesWritten := b.vtablesWritten + 1 }
  return position

/-- Gives the first word of a table its value. -/
def patchInWords (order : ByteOrder) (table vtable : Nat) : Build Unit := do
  demand ((BitVec.ofInt 32 ((vtable : Int) - table)).toInt = (vtable : Int) - table)
  patch table (ScalarType.i32.encode order (BitVec.ofInt 32 ((vtable : Int) - table)))

def endObjectInWords : Build (Offset .table) := do
  let o ← openObject .endObject
  let table ← pushInWords .i32 0
  let length ← extentInWords table o.fields 4
  if 65535 < length then misuse (.objectTooLarge length)
  let order := (← get).order
  let bytes ← vtableInWords order o table length
  setStage .idle
  let vtable ← match ← sharedVTableInWords? bytes with
    | some position => pure position
    | none => writeVTableInWords bytes
  patchInWords order table vtable
  return ⟨table⟩

def startVectorInWords (elementSize count alignment : Nat) : Build Unit := do
  requireIdle .startVector
  let length := elementSize * count
  if wordLimit ≤ length then reject (.elementCount count)
  prepInWords 4 length
  prepInWords alignment length
  setStage (.vector ⟨count, ← offsetInWords, length⟩)

/-- The count is put in front unchecked: nothing limits the number of elements that have no bytes. -/
def endVectorInWords : Build (Offset .vector) := do
  let v ← takeVector
  let written ← differenceInWords (← offsetInWords) v.start
  if written ≠ v.dataLength then misuse (.vectorSize written v.dataLength v.count)
  reserveInWords 4
  putWord v.count
  return ⟨← offsetInWords⟩

/-- Writes a vector of the elements that `bytes` are. -/
def fillInWords (elementSize count alignment : Nat) (bytes : ByteOrder → List UInt8) :
    Build (Offset .vector) := do
  startVectorInWords elementSize count alignment
  demand (elementSize * count < wordLimit)
  let order := (← get).order
  put (bytes order)
  endVectorInWords

def createVectorInWords (ty : ScalarType) (items : List ty.Value) : Build (Offset .vector) :=
  fillInWords ty.size items.length ty.size fun order => items.flatMap (ty.encode order)

def createByteVectorAlignedInWords (bytes : List UInt8) (alignment : Nat) : Build (Offset .vector) := do
  if !(isPowerOfTwo alignment && alignment ≤ 8) then reject .alignment
  fillInWords 1 bytes.length alignment fun _ => bytes

def createVectorOfOffsetsInWords {kind : OffsetKind} (items : List (Offset kind)) : Build (Offset .vector) := do
  requireIdle .createVectorOfOffsets
  let bound ← offsetInWords
  items.forM fun item => requireWritten .createVectorOfOffsets item.value bound
  startVectorInWords 4 items.length 4
  items.reverse.forM fun item => putReferenceInWords item.value
  endVectorInWords

def createVectorOfStructsInWords (layout : StructLayout) (items : List layout.Value) :
    Build (Offset .vector) := do
  if layout.size = 0 then reject .structSize
  fillInWords layout.size items.length layout.align fun order => items.flatMap (layout.encode order)

def createByteStringInWords (bytes : List UInt8) : Build (Offset .string) := do
  requireIdle .createString
  let length ← sumInWords bytes.length 1
  prepInWords 4 length
  put [0]
  put bytes
  reserveInWords 4
  putWordInWords bytes.length
  return ⟨← offsetInWords⟩

def finishWithInWords (root : Offset .table) (identifier : Option Identifier) (sizePrefixed : Bool) :
    Build Unit := do
  requireIdle .finish
  requireWritten .finish root.value (← offsetInWords)
  let align := max (← get).minAlign 4
  prepInWords align (4 + (if identifier.isSome then 4 else 0) + (if sizePrefixed then 4 else 0))
  match identifier with
  | some id => put id.bytes
  | none => pure ()
  pushReferenceInWords root.value
  if sizePrefixed then
    let size ← offsetInWords
    reserveInWords 4
    putWordInWords size
  setStage .finished

end Build

open Build in
/-- The step that a call stands for, with every number checked. The calls that are not listed add and subtract
nothing, apart from `required`, which reads what is written. -/
def Call.stepInWords : Call → Build Reply
  | prep size additional => silent (prepInWords size additional)
  | pad n => silent (padInWords n)
  | push ty v => placed (pushInWords ty v)
  | pushOffset target => placed (pushOffsetInWords (⟨target⟩ : Offset .table))
  | startObject slots => silent (startObjectInWords slots)
  | addScalar slot ty v default => silent (addScalarInWords slot ty v default)
  | addScalarAlways slot ty v => silent (addScalarAlwaysInWords slot ty v)
  | addOffset slot target => silent (addOffsetInWords slot (⟨target⟩ : Offset .table))
  | createStruct layout v => located (createStructInWords layout v)
  | addStruct slot struct => silent (addStructInWords slot ⟨struct⟩)
  | addUnion typeSlot valueSlot union => silent (addUnionInWords typeSlot valueSlot union)
  | endObject => located endObjectInWords
  | startVector elementSize count alignment => silent (startVectorInWords elementSize count alignment)
  | endVector => located endVectorInWords
  | createVector ty items => located (createVectorInWords ty items)
  | createByteVector bytes => located (createByteVectorAlignedInWords bytes 1)
  | createByteVectorAligned bytes alignment => located (createByteVectorAlignedInWords bytes alignment)
  | createVectorOfOffsets targets =>
    located (createVectorOfOffsetsInWords (targets.map fun t => (⟨t⟩ : Offset .table)))
  | createVectorOfStructs layout items => located (createVectorOfStructsInWords layout items)
  | createString s => located (createByteStringInWords s.toUTF8.toList)
  | createByteString bytes => located (createByteStringInWords bytes)
  | createNestedBuffer bytes => located (createByteVectorAlignedInWords bytes 8)
  | finish root identifier => silent (finishWithInWords ⟨root⟩ identifier false)
  | finishSizePrefixed root identifier => silent (finishWithInWords ⟨root⟩ identifier true)
  | c => c.step

/-- The outcome of a call with every number checked, and the builder after it. -/
def Builder.callInWords (b : Builder) (c : Call) : Outcome Reply × Builder :=
  match c.stepInWords b with
  | .ok reply b => (.ok reply, b)
  | .error failure b => (.error failure, b)

end TableBuffer
