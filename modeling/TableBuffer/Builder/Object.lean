import TableBuffer.Builder.Basic
import TableBuffer.StructLayout
import TableBuffer.Table

/-!
# Building tables

A table is opened with a number of slots, filled with fields, each in a slot of its own, and closed.
Closing writes its vtable, or refers to an equal one written before.
-/

namespace TableBuffer

namespace OpenObject

/-- The bytes of a table at `offset`: from its first byte to the end of the field farthest from it.
Padding before the first field is no part of it. -/
def tableLength (o : OpenObject) (offset : Nat) : Nat :=
  (o.fields.map fun f => offset - f.offset + f.size).foldl max 4

/-- The position of a slot's field in a table at `offset`; zero if nothing is stored in the slot. -/
def entry (o : OpenObject) (offset slot : Nat) : Nat :=
  match o.fields.find? (·.slot == slot) with
  | some f => offset - f.offset
  | none => 0

/-- The vtable of the table when it is closed at `offset`. -/
def vtable (o : OpenObject) (order : ByteOrder) (offset : Nat) : List UInt8 :=
  VTable.encode order o.slots (o.tableLength offset) (o.entry offset)

end OpenObject

namespace Build

/-- Opens a table with `slots` declared slots. -/
def startObject (slots : Nat) : Build Unit := do
  requireIdle .startObject
  if VTable.maxSlots < slots then reject .fieldCount
  setStage (.object ⟨← offset, slots, []⟩)

/-- Refuses a slot that is not declared or that has its field already. -/
def requireFree (op : Operation) (o : OpenObject) (slot : Nat) : Build Unit := do
  if o.slots ≤ slot then reject (.slotOutOfRange op slot o.slots)
  if o.fields.any (·.slot == slot) then misuse (.slotTaken op slot)

/-- The table under construction, if a slot of it is free. -/
def openSlot (op : Operation) (slot : Nat) : Build OpenObject := do
  let o ← openObject op
  requireFree op o slot
  return o

/-- Records that what was written last is the field in `slot`. -/
def storeField (o : OpenObject) (slot size : Nat) : Build Unit := do
  setStage (.object { o with fields := ⟨slot, ← offset, size⟩ :: o.fields })

/-- Adds a scalar field, unless it equals its default and defaults are left out. -/
def addScalar (slot : Nat) (ty : ScalarType) (v default : ty.Value) : Build Unit := do
  let o ← openSlot .addScalar slot
  if ty.equal v default && !(← get).options.forceDefaults then return ()
  let _ ← push ty v
  storeField o slot ty.size

/-- Adds a scalar field whatever its value. -/
def addScalarAlways (slot : Nat) (ty : ScalarType) (v : ty.Value) : Build Unit := do
  let o ← openSlot .addScalarAlways slot
  let _ ← push ty v
  storeField o slot ty.size

/-- Adds a reference to something written before the table was opened. -/
def addOffset {kind : OffsetKind} (slot : Nat) (target : Offset kind) : Build Unit := do
  let o ← openSlot .addOffset slot
  requireWritten .addOffset target.value o.start
  pushReference target.value
  storeField o slot 4

/-- Writes a struct in place. -/
def createStruct (layout : StructLayout) (v : layout.Value) : Build (Offset .struct) := do
  prep layout.align layout.size
  put (layout.encode (← get).order v)
  modify fun b => { b with structSize := layout.size }
  return ⟨← offset⟩

/-- Makes the struct written last, which must be the last thing written, a field. -/
def addStruct (slot : Nat) (struct : Offset .struct) : Build Unit := do
  let o ← openSlot .addStruct slot
  if struct.value ≠ (← offset) ∨ struct.value ≤ o.start then misuse .structNotInline
  storeField o slot (← get).structSize

/-- The offset of an equal vtable written before, if vtables are shared. -/
def sharedVTable? (vtable : List UInt8) : Build (Option Nat) := do
  let b ← get
  if b.options.dedupVTables then
    let (found, vtables) := b.vtables.lookup vtable
    set { b with vtables := vtables }
    return found
  else return none

/-- Writes a vtable, records where, and answers its offset. -/
def writeVTable (vtable : List UInt8) : Build Nat := do
  prep 2 vtable.length
  put vtable
  let position ← offset
  modify fun b => { b with
    vtables := if b.options.dedupVTables then b.vtables.insert vtable position else b.vtables
    vtablesWritten := b.vtablesWritten + 1 }
  return position

/-- Writes over the bytes at an offset. -/
def patch (position : Nat) (bytes : List UInt8) : Build Unit := do
  let b ← get
  match b.arena.overwrite position bytes with
  | .ok arena => set { b with arena := arena }
  | .error failure => throw failure

/-- Closes the table under construction. Its first word is written first, and gets its value, the
distance to the vtable, when that is known. -/
def endObject : Build (Offset .table) := do
  let o ← openObject .endObject
  let table ← push .i32 0
  let length := o.tableLength table
  if 65535 < length then misuse (.objectTooLarge length)
  let order := (← get).order
  let bytes := o.vtable order table
  setStage .idle
  let vtable ← match ← sharedVTable? bytes with
    | some position => pure position
    | none => writeVTable bytes
  patch table (ScalarType.i32.encode order (BitVec.ofInt 32 ((vtable : Int) - table)))
  return ⟨table⟩

/-- Checks that a table closed earlier has a field in a slot. -/
def required (table : Offset .table) (slot : Nat) : Build Unit := do
  let b ← get
  if table.value = 0 ∨ b.offset < table.value then reject .table
  let view : Table := ⟨Image.ofList b.order b.arena.written, b.offset - table.value⟩
  match view.has slot with
  | .ok true => return ()
  | .ok false => fail (.requiredFieldMissing slot)
  | .error failure => throw failure

end Build

end TableBuffer
