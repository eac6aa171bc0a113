import TableBuffer.Mutation
import TableBuffer.Proofs.Overwriting
import TableBuffer.Proofs.TableContents

/-!
# Items that can be changed in place

A scalar or a reference in the slot of a table, an element of a vector, a scalar of a struct. Readers and
writers reach an item through the slot of a table; `Item.FoundAt` says what that comes to: the scalar at one
position of the image is read, or written over.
-/

namespace TableBuffer

/-- What can be changed in place. Tables, vectors and structs are named by their offsets. -/
inductive Item
  | scalar (table slot : Nat) (ty : ScalarType)
  | reference (table slot : Nat)
  | element (vector index : Nat) (ty : ScalarType)
  | member (struct : Nat) (field : StructField)
  deriving DecidableEq

namespace Item

/-- The scalar that is stored for the item. -/
def type : Item → ScalarType
  | scalar _ _ ty | element _ _ ty => ty
  | reference .. => .u32
  | member _ field => field.type

/-- What the item holds for its readers. A reference holds the position that it leads to. -/
def Value : Item → Type
  | scalar _ _ ty | element _ _ ty => ty.Value
  | reference .. => Nat
  | member _ field => field.type.Value

def isReference : Item → Bool
  | reference .. => true
  | scalar .. | element .. | member .. => false

/-- What the scalar means that is stored at a position. -/
def ofStored (position : Nat) : (item : Item) → item.type.Value → item.Value
  | scalar .., v | element .., v | member .., v => v
  | reference .., v => position + BitVec.toNat v

/-- The scalar that is stored at a position. -/
def toStored (position : Nat) : (item : Item) → item.Value → item.type.Value
  | scalar .., v | element .., v | member .., v => v
  | reference .., (target : Nat) => BitVec.ofNat 32 (target - position)

/-- A reference at a position can be made to lead to what lies after it in an image of the size. -/
def Takes (position size : Nat) : (item : Item) → item.Value → Prop
  | scalar .., _ | element .., _ | member .., _ => True
  | reference .., (target : Nat) => position < target ∧ target < size

/-- The position of the item, reached through a slot. None if the slot is empty. -/
def position? (t : Table) (slot : Nat) : Item → Outcome (Option Nat)
  | scalar .. | reference .. => t.fieldPosition? slot
  | element _ index ty => return (← t.vector? (.scalar ty) slot).map (·.elementPosition index)
  | member _ field => return (← t.struct? slot).map (·.position + field.position)

/-- Reads the item through a slot. -/
def get (t : Table) (slot : Nat) : (item : Item) → Outcome (Option item.Value)
  | scalar _ _ ty => t.scalar? ty slot
  | reference .. => t.target? slot
  | element _ index ty => do
    match ← t.vector? (.scalar ty) slot with
    | none => return none
    | some v => v.get? index
  | member _ field => do
    match ← t.struct? slot with
    | none => return none
    | some s => return some (← s.get field.type field.position)

/-- Changes the item through a slot. None if there is nothing to change. -/
def set (t : Table) (slot : Nat) : (item : Item) → item.Value → Outcome (Option Image)
  | scalar _ _ ty, v => t.setScalar ty slot v
  | reference .., target => t.setTarget slot target
  | element _ index ty, v => t.setElement ty slot index v
  | member _ field, v => do
    match ← t.struct? slot with
    | none => return none
    | some s => return some (← s.set field.type field.position v)

variable {item : Item} {position size : Nat}

theorem ofStored_toStored {v : item.Value} (h : item.Takes position size v) (hsize : size ≤ maxBufferSize) :
    item.ofStored position (item.toStored position v) = v := by
  cases item with
  | reference table slot =>
    change Nat at v
    obtain ⟨hafter, hinside⟩ := h
    have hsmall : maxBufferSize < 4294967296 := by decide
    show position + (BitVec.ofNat 32 (v - position)).toNat = v
    rw [BitVec.toNat_ofNat, Nat.mod_eq_of_lt (by omega)]
    omega
  | scalar | element | member => rfl

theorem toStored_ofStored (v : item.type.Value) :
    item.toStored position (item.ofStored position v) = v := by
  cases item with
  | reference table slot =>
    change BitVec 32 at v
    show BitVec.ofNat 32 (position + v.toNat - position) = v
    rw [Nat.add_sub_cancel_left, BitVec.ofNat_toNat]
    exact BitVec.setWidth_eq v
  | scalar | element | member => rfl

/-- What is no reference takes any value. -/
theorem takes_of_not_reference (h : item.isReference = false) (v : item.Value) :
    item.Takes position size v := by
  cases item with
  | reference => cases h
  | scalar | element | member => trivial

/-- Through the slot of the table the item is read and written at the position. -/
structure FoundAt (m : Image) (table slot position : Nat) (item : Item) : Prop where
  position?_eq : item.position? ⟨m, table⟩ slot = .ok (some position)
  get_eq : item.get ⟨m, table⟩ slot =
    (m.scalar item.type position).map fun v => some (item.ofStored position v)
  set_eq : ∀ v, item.Takes position m.size v → item.set ⟨m, table⟩ slot v =
    (m.writeScalar item.type position (item.toStored position v)).map some

section Found

variable {m : Image} {table slot : Nat} (hfield : ∀ {α : Type} (read : Nat → Outcome α),
  Table.readField ⟨m, table⟩ slot read = (read position).map some)

include hfield

theorem fieldPosition?_of_readField : Table.fieldPosition? ⟨m, table⟩ slot = .ok (some position) := by
  have hread := hfield pure
  rw [Table.readField] at hread
  cases hposition : Table.fieldPosition? ⟨m, table⟩ slot with
  | error f =>
    rw [hposition] at hread
    cases hread
  | ok place =>
    rw [hposition] at hread
    cases place with
    | none => cases hread
    | some p => exact hread

theorem foundAt_scalar (ty : ScalarType) {table' slot' : Nat} :
    FoundAt m table slot position (.scalar table' slot' ty) where
  position?_eq := fieldPosition?_of_readField hfield
  get_eq := hfield _
  set_eq _ _ := hfield _

theorem foundAt_reference (hsize : m.size ≤ maxBufferSize) {table' slot' : Nat} :
    FoundAt m table slot position (.reference table' slot') where
  position?_eq := fieldPosition?_of_readField hfield
  get_eq := by
    refine (hfield _).trans ?_
    show (m.target position >>= pure).map some =
      (m.scalar .u32 position).map fun v : BitVec 32 => some (position + v.toNat)
    rw [Image.target, Image.word32]
    cases m.scalar .u32 position <;> rfl
  set_eq v hv := by
    change Nat at v
    obtain ⟨hafter, hinside⟩ := hv
    have hreach : v - position < valueCount 4 := by
      have hsmall : maxBufferSize < valueCount 4 := by decide
      exact Nat.lt_of_le_of_lt (Nat.sub_le ..) (Nat.lt_trans hinside (Nat.lt_of_le_of_lt hsize hsmall))
    show Table.setTarget ⟨m, table⟩ slot v = _
    rw [Table.setTarget, fieldPosition?_of_readField hfield, ok_bind]
    dsimp only
    rw [if_pos ⟨hafter, hinside, hreach⟩]
    show (m.writeScalar .u32 position (BitVec.ofNat 32 (v - position)) >>= fun image => pure (some image)) =
      (m.writeScalar .u32 position (BitVec.ofNat 32 (v - position))).map some
    cases m.writeScalar .u32 position (BitVec.ofNat 32 (v - position)) <;> rfl

theorem foundAt_member {struct : Nat} (field : StructField) :
    FoundAt m table slot (position + field.position) (.member struct field) := by
  have hstruct : Table.struct? ⟨m, table⟩ slot = .ok (some ⟨m, position⟩) := hfield _
  refine ⟨?_, ?_, fun v _ => ?_⟩
  · rw [position?, hstruct]
    rfl
  · rw [get, hstruct, ok_bind]
    show (m.scalar field.type (position + field.position) >>= fun v => pure (some v)) =
      (m.scalar field.type (position + field.position)).map some
    cases m.scalar field.type (position + field.position) <;> rfl
  · rw [set, hstruct, ok_bind]
    show (m.writeScalar field.type (position + field.position) v >>= fun image => pure (some image)) =
      (m.writeScalar field.type (position + field.position) v).map some
    cases m.writeScalar field.type (position + field.position) v <;> rfl

theorem foundAt_element (ty : ScalarType) {target count vector index : Nat}
    (htarget : m.target position = .ok target) (hcount : m.word32 target = .ok count)
    (hindex : index < count) :
    FoundAt m table slot (target + 4 + index * ty.size) (.element vector index ty) := by
  have hvector : Table.vector? ⟨m, table⟩ (.scalar ty) slot = .ok (some ⟨.scalar ty, m, target, count⟩) := by
    refine (hfield _).trans ?_
    show (m.target position >>= Vector.ofPosition (.scalar ty) m).map some = _
    rw [htarget, ok_bind, Vector.ofPosition, hcount]
    rfl
  refine ⟨?_, ?_, fun v _ => ?_⟩
  · rw [position?, hvector]
    rfl
  · rw [get, hvector, ok_bind]
    show Vector.get? _ index = _
    rw [Vector.get?, if_pos hindex]
    show (m.scalar ty (target + 4 + index * ty.size) >>= fun v => pure (some v)) =
      (m.scalar ty (target + 4 + index * ty.size)).map some
    cases m.scalar ty (target + 4 + index * ty.size) <;> rfl
  · change ty.Value at v
    show Table.setElement _ ty slot index v = _
    rw [Table.setElement, hvector, ok_bind]
    dsimp only
    rw [if_pos hindex]
    show (m.writeScalar ty (target + 4 + index * ty.size) v >>= fun image => pure (some image)) =
      (m.writeScalar ty (target + 4 + index * ty.size) v).map some
    cases m.writeScalar ty (target + 4 + index * ty.size) v <;> rfl

end Found

section Bytes

variable {order : ByteOrder} {w : List UInt8} {table slot o : Nat}
  (h : FoundAt (Image.ofList order w) table slot position item) (hposition : position = w.length - o)

include h hposition

/-- The item is read from the bytes that stand for it. -/
theorem FoundAt.get_of_standsAt {v : item.type.Value} (hv : StandsAt w o (item.type.encode order v)) :
    item.get ⟨Image.ofList order w, table⟩ slot = .ok (some (item.ofStored position v)) := by
  rw [h.get_eq, hposition, scalar_of_standsAt hv]
  rfl

/-- Changing the item writes over the bytes that stand for it. -/
theorem FoundAt.set_ofList (hle : o ≤ w.length) (hsize : item.type.size ≤ o) {v : item.Value}
    (hv : item.Takes position w.length v) :
    item.set ⟨Image.ofList order w, table⟩ slot v = .ok (some (Image.ofList order
      (overwritten w o (item.type.encode order (item.toStored position v))))) := by
  have hnew : (item.type.encode order (item.toStored position v)).length ≤ o := by
    rwa [ScalarType.length_encode]
  have hwrite := writeScalar_ofList hle hnew order item.type (item.toStored position v) rfl
  rw [← hposition] at hwrite
  rw [h.set_eq v (by rwa [size_ofList]), hwrite]
  rfl

end Bytes

end Item

end TableBuffer
