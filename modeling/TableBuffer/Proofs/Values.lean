import TableBuffer.Proofs.ItemReading
import TableBuffer.Proofs.TableContents
import TableBuffer.Union

/-!
# Value trees

A tree of tables and of what their slots hold, as data. `MadeAt` says that a run of calls built it: each
child by calls that answered the offset which its parent then took, the fields of a table in any order.
`ShownBy` says that the readers find it, each field with the reader of its kind.
-/

namespace TableBuffer

mutual

/-- A table with some slots, of which those not among the fields are absent. -/
inductive TableValue
  | mk (slots : Nat) (fields : List FieldValue)

/-- What one slot of a table holds; a union takes two. -/
inductive FieldValue
  | scalar (slot : Nat) (ty : ScalarType) (v : ty.Value)
  | defaulted (slot : Nat) (ty : ScalarType) (v default : ty.Value)
  | struct (slot : Nat) (type : LawfulLayout) (v : type.Value)
  | string (slot : Nat) (s : String)
  | scalars (slot : Nat) (ty : ScalarType) (items : List ty.Value)
  | strings (slot : Nat) (items : List String)
  | structs (slot : Nat) (type : LawfulLayout) (items : List type.Value)
  | tables (slot : Nat) (items : List TableValue)
  | table (slot : Nat) (value : TableValue)
  | union (typeSlot valueSlot : Nat) (tag : UInt8) (payload : UnionPayload)

inductive UnionPayload
  | table (value : TableValue)
  | string (s : String)
  | struct (type : LawfulLayout) (v : type.Value)

end

def FieldValue.slots : FieldValue → List Nat
  | scalar slot .. | defaulted slot .. | struct slot .. | string slot .. | scalars slot .. | strings slot ..
  | structs slot .. | tables slot .. | table slot .. => [slot]
  | union typeSlot valueSlot .. => [typeSlot, valueSlot]

section Made

variable (events : List Event)

def StringMade (s : String) (o : Nat) : Prop :=
  (.createString s, .ok (.offset o)) ∈ events ∨
    (.createByteString s.toUTF8.toList, .ok (.offset o)) ∈ events

/-- A vector of scalars was written at once or filled one by one, the last one first. -/
inductive ScalarsMade (o : Nat) : (ty : ScalarType) → List ty.Value → Prop
  | whole {ty : ScalarType} {items : List ty.Value}
    (h : (.createVector ty items, .ok (.offset o)) ∈ events) : ScalarsMade o ty items
  | filled {ty : ScalarType} {items : List ty.Value}
    (h : Filled events ty.size items.length (items.map (.push ty)).reverse o) : ScalarsMade o ty items
  | bytes {bytes : List UInt8} (h : (.createByteVector bytes, .ok (.offset o)) ∈ events) :
    ScalarsMade o .u8 (bytes.map UInt8.toBitVec)
  | aligned {bytes : List UInt8} {alignment : Nat}
    (h : (.createByteVectorAligned bytes alignment, .ok (.offset o)) ∈ events) :
    ScalarsMade o .u8 (bytes.map UInt8.toBitVec)
  | nested {bytes : List UInt8} (h : (.createNestedBuffer bytes, .ok (.offset o)) ∈ events) :
    ScalarsMade o .u8 (bytes.map UInt8.toBitVec)

inductive StructsMade (o : Nat) (type : LawfulLayout) (items : List type.Value) : Prop
  | whole (h : (.createVectorOfStructs type.toStructLayout items, .ok (.offset o)) ∈ events)
  | filled (hpos : 0 < type.size)
    (h : Filled events type.size items.length (items.map (.createStruct type.toStructLayout)).reverse o)

/-- A vector of references was written at once or filled one by one, the last one first. -/
inductive ReferencesMade (o : Nat) (targets : List Nat) : Prop
  | whole (h : (.createVectorOfOffsets targets, .ok (.offset o)) ∈ events)
  | filled (h : Filled events 4 targets.length (targets.map .pushOffset).reverse o)

end Made

mutual

/-- The calls of a run built the table at the offset, and stored nothing in it but its fields. -/
def TableValue.MadeAt (options : Options) (events : List Event) : TableValue → Nat → Prop
  | .mk slots fields, o => ∃ inside, TableSpan events slots inside o ∧
    (∀ s ∈ storedBy options inside, s.1 ∈ fields.flatMap FieldValue.slots) ∧
    FieldValue.AllMadeIn options events inside fields

/-- The calls between the opening and the closing of a table added the field, whose children the run
built. -/
def FieldValue.MadeIn (options : Options) (events inside : List Event) : FieldValue → Prop
  | .scalar slot ty v => (.addScalarAlways slot ty v, .ok .done) ∈ inside
  | .defaulted slot ty v default => (.addScalar slot ty v default, .ok .done) ∈ inside ∧
    (Build.Elided options ty v default → slot ∉ (storedBy options inside).map Prod.fst)
  | .struct slot type v => ∃ o, (.createStruct type.toStructLayout v, .ok (.offset o)) ∈ inside ∧
    (.addStruct slot o, .ok .done) ∈ inside
  | .string slot s => ∃ o, StringMade events s o ∧ (.addOffset slot o, .ok .done) ∈ inside
  | .scalars slot ty items => ∃ o, ScalarsMade events o ty items ∧ (.addOffset slot o, .ok .done) ∈ inside
  | .strings slot items => ∃ (o : Nat) (made : List (String × Nat)), items = made.map Prod.fst ∧
    (∀ p ∈ made, StringMade events p.1 p.2) ∧ ReferencesMade events o (made.map Prod.snd) ∧
    (.addOffset slot o, .ok .done) ∈ inside
  | .structs slot type items => ∃ o, StructsMade events o type items ∧
    (.addOffset slot o, .ok .done) ∈ inside
  | .tables slot items => ∃ o offsets, TableValue.AllMadeAt options events items offsets ∧
    ReferencesMade events o offsets ∧ (.addOffset slot o, .ok .done) ∈ inside
  | .table slot value => ∃ o, value.MadeAt options events o ∧ (.addOffset slot o, .ok .done) ∈ inside
  | .union typeSlot valueSlot tag payload => ∃ o htag, payload.MadeAt options events o ∧
    (.addUnion typeSlot valueSlot (.some tag ⟨o⟩ htag), .ok .done) ∈ inside

def UnionPayload.MadeAt (options : Options) (events : List Event) : UnionPayload → Nat → Prop
  | .table value, o => value.MadeAt options events o
  | .string s, o => StringMade events s o
  | .struct type v, o => (.createStruct type.toStructLayout v, .ok (.offset o)) ∈ events

def FieldValue.AllMadeIn (options : Options) (events inside : List Event) : List FieldValue → Prop
  | [] => True
  | field :: fields => field.MadeIn options events inside ∧ FieldValue.AllMadeIn options events inside fields

def TableValue.AllMadeAt (options : Options) (events : List Event) : List TableValue → List Nat → Prop
  | [], [] => True
  | value :: values, o :: offsets => value.MadeAt options events o ∧
    TableValue.AllMadeAt options events values offsets
  | _, _ => False

end

/-- Every reader of the slot finds nothing. -/
def Table.Lacks (t : Table) (slot : Nat) : Prop :=
  t.has slot = .ok false ∧ ∀ {α : Type} (read : Nat → Outcome α), t.readField slot read = .ok none

/-- The readers of the scalar in the slot find the value, whatever the default. -/
def Table.Gives (t : Table) (ty : ScalarType) (slot : Nat) (v : ty.Value) : Prop :=
  t.scalar? ty slot = .ok (some v) ∧ ∀ default, t.scalar ty slot default = .ok v

mutual

/-- A reader finds the table with all its slots and in them the fields, and nothing in the other slots. -/
def TableValue.ShownBy (options : Options) : TableValue → Table → Prop
  | .mk slots fields, t => (∃ v, t.vtable = .ok v ∧ v.slotCount = .ok slots) ∧
    (∀ slot, slot ∉ fields.flatMap FieldValue.slots → t.Lacks slot) ∧ FieldValue.AllShownBy options t fields

/-- The readers of its kind find the field. In place of a scalar that was left out they find none, or the
default, which is equal to it. -/
def FieldValue.ShownBy (options : Options) (t : Table) : FieldValue → Prop
  | .scalar slot ty v => t.Gives ty slot v
  | .defaulted slot ty v default =>
    if Build.Elided options ty v default then t.Lacks slot ∧ t.scalar ty slot default = .ok default
    else t.Gives ty slot v
  | .struct slot type v => t.record? type.toStructLayout slot = .ok (some v)
  | .string slot s => t.string? slot = .ok (some s)
  | .scalars slot ty items => ∃ v, t.vector? (.scalar ty) slot = .ok (some v) ∧ v.Holds items
  | .strings slot items => ∃ v, t.vector? .string slot = .ok (some v) ∧ v.Holds (items.map .ok)
  | .structs slot type items => ∃ v, t.vector? (.struct type.toStructLayout) slot = .ok (some v) ∧
    v.Holds items
  | .tables slot items => ∃ v tables, t.vector? .table slot = .ok (some v) ∧ v.Holds tables ∧
    TableValue.AllShownBy options items tables
  | .table slot value => ∃ u, t.table? slot = .ok (some u) ∧ value.ShownBy options u
  | .union typeSlot valueSlot tag payload => ∃ u, t.union? typeSlot valueSlot = .ok (some u) ∧
    u.tag = tag ∧ payload.ShownBy options u

def UnionPayload.ShownBy (options : Options) : UnionPayload → UnionRef → Prop
  | .table value, u => value.ShownBy options u.asTable
  | .string s, u => u.asString = .ok s
  | .struct type v, u => u.asStruct.decode type.toStructLayout = .ok v

def FieldValue.AllShownBy (options : Options) (t : Table) : List FieldValue → Prop
  | [] => True
  | field :: fields => field.ShownBy options t ∧ FieldValue.AllShownBy options t fields

def TableValue.AllShownBy (options : Options) : List TableValue → List Table → Prop
  | [], [] => True
  | value :: values, t :: tables => value.ShownBy options t ∧ TableValue.AllShownBy options values tables
  | _, _ => False

end

end TableBuffer
