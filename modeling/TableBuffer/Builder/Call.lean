import TableBuffer.Builder.Finish
import TableBuffer.Builder.Union
import TableBuffer.Builder.Vector

/-!
# Calls as data

Every call that a builder takes, its reply, and runs of calls. A run goes on after an error, in the
state that the failed call left; a fault ends it.
-/

namespace TableBuffer

inductive Call
  | reset
  | prep (size additional : Nat)
  | pad (n : Nat)
  | push (ty : ScalarType) (v : ty.Value)
  | pushOffset (target : Nat)
  | startObject (slots : Nat)
  | addScalar (slot : Nat) (ty : ScalarType) (v default : ty.Value)
  | addScalarAlways (slot : Nat) (ty : ScalarType) (v : ty.Value)
  | addOffset (slot target : Nat)
  | createStruct (layout : StructLayout) (v : layout.Value)
  | addStruct (slot struct : Nat)
  | addUnion (typeSlot valueSlot : Nat) (union : UnionOffset)
  | endObject
  | required (table slot : Nat)
  | startVector (elementSize count alignment : Nat)
  | endVector
  | createVector (ty : ScalarType) (items : List ty.Value)
  | createByteVector (bytes : List UInt8)
  | createByteVectorAligned (bytes : List UInt8) (alignment : Nat)
  | createVectorOfOffsets (targets : List Nat)
  | createVectorOfStructs (layout : StructLayout) (items : List layout.Value)
  | createString (s : String)
  | createByteString (bytes : List UInt8)
  | createNestedBuffer (bytes : List UInt8)
  | finish (root : Nat) (identifier : Option Identifier)
  | finishSizePrefixed (root : Nat) (identifier : Option Identifier)
  | finishedData

/-- What a call answers. -/
inductive Reply
  | done
  | offset (value : Nat)
  | bytes (bytes : List UInt8)
  deriving DecidableEq, Repr

namespace Build

/-- A step that answers nothing. -/
def silent (step : Build Unit) : Build Reply := do
  step
  return .done

/-- A step that answers an offset. -/
def located {kind : OffsetKind} (step : Build (Offset kind)) : Build Reply := do
  let o ← step
  return .offset o.value

/-- A step that answers the offset of what it wrote. -/
def placed (step : Build Nat) : Build Reply := do
  let position ← step
  return .offset position

end Build

open Build in
/-- The step that a call stands for. -/
def Call.step : Call → Build Reply
  | reset => silent (modify Builder.reset)
  | prep size additional => silent (Build.prep size additional)
  | pad n => silent (Build.pad n)
  | push ty v => placed (Build.push ty v)
  | pushOffset target => placed (Build.pushOffset (⟨target⟩ : Offset .table))
  | startObject slots => silent (Build.startObject slots)
  | addScalar slot ty v default => silent (Build.addScalar slot ty v default)
  | addScalarAlways slot ty v => silent (Build.addScalarAlways slot ty v)
  | addOffset slot target => silent (Build.addOffset slot (⟨target⟩ : Offset .table))
  | createStruct layout v => located (Build.createStruct layout v)
  | addStruct slot struct => silent (Build.addStruct slot ⟨struct⟩)
  | addUnion typeSlot valueSlot union => silent (Build.addUnion typeSlot valueSlot union)
  | endObject => located Build.endObject
  | required table slot => silent (Build.required ⟨table⟩ slot)
  | startVector elementSize count alignment => silent (Build.startVector elementSize count alignment)
  | endVector => located Build.endVector
  | createVector ty items => located (Build.createVector ty items)
  | createByteVector bytes => located (Build.createByteVector bytes)
  | createByteVectorAligned bytes alignment => located (Build.createByteVectorAligned bytes alignment)
  | createVectorOfOffsets targets =>
    located (Build.createVectorOfOffsets (targets.map fun t => (⟨t⟩ : Offset .table)))
  | createVectorOfStructs layout items => located (Build.createVectorOfStructs layout items)
  | createString s => located (Build.createString s)
  | createByteString bytes => located (Build.createByteString bytes)
  | createNestedBuffer bytes => located (Build.createNestedBuffer bytes)
  | finish root identifier => silent (Build.finish ⟨root⟩ identifier)
  | finishSizePrefixed root identifier => silent (Build.finishSizePrefixed ⟨root⟩ identifier)
  | finishedData => do
    match (← get).finishedData with
    | .ok bytes => return .bytes bytes
    | .error e => fail e

namespace Builder

/-- The outcome of a call and the builder after it. -/
def call (b : Builder) (c : Call) : Outcome Reply × Builder :=
  match c.step b with
  | .ok reply b => (.ok reply, b)
  | .error failure b => (.error failure, b)

/-- The outcomes of calls in a row, up to the first fault, and the builder after them. -/
def run (b : Builder) : List Call → List (Outcome Reply) × Builder
  | [] => ([], b)
  | c :: rest =>
    match b.call c with
    | (.error .fault, b) => ([.error .fault], b)
    | (outcome, b) =>
      let (outcomes, b) := run b rest
      (outcome :: outcomes, b)

end Builder

end TableBuffer
