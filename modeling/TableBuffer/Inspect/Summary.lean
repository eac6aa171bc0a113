import TableBuffer.Root
import TableBuffer.Text.ByteCount
import TableBuffer.Text.Json

/-!
# Summaries

What there is to say about a buffer without its schema: its frame, and where the fields of its root
table stand. The kind and length of a field are not known, so a field is shown up to the next one.
-/

namespace TableBuffer.Inspect

/-- A field that is present. -/
structure FieldSummary where
  slot : Nat
  /-- The position of the field in the table. -/
  offset : Nat
  /-- The bytes up to the next field, if they are to be shown. -/
  bytes : Option (List UInt8)
  deriving DecidableEq, Repr

/-- A table. Positions count from the root reference, so past a length in front. -/
structure TableSummary where
  position : Nat
  vtablePosition : Nat
  vtableLength : Nat
  tableLength : Nat
  slotCount : Nat
  fields : List FieldSummary
  deriving DecidableEq, Repr

structure Summary where
  fileSize : Nat
  /-- The length in front of a size-prefixed buffer. -/
  sizePrefix : Option Nat
  rootOffset : Nat
  /-- The identifier, if it reads as one. -/
  identifier : Option String
  /-- Whether the identifier is the expected one, if one is expected. -/
  identifierMatches : Option Bool
  root : TableSummary
  deriving DecidableEq, Repr

/-- Where a field that starts at `start` ends: at the next field, or at the end of the table. -/
def fieldEnd (tableLength : Nat) (starts : List Nat) (start : Nat) : Nat :=
  ((tableLength :: starts).filter (start < ·)).min?.getD tableLength

/-- The bytes of a table from `start` up to `stop`; none if they are not in the image. -/
def tableBytes (t : Table) (start stop : Nat) : List UInt8 :=
  if start ≤ stop then (t.image.slice (t.position + start) (stop - start)).toOption.getD [] else []

def TableSummary.ofTable (t : Table) (showBytes : Bool) : Outcome TableSummary := do
  let vtable ← t.vtable
  let tableLength ← vtable.tableLength
  let present ← vtable.present
  let starts := present.map (·.2)
  let vtableLength ← vtable.length
  let slotCount ← vtable.slotCount
  return {
    position := t.position
    vtablePosition := vtable.position
    vtableLength := vtableLength
    tableLength := tableLength
    slotCount := slotCount
    fields := present.map fun (slot, offset) =>
      ⟨slot, offset,
        if showBytes then some (tableBytes t offset (fieldEnd tableLength starts offset)) else none⟩ }

/-- Whether a byte is a visible character of ASCII. -/
def isGraphic (b : UInt8) : Bool := 0x21 ≤ b && b ≤ 0x7E

/-- The text of an identifier, if all of it is visible. -/
def identifierText? (identifier : Identifier) : Option String :=
  if identifier.bytes.all isGraphic then some (Utf8.decodeLossy identifier.bytes) else none

/-- The summary of a buffer that may have its length in front. -/
def Summary.ofImage (m : Image) (expected : Option Identifier) (sizePrefixed showBytes : Bool) :
    Outcome Summary := do
  let root ← if sizePrefixed then m.sizePrefixedRoot else m.root
  let sizePrefix ← if sizePrefixed then some <$> m.word32 0 else pure none
  let body : Image := if sizePrefixed then ⟨m.order, m.bytes.extract 4 m.size⟩ else m
  let rootOffset ← root.image.word32 0
  let table ← TableSummary.ofTable root showBytes
  return {
    fileSize := m.size
    sizePrefix := sizePrefix
    rootOffset := rootOffset
    identifier := body.identifier?.bind identifierText?
    identifierMatches := expected.map body.hasIdentifier
    root := table }

/-- The members that are there, in order. -/
def members (all : List (String × Option Json)) : Json :=
  .object (all.filterMap fun (key, value) => value.map (some key, ·))

def FieldSummary.toJson (f : FieldSummary) : Json :=
  members [
    ("slot", some (.natural f.slot)),
    ("offset", some (.natural f.offset)),
    ("bytes", f.bytes.map fun bytes => .string (some (toSpacedHex bytes)))]

def TableSummary.toJson (t : TableSummary) : Json :=
  members [
    ("position", some (.natural t.position)),
    ("vtable_position", some (.natural t.vtablePosition)),
    ("vtable_len", some (.natural t.vtableLength)),
    ("object_len", some (.natural t.tableLength)),
    ("slot_count", some (.natural t.slotCount)),
    ("fields", some (.array (t.fields.map FieldSummary.toJson)))]

def Summary.toJson (s : Summary) : Json :=
  members [
    ("file_size", some (.natural s.fileSize)),
    ("file_size_human", some (.string (some (byteCountText s.fileSize)))),
    ("size_prefix", s.sizePrefix.map .natural),
    ("root_offset", some (.natural s.rootOffset)),
    ("identifier", s.identifier.map fun text => .string (some text)),
    ("identifier_matches", s.identifierMatches.map .bool),
    ("root", some s.root.toJson)]

end TableBuffer.Inspect
