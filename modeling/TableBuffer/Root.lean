import TableBuffer.Table

/-!
# The root of a buffer

A buffer begins with a reference to its root table, and an identifier may follow. In front of all may
stand the length of the rest. The root table is checked before it is handed out: its vtable and its
fields lie inside the buffer.
-/

namespace TableBuffer

/-- The table at a position, if it and its vtable lie inside the image. -/
def Image.checkedTable (m : Image) (position : Nat) : Outcome Table := do
  check (position + 4 ≤ m.size) .tablePosition
  let distance ← m.int32 position
  let vtablePosition := (position : Int) - distance
  check (0 ≤ vtablePosition && vtablePosition.toNat + 4 ≤ m.size) .vtablePosition
  let vtable : VTable := ⟨m, vtablePosition.toNat⟩
  let length ← vtable.length
  check (4 ≤ length && length % 2 == 0) .vtableLength
  check (vtable.position + length ≤ m.size) .vtablePastEnd
  let tableLength ← vtable.tableLength
  check (4 ≤ tableLength) .objectLength
  check (position + tableLength ≤ m.size) .objectPastEnd
  return ⟨m, position⟩

/-- The root table. -/
def Image.root (m : Image) : Outcome Table := do
  check (4 ≤ m.size) .rootMissing
  let position ← m.target 0
  m.checkedTable position

/-- The four bytes after the reference to the root. -/
def Image.identifier? (m : Image) : Option Identifier :=
  Identifier.ofBytes? (m.bytes.extract 4 8).toList

def Image.hasIdentifier (m : Image) (identifier : Identifier) : Bool :=
  m.identifier? == some identifier

/-- The root table of a buffer that carries an identifier. A missing one reads as zeros. -/
def Image.rootWithIdentifier (m : Image) (identifier : Identifier) : Outcome Table := do
  let actual := m.identifier?.getD .zero
  if actual ≠ identifier then throw (.error (.identifierMismatch identifier actual))
  m.root

/-- The part of a buffer that the length in front of it covers. -/
def Image.sizePrefixed (m : Image) : Outcome Image := do
  check (4 ≤ m.size) .sizeMissing
  let size ← m.word32 0
  check (size ≤ m.size - 4) .sizeTooLarge
  return ⟨m.order, m.bytes.extract 4 (4 + size)⟩

/-- The root table of a buffer with its length in front. -/
def Image.sizePrefixedRoot (m : Image) : Outcome Table := do
  let body ← m.sizePrefixed
  body.root

def Image.sizePrefixedHasIdentifier (m : Image) (identifier : Identifier) : Bool :=
  match m.sizePrefixed with
  | .ok body => body.hasIdentifier identifier
  | .error _ => false

/-- The bytes of a buffer embedded in a field. -/
def Table.nestedBuffer? (t : Table) (slot : Nat) : Outcome (Option Image) := do
  let bytes ← t.bytes? slot
  return bytes.map (Image.ofList t.image.order)

/-- The root table of a buffer embedded in a field. -/
def Table.nestedRoot? (t : Table) (slot : Nat) : Outcome (Option Table) := do
  match ← t.nestedBuffer? slot with
  | none => return none
  | some image =>
    let root ← image.root
    return some root

end TableBuffer
