import TableBuffer.Table

/-!
# Reading a vector

A vector is a count and as many elements of one size in a row. What an element is, is a rule of its
own: `Element` says how many bytes it takes and how it is read.
-/

namespace TableBuffer

/-- How the elements of a vector are laid out and read. -/
structure Element (α : Type) where
  inlineSize : Nat
  read : Image → Nat → Outcome α

structure Vector (α : Type) where
  element : Element α
  image : Image
  position : Nat
  length : Nat

namespace Vector

variable {α : Type}

/-- The vector whose count stands at a position. -/
def ofPosition (element : Element α) (image : Image) (position : Nat) : Outcome (Vector α) := do
  let length ← image.word32 position
  return ⟨element, image, position, length⟩

def isEmpty (v : Vector α) : Bool := v.length == 0

/-- The position of the element at an index. -/
def elementPosition (v : Vector α) (index : Nat) : Nat :=
  v.position + 4 + index * v.element.inlineSize

/-- The element at an index; none past the end. -/
def get? (v : Vector α) (index : Nat) : Outcome (Option α) :=
  if index < v.length then do
    let a ← v.element.read v.image (v.elementPosition index)
    return some a
  else return none

/-- The elements from an index on, `count` of them, after those `seen`, latest first. The first that
cannot be read ends the walk, so a length that is not true costs nothing. -/
def readFrom (v : Vector α) (index : Nat) (seen : List α) : (count : Nat) → Outcome (List α)
  | 0 => return seen.reverse
  | count + 1 => do
    let a ← v.element.read v.image (v.elementPosition index)
    v.readFrom (index + 1) (a :: seen) count

/-- All elements. -/
def toList (v : Vector α) : Outcome (List α) := v.readFrom 0 [] v.length

/-- The bytes of all elements. -/
def dataBytes (v : Vector α) : Outcome (List UInt8) :=
  v.image.slice (v.position + 4) (v.length * v.element.inlineSize)

/-- How a vector shows itself. -/
def text (v : Vector α) : String :=
  "Vector \x7b loc: " ++ toString v.position ++ ", len: " ++ toString v.length ++ " \x7d"

end Vector

namespace Element

def scalar (ty : ScalarType) : Element ty.Value := ⟨ty.size, fun image => image.scalar ty⟩

def struct (layout : StructLayout) : Element layout.Value :=
  ⟨layout.size, fun image position => StructRef.decode ⟨image, position⟩ layout⟩

/-- A reference to what `read` reads. -/
def reference {α : Type} (read : Image → Nat → Outcome α) : Element α :=
  ⟨4, fun image position => do
    let target ← image.target position
    read image target⟩

/-- A string, or why the bytes of one are no text. -/
def string : Element (Except Error String) := reference Image.text

def bytes : Element (List UInt8) := reference Image.byteRun

def table : Element Table := reference fun image position => return ⟨image, position⟩

def vector {α : Type} (element : Element α) : Element (Vector α) := reference (Vector.ofPosition element)

end Element

/-- A vector field. -/
def Table.vector? {α : Type} (t : Table) (element : Element α) (slot : Nat) : Outcome (Option (Vector α)) :=
  t.readTarget slot (Vector.ofPosition element t.image)

end TableBuffer
