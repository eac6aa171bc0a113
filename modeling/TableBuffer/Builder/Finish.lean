import TableBuffer.Builder.Object

/-!
# Finishing a buffer

The reference to the root table comes to stand at the front, before an identifier if there is one.
The padding after them brings the whole to a multiple of the strictest alignment, so that what is
aligned from the end is aligned from the start as well. A size-prefixed buffer has the length of the
rest in front of all.
-/

namespace TableBuffer.Build

def finishWith (root : Offset .table) (identifier : Option Identifier) (sizePrefixed : Bool) :
    Build Unit := do
  requireIdle .finish
  requireWritten .finish root.value (← offset)
  let align := max (← get).minAlign 4
  prep align (4 + (if identifier.isSome then 4 else 0) + (if sizePrefixed then 4 else 0))
  match identifier with
  | some id => put id.bytes
  | none => pure ()
  pushReference root.value
  if sizePrefixed then
    let size ← offset
    reserve 4
    putWord size
  setStage .finished

def finish (root : Offset .table) (identifier : Option Identifier) : Build Unit :=
  finishWith root identifier false

def finishSizePrefixed (root : Offset .table) (identifier : Option Identifier) : Build Unit :=
  finishWith root identifier true

end TableBuffer.Build

namespace TableBuffer.Builder

/-- The bytes of the buffer, for the call that asks for them. -/
def finishedBytes (b : Builder) (op : Operation) : Except Error (List UInt8) :=
  if b.isFinished then .ok b.arena.written else .error (.invalidOperation (.notFinished op))

/-- The finished buffer, root reference first. -/
def finishedData (b : Builder) : Except Error (List UInt8) := b.finishedBytes .finishedData

/-- The finished buffer of a builder that is not used again. -/
def intoFinished (b : Builder) : Except Error (List UInt8) := b.finishedBytes .intoFinished

end TableBuffer.Builder
