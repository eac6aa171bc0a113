import TableBuffer.Arena
import TableBuffer.Offset
import TableBuffer.Options
import TableBuffer.Scalar
import TableBuffer.VTable.Cache

/-!
# The builder

A builder writes a buffer from its end to its front: first what others refer to, then the tables that
refer to it. At any time it is at one `Stage`. The steps that all calls are made of are here: they
check the stage, make room, pad and put bytes in front. A step that fails leaves behind what it has
done so far.
-/

namespace TableBuffer

/-- A field of the table under construction. -/
structure StoredField where
  slot : Nat
  /-- The offset of its first byte. -/
  offset : Nat
  size : Nat
  deriving DecidableEq, Repr

/-- A table under construction. -/
structure OpenObject where
  /-- What was written before it. -/
  start : Nat
  /-- The number of declared slots. -/
  slots : Nat
  /-- The fields so far, the latest first. -/
  fields : List StoredField
  deriving DecidableEq, Repr

/-- A vector under construction. -/
structure OpenVector where
  count : Nat
  /-- What was written before its elements. -/
  start : Nat
  dataLength : Nat
  deriving DecidableEq, Repr

/-- What a builder is in the middle of. -/
inductive Stage
  | idle
  | object (o : OpenObject)
  | vector (v : OpenVector)
  /-- The root is written, and nothing may follow. -/
  | finished
  deriving DecidableEq, Repr

structure Builder where
  order : ByteOrder
  options : Options
  arena : Arena
  /-- The strictest alignment asked for so far. -/
  minAlign : Nat
  stage : Stage
  vtables : VTableCache
  /-- The number of vtables in the buffer; a shared one counts once. -/
  vtablesWritten : Nat
  /-- The size of the struct written last. -/
  structSize : Nat

namespace Builder

/-- A builder with nothing written, for options that are known to be valid. -/
def ofOptions (order : ByteOrder) (options : Options) : Builder where
  order := order
  options := options
  arena := .empty options.initialCapacity options.maxSize
  minAlign := 1
  stage := .idle
  vtables := .empty
  vtablesWritten := 0
  structSize := 0

/-- A builder with standard options. -/
def new (order : ByteOrder) : Builder := ofOptions order .standard

def withOptions (order : ByteOrder) (options : Options) : Except Error Builder := do
  options.validate
  return ofOptions order options

/-- The number of bytes written. -/
def offset (b : Builder) : Nat := b.arena.size

def isFinished (b : Builder) : Bool := b.stage == .finished

/-- Forgets all that is written and keeps the room. -/
def reset (b : Builder) : Builder :=
  { b with
    arena := b.arena.clear
    minAlign := 1
    stage := .idle
    vtables := .empty
    vtablesWritten := 0
    structSize := 0 }

end Builder

/-- A step of a builder. Its state outlives a failure. -/
abbrev Build := EStateM Failure Builder

namespace Build

variable {α : Type}

def fail (e : Error) : Build α := throw (.error e)

def reject (cause : BadArgument) : Build α := fail (.invalidArgument cause)

def misuse (cause : Misuse) : Build α := fail (.invalidOperation cause)

def fault : Build α := throw .fault

/-- The number of bytes written. -/
def offset : Build Nat := return (← get).offset

def setStage (stage : Stage) : Build Unit := modify fun b => { b with stage := stage }

def requireUnfinished : Build Unit := do
  if (← get).isFinished then fail .alreadyFinished

/-- Refuses a call unless nothing is under construction. -/
def requireIdle (op : Operation) : Build Unit := do
  match (← get).stage with
  | .idle => return ()
  | .object _ => misuse (.objectOpen op)
  | .vector _ => misuse (.vectorOpen op)
  | .finished => fail .alreadyFinished

/-- The table under construction. -/
def openObject (op : Operation) : Build OpenObject := do
  match (← get).stage with
  | .object o => return o
  | .finished => fail .alreadyFinished
  | _ => misuse (.noObject op)

/-- Refuses a reference to anything but data written before `bound`. -/
def requireWritten (op : Operation) (target bound : Nat) : Build Unit :=
  if target = 0 ∨ bound < target then misuse (.notWritten op target bound) else return ()

/-- Makes room for `n` more bytes. -/
def reserve (n : Nat) : Build Unit := do
  let b ← get
  match b.arena.reserve n with
  | .ok arena => set { b with arena := arena }
  | .error failure => throw failure

/-- Puts bytes in front, in room that is there. -/
def put (bytes : List UInt8) : Build Unit := do
  let b ← get
  match b.arena.prepend bytes with
  | .ok arena => set { b with arena := arena }
  | .error failure => throw failure

/-- Puts a word of four bytes in front. -/
def putWord (n : Nat) : Build Unit := do
  let b ← get
  put (b.order.encode 4 n)

def putZeros (n : Nat) : Build Unit := put (List.replicate n 0)

/-- Pads so that `size` bytes written after `additional` further ones stand at a multiple of `size`, and
makes room for all of them. A fault if a sum of these numbers is no machine word. -/
def prep (size additional : Nat) : Build Unit := do
  requireUnfinished
  if !isPowerOfTwo size then reject .size
  modify fun b => { b with minAlign := max b.minAlign size }
  let length := (← offset) + additional
  let total := padding length size + size + additional
  if wordLimit ≤ length ∨ wordLimit ≤ total then fault
  reserve total
  putZeros (padding length size)

/-- Writes `n` zero bytes. -/
def pad (n : Nat) : Build Unit := do
  requireUnfinished
  reserve n
  putZeros n

/-- Writes an aligned scalar and answers its offset. -/
def push (ty : ScalarType) (v : ty.Value) : Build Nat := do
  prep ty.size 0
  put (ty.encode (← get).order v)
  offset

/-- Writes an aligned reference to `target`, as the distance from where the reference stands. -/
def pushReference (target : Nat) : Build Unit := do
  prep 4 0
  putWord ((← offset) - target + 4)

/-- Writes an aligned reference to something written earlier and answers its offset. -/
def pushOffset {kind : OffsetKind} (target : Offset kind) : Build Nat := do
  requireWritten .pushOffset target.value (← offset)
  pushReference target.value
  offset

end Build

end TableBuffer
