import TableBuffer.Text.Utf8

/-!
# Errors

What can go wrong when a buffer is built or read, by cause, and the text of each cause. A call that
does not answer either reports an `Error` or is a fault: it reaches outside the bytes it is given, or
its numbers leave the machine word.
-/

namespace TableBuffer

/-- The four bytes that name the format of a finished buffer. -/
structure Identifier where
  bytes : List UInt8
  length_eq : bytes.length = 4
  deriving DecidableEq

/-- Four zero bytes, which stand in for a missing identifier. -/
def Identifier.zero : Identifier := ⟨[0, 0, 0, 0], rfl⟩

def Identifier.ofBytes? (bytes : List UInt8) : Option Identifier :=
  if h : bytes.length = 4 then some ⟨bytes, h⟩ else none

/-- The builder calls that error texts name. -/
inductive Operation
  | pushOffset
  | startObject
  | addScalar
  | addScalarAlways
  | addOffset
  | addStruct
  | addUnion
  | endObject
  | startVector
  | createVectorOfOffsets
  | createString
  | finish
  | finishedData
  | intoFinished
  deriving DecidableEq, Repr

def Operation.name : Operation → String
  | pushOffset => "push_offset"
  | startObject => "start_object"
  | addScalar => "add_scalar"
  | addScalarAlways => "add_scalar_always"
  | addOffset => "add_offset"
  | addStruct => "add_struct"
  | addUnion => "add_union"
  | endObject => "end_object"
  | startVector => "start_vector"
  | createVectorOfOffsets => "create_vector_of_offsets"
  | createString => "create_string"
  | finish => "finish"
  | finishedData => "finished_data"
  | intoFinished => "into_finished"

/-- Arguments that no builder accepts. -/
inductive BadArgument
  /-- An alignment that is no power of two. -/
  | size
  | fieldCount
  /-- No table ends at this distance from the end. -/
  | table
  | alignment
  | structSize
  /-- A union value with the tag that stands for no value. -/
  | tag
  /-- One slot for both halves of a union. -/
  | sharedSlot
  | noMaxSize
  | maxSizeTooLarge
  | initialCapacity
  | slotOutOfRange (op : Operation) (slot slots : Nat)
  | elementCount (count : Nat)
  | other (name text : String)
  deriving DecidableEq, Repr

namespace BadArgument

def name : BadArgument → String
  | size => "size"
  | fieldCount => "num_fields"
  | table => "table"
  | alignment => "alignment"
  | structSize => "struct_size"
  | tag => "tag"
  | sharedSlot => "value_slot"
  | noMaxSize => "max_size"
  | maxSizeTooLarge => "max_size"
  | initialCapacity => "initial_capacity"
  | slotOutOfRange .. => "slot"
  | elementCount _ => "num_elems"
  | other name _ => name

/-- The condition that the argument breaks, or what is wrong with it. -/
def text : BadArgument → String
  | size => "size.is_power_of_two()"
  | fieldCount => "num_fields as usize <= MAX_VTABLE_FIELDS"
  | table => "table.value() != 0 && table.value() as usize <= written.len()"
  | alignment => "alignment.is_power_of_two() && alignment <= LARGEST_SCALAR_SIZE"
  | structSize => "S::SIZE > 0"
  | tag => "tag != 0"
  | sharedSlot => "value_slot != type_slot"
  | noMaxSize => "self.max_size > 0"
  | maxSizeTooLarge => "self.max_size <= MAX_BUFFER_SIZE"
  | initialCapacity => "self.initial_capacity <= self.max_size"
  | slotOutOfRange op slot slots =>
    op.name ++ ": slot " ++ toString slot ++ " out of range for an object with " ++ toString slots
      ++ " fields"
  | elementCount count => toString count ++ " elements overflow"
  | other _ text => text

end BadArgument

/-- Calls out of order. -/
inductive Misuse
  | notFinished (op : Operation)
  | objectOpen (op : Operation)
  | vectorOpen (op : Operation)
  | noObject (op : Operation)
  | noVector
  /-- An offset that names no data written before `bound`. -/
  | notWritten (op : Operation) (target bound : Nat)
  | slotTaken (op : Operation) (slot : Nat)
  | structNotInline
  | objectTooLarge (size : Nat)
  | vectorSize (written expected count : Nat)
  | other (text : String)
  deriving DecidableEq, Repr

def Misuse.text : Misuse → String
  | notFinished op => op.name ++ ": buffer is not finished"
  | objectOpen op => op.name ++ ": object serialization must not be nested"
  | vectorOpen op => op.name ++ ": a vector is under construction"
  | noObject op => op.name ++ ": no object is under construction"
  | noVector => "end_vector: no vector is under construction"
  | notWritten op target bound =>
    op.name ++ ": offset " ++ toString target ++ " does not refer to data written before "
      ++ toString bound
  | slotTaken op slot => op.name ++ ": slot " ++ toString slot ++ " is already set"
  | structNotInline => "add_struct: struct must be serialized inline, right before it is added"
  | objectTooLarge size =>
    "end_object: object of " ++ toString size ++ " bytes is too large for a vtable"
  | vectorSize written expected count =>
    "end_vector: " ++ toString written ++ " bytes written, expected " ++ toString expected ++ " for "
      ++ toString count ++ " elements"
  | other text => text

/-- The ways in which bytes are no buffer. -/
inductive Malformation
  /-- No room for the root offset. -/
  | rootMissing
  /-- No room for the length in front of a size-prefixed buffer. -/
  | sizeMissing
  /-- The stated length is not there. -/
  | sizeTooLarge
  | tablePosition
  | vtablePosition
  /-- A vtable length that is odd or leaves no room for its two header words. -/
  | vtableLength
  | vtablePastEnd
  | objectLength
  | objectPastEnd
  | text (fault : Utf8.Fault)
  | other (element reason : String)
  deriving DecidableEq, Repr

namespace Malformation

/-- The part of the buffer that is wrong. -/
def element : Malformation → String
  | rootMissing => "buffer_len"
  | sizeMissing => "buffer_len"
  | sizeTooLarge => "size_prefix"
  | tablePosition => "table_position"
  | vtablePosition => "vtable_position"
  | vtableLength => "vtable_len"
  | vtablePastEnd => "vtable_len"
  | objectLength => "object_len"
  | objectPastEnd => "object_len"
  | text _ => "string"
  | other element _ => element

/-- The condition that the part breaks. -/
def message : Malformation → String
  | rootMissing => "buf.len() >= SIZE_UOFFSET"
  | sizeMissing => "buf.len() >= SIZE_PREFIX_LENGTH"
  | sizeTooLarge => "size <= buf.len() - SIZE_PREFIX_LENGTH"
  | tablePosition => "loc.checked_add(SIZE_SOFFSET).is_some_and(|end| end <= buf.len())"
  | vtablePosition => "vtable_loc >= 0 && vtable_loc as usize + 2 * SIZE_VOFFSET <= buf.len()"
  | vtableLength => "vtable_len >= 2 * SIZE_VOFFSET && vtable_len % SIZE_VOFFSET == 0"
  | vtablePastEnd => "vtable.loc() + vtable_len <= buf.len()"
  | objectLength => "object_len >= SIZE_SOFFSET"
  | objectPastEnd => "loc + object_len <= buf.len()"
  | text fault => fault.message
  | other _ reason => reason

end Malformation

inductive Error
  | invalidArgument (cause : BadArgument)
  | invalidOperation (cause : Misuse)
  | alreadyFinished
  | invalidFormat (cause : Malformation)
  | requiredFieldMissing (slot : Nat)
  | identifierMismatch (expected actual : Identifier)
  /-- A size past the limit was asked for. -/
  | bufferTooLarge (requested limit : Nat)
  /-- A union of which only one half is there. -/
  | unionMismatch (tag : UInt8)
  deriving DecidableEq

namespace Error

def message : Error → String
  | invalidArgument cause => "invalid argument " ++ cause.name ++ ": " ++ cause.text
  | invalidOperation cause => "invalid operation " ++ cause.text
  | alreadyFinished => "buffer is already finished"
  | invalidFormat cause =>
    "invalid buffer format for '" ++ cause.element ++ "': " ++ cause.message
  | requiredFieldMissing slot => "required field at slot " ++ toString slot ++ " must be set"
  | identifierMismatch expected actual =>
    "file identifier mismatch: expected " ++ Utf8.decodeLossy expected.bytes ++ ", found "
      ++ Utf8.decodeLossy actual.bytes
  | bufferTooLarge requested limit =>
    "buffer cannot grow to " ++ toString requested ++ " bytes (maximum is " ++ toString limit ++ ")"
  | unionMismatch tag =>
    "union discriminator " ++ toString tag.toNat ++ " does not agree with its payload"

/-- Whether the error reports calls out of order rather than bad data. -/
def isConstruction : Error → Bool
  | invalidOperation _ => true
  | alreadyFinished => true
  | _ => false

end Error

/-- How a call ends without an answer. -/
inductive Failure
  | error (e : Error)
  | fault
  deriving DecidableEq

/-- The answer of a call that keeps no state. -/
abbrev Outcome := Except Failure

/-- Reports bad data unless a condition holds. -/
def check (condition : Bool) (cause : Malformation) : Outcome Unit :=
  if condition then .ok () else .error (.error (.invalidFormat cause))

end TableBuffer
