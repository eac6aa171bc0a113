import TableBuffer.ByteOrder

/-!
# Scalars

The eleven scalar types, their values and their bytes. A float is kept as its IEEE bit pattern, so
that a NaN keeps its payload. `decode_encode` says that every value is read back bit for bit.
-/

namespace TableBuffer

/-- The widths of an integer. -/
inductive Width
  | w8
  | w16
  | w32
  | w64
  deriving DecidableEq, Repr

abbrev Width.bytes : Width → Nat
  | w8 => 1
  | w16 => 2
  | w32 => 4
  | w64 => 8

/-- The IEEE 754 binary formats. -/
inductive FloatFormat
  | single
  | double
  deriving DecidableEq, Repr

namespace FloatFormat

abbrev bytes : FloatFormat → Nat
  | single => 4
  | double => 8

/-- The bits below the exponent. -/
def fractionBits : FloatFormat → Nat
  | single => 23
  | double => 52

def exponentBits : FloatFormat → Nat
  | single => 8
  | double => 11

/-- The pattern without its sign. -/
def magnitude (f : FloatFormat) (bits : Nat) : Nat := bits % 1 <<< (f.fractionBits + f.exponentBits)

/-- The magnitude of infinity: all exponent bits set, no fraction bit. -/
def infinity (f : FloatFormat) : Nat := (1 <<< f.exponentBits - 1) <<< f.fractionBits

def isNaN (f : FloatFormat) (bits : Nat) : Bool := f.infinity < f.magnitude bits

/-- Equality of floats: a NaN equals nothing, and the two zeros are equal. -/
def equal (f : FloatFormat) (a b : Nat) : Bool :=
  !f.isNaN a && !f.isNaN b && (a == b || f.magnitude a == 0 && f.magnitude b == 0)

end FloatFormat

inductive ScalarType
  | bool
  | unsigned (width : Width)
  | signed (width : Width)
  | float (format : FloatFormat)
  deriving DecidableEq, Repr

namespace ScalarType

abbrev u8 : ScalarType := unsigned .w8
abbrev u16 : ScalarType := unsigned .w16
abbrev u32 : ScalarType := unsigned .w32
abbrev i32 : ScalarType := signed .w32

/-- The bytes a value takes, which is also its alignment. -/
abbrev size : ScalarType → Nat
  | bool => 1
  | unsigned w => w.bytes
  | signed w => w.bytes
  | float f => f.bytes

/-- The values of a type: a truth value, or as many bits as the type has. -/
abbrev Value : ScalarType → Type
  | bool => Bool
  | unsigned w => BitVec (8 * w.bytes)
  | signed w => BitVec (8 * w.bytes)
  | float f => BitVec (8 * f.bytes)

/-- The number that stands for a value in a buffer. -/
def toNat : (ty : ScalarType) → ty.Value → Nat
  | bool, b => b.toNat
  | unsigned _, v => v.toNat
  | signed _, v => v.toNat
  | float _, v => v.toNat

/-- The value that a number in a buffer stands for. Any number but zero is true. -/
def ofNat : (ty : ScalarType) → Nat → ty.Value
  | bool, n => n != 0
  | unsigned _, n => BitVec.ofNat _ n
  | signed _, n => BitVec.ofNat _ n
  | float _, n => BitVec.ofNat _ n

/-- Equality as the scalar's own type has it, which for floats is not equality of bits. -/
def equal : (ty : ScalarType) → ty.Value → ty.Value → Bool
  | bool, a, b => a == b
  | unsigned _, a, b => a == b
  | signed _, a, b => a == b
  | float f, a, b => f.equal a.toNat b.toNat

def encode (order : ByteOrder) (ty : ScalarType) (v : ty.Value) : List UInt8 :=
  order.encode ty.size (ty.toNat v)

def decode (order : ByteOrder) (ty : ScalarType) (bs : List UInt8) : ty.Value :=
  ty.ofNat (order.decode bs)

theorem size_pos (ty : ScalarType) : 0 < ty.size := by
  cases ty with
  | bool => decide
  | unsigned w => cases w <;> decide
  | signed w => cases w <;> decide
  | float f => cases f <;> decide

/-- Every size is a power of two up to eight. -/
theorem size_cases (ty : ScalarType) : ty.size = 1 ∨ ty.size = 2 ∨ ty.size = 4 ∨ ty.size = 8 := by
  cases ty with
  | bool => decide
  | unsigned w => cases w <;> decide
  | signed w => cases w <;> decide
  | float f => cases f <;> decide

theorem toNat_lt (ty : ScalarType) (v : ty.Value) : ty.toNat v < valueCount ty.size := by
  cases ty with
  | bool => cases v <;> decide
  | unsigned w => cases w <;> exact BitVec.isLt v
  | signed w => cases w <;> exact BitVec.isLt v
  | float f => cases f <;> exact BitVec.isLt v

theorem ofNat_toNat (ty : ScalarType) (v : ty.Value) : ty.ofNat (ty.toNat v) = v := by
  cases ty with
  | bool => cases v <;> rfl
  | unsigned w => exact BitVec.ofNat_toNat _ v |>.trans (BitVec.setWidth_eq v)
  | signed w => exact BitVec.ofNat_toNat _ v |>.trans (BitVec.setWidth_eq v)
  | float f => exact BitVec.ofNat_toNat _ v |>.trans (BitVec.setWidth_eq v)

@[simp] theorem length_encode (order : ByteOrder) (ty : ScalarType) (v : ty.Value) :
    (ty.encode order v).length = ty.size :=
  ByteOrder.length_encode ..

@[simp] theorem decode_encode (order : ByteOrder) (ty : ScalarType) (v : ty.Value) :
    ty.decode order (ty.encode order v) = v := by
  rw [decode, encode, ByteOrder.decode_encode, Nat.mod_eq_of_lt (ty.toNat_lt v), ofNat_toNat]

end ScalarType

end TableBuffer
