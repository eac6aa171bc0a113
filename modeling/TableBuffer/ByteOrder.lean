/-!
# Byte order

Numbers as runs of bytes, in either order. `decode_encode` says that a number is read back modulo
the values its width can hold, `encode_decode` that every run of bytes is the encoding of its value.
-/

namespace TableBuffer

/-- The order of the bytes of a number; one order holds for a whole buffer. -/
inductive ByteOrder
  | little
  | big
  deriving DecidableEq, Repr

/-- The `width` low bytes of `n`, least significant first. -/
def lowBytes : Nat → Nat → List UInt8
  | 0, _ => []
  | width + 1, n => UInt8.ofNat n :: lowBytes width (n / 256)

/-- The number whose bytes are given least significant first. -/
def ofLowBytes : List UInt8 → Nat
  | [] => 0
  | b :: bs => b.toNat + 256 * ofLowBytes bs

/-- The number of values that `width` bytes can hold. -/
def valueCount : (width : Nat) → Nat
  | 0 => 1
  | width + 1 => 256 * valueCount width

@[simp] theorem length_lowBytes (width n : Nat) : (lowBytes width n).length = width := by
  induction width generalizing n with
  | zero => rfl
  | succ width ih => simp [lowBytes, ih]

theorem ofLowBytes_lowBytes (width n : Nat) : ofLowBytes (lowBytes width n) = n % valueCount width := by
  induction width generalizing n with
  | zero => simp [lowBytes, ofLowBytes, valueCount, Nat.mod_one]
  | succ width ih =>
    have hbyte : (UInt8.ofNat n).toNat = n % 256 := UInt8.toNat_ofNat'
    rw [lowBytes, ofLowBytes, ih, hbyte, valueCount, Nat.mod_mul]

theorem ofLowBytes_lt (bs : List UInt8) : ofLowBytes bs < valueCount bs.length := by
  induction bs with
  | nil => simp [ofLowBytes, valueCount]
  | cons b bs ih =>
    have hb := b.toNat_lt
    simp only [ofLowBytes, List.length_cons, valueCount]
    omega

theorem lowBytes_ofLowBytes (bs : List UInt8) : lowBytes bs.length (ofLowBytes bs) = bs := by
  induction bs with
  | nil => rfl
  | cons b bs ih =>
    have hb := b.toNat_lt
    have hdiv : (b.toNat + 256 * ofLowBytes bs) / 256 = ofLowBytes bs := by omega
    have hbyte : UInt8.ofNat (b.toNat + 256 * ofLowBytes bs) = b := by
      have hn : (UInt8.ofNat (b.toNat + 256 * ofLowBytes bs)).toNat
          = (b.toNat + 256 * ofLowBytes bs) % 256 := UInt8.toNat_ofNat'
      exact UInt8.toNat_inj.1 (hn.trans (by omega))
    rw [List.length_cons, lowBytes, ofLowBytes, hbyte, hdiv, ih]

namespace ByteOrder

/-- The low bytes of `n` in this order, lowest address first. -/
def encode (order : ByteOrder) (width n : Nat) : List UInt8 :=
  match order with
  | little => lowBytes width n
  | big => (lowBytes width n).reverse

/-- The number that bytes in this order stand for. -/
def decode (order : ByteOrder) (bs : List UInt8) : Nat :=
  match order with
  | little => ofLowBytes bs
  | big => ofLowBytes bs.reverse

@[simp] theorem length_encode (order : ByteOrder) (width n : Nat) :
    (order.encode width n).length = width := by
  cases order <;> simp [encode]

@[simp] theorem decode_encode (order : ByteOrder) (width n : Nat) :
    order.decode (order.encode width n) = n % valueCount width := by
  cases order <;> simp [encode, decode, ofLowBytes_lowBytes]

theorem decode_lt (order : ByteOrder) (bs : List UInt8) : order.decode bs < valueCount bs.length := by
  cases order
  · exact ofLowBytes_lt bs
  · simpa [decode] using ofLowBytes_lt bs.reverse

theorem encode_decode (order : ByteOrder) (bs : List UInt8) :
    order.encode bs.length (order.decode bs) = bs := by
  cases order
  · exact lowBytes_ofLowBytes bs
  · have h := lowBytes_ofLowBytes bs.reverse
    rw [List.length_reverse] at h
    simp [encode, decode, h]

end ByteOrder

end TableBuffer
