import TableBuffer.ByteOrder

/-!
# The layout of a vtable

A vtable says where the fields of a table stand: its own length in bytes, the length of the table,
and for each declared slot the position of the field in the table, zero for an absent one. All are
words of two bytes.
-/

namespace TableBuffer.VTable

/-- The words in front of the slot entries. -/
def headerWords : Nat := 2

/-- The most slots whose vtable length a word can hold. -/
def maxSlots : Nat := 65535 / 2 - headerWords

/-- The position of a slot's entry in the vtable; of the first slot not declared, the length. -/
def entryPosition (slot : Nat) : Nat := (slot + headerWords) * 2

/-- The bytes of a vtable whose entry for slot `s` is `entry s`. -/
def encode (order : ByteOrder) (slots tableSize : Nat) (entry : Nat → Nat) : List UInt8 :=
  order.encode 2 (entryPosition slots) ++ order.encode 2 tableSize ++
    (List.range slots).flatMap fun slot => order.encode 2 (entry slot)

@[simp] theorem length_encode (order : ByteOrder) (slots tableSize : Nat) (entry : Nat → Nat) :
    (encode order slots tableSize entry).length = entryPosition slots := by
  have hentries (xs : List Nat) :
      (xs.flatMap fun slot => order.encode 2 (entry slot)).length = 2 * xs.length := by
    induction xs with
    | nil => rfl
    | cons x xs ih => rw [List.flatMap_cons, List.length_append, ih, ByteOrder.length_encode,
        List.length_cons]; omega
  simp only [encode, List.length_append, ByteOrder.length_encode, hentries, List.length_range,
    entryPosition, headerWords]
  omega

end TableBuffer.VTable
