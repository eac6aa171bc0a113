import TableBuffer.Image

/-!
# When an access is answered

A reader is answered if the bytes that it asks for lie inside the image, and the answer is a number of its
width. All else is a fault.
-/

namespace TableBuffer

theorem check_eq_ok_iff {condition : Bool} {cause : Malformation} {u : Unit} :
    check condition cause = .ok u ↔ condition = true := by
  cases condition with
  | true => exact ⟨fun _ => rfl, fun _ => rfl⟩
  | false => exact ⟨nofun, nofun⟩

theorem bind_eq_ok_iff {α β : Type} {x : Outcome α} {k : α → Outcome β} {b : β} :
    (x >>= k) = .ok b ↔ ∃ a, x = .ok a ∧ k a = .ok b := by
  cases x with
  | ok a => exact ⟨fun h => ⟨a, rfl, h⟩, fun ⟨_, ha, h⟩ => Except.ok.inj ha ▸ h⟩
  | error f => exact ⟨nofun, fun ⟨_, h, _⟩ => nomatch h⟩

theorem map_eq_ok_iff {α β : Type} {x : Outcome α} {g : α → β} {b : β} :
    x.map g = .ok b ↔ ∃ a, x = .ok a ∧ g a = b := by
  cases x with
  | ok a => exact ⟨fun h => ⟨a, rfl, Except.ok.inj h⟩, fun ⟨_, ha, h⟩ => Except.ok.inj ha ▸ congrArg _ h⟩
  | error f => exact ⟨nofun, fun ⟨_, h, _⟩ => nomatch h⟩

namespace Image

variable {m : Image} {position : Nat}

theorem exists_slice_iff {start length : Nat} :
    (∃ bytes, m.slice start length = .ok bytes) ↔ start + length ≤ m.size := by
  by_cases hle : start + length ≤ m.size
  · exact ⟨fun _ => hle, fun _ => ⟨_, if_pos hle⟩⟩
  · refine ⟨fun h => ?_, fun h => absurd h hle⟩
    obtain ⟨bytes, hbytes⟩ := h
    rw [slice, if_neg hle] at hbytes
    cases hbytes

theorem scalar_of_le {ty : ScalarType} (h : position + ty.size ≤ m.size) :
    ∃ v, m.scalar ty position = .ok v := by
  obtain ⟨bytes, hbytes⟩ := exists_slice_iff.2 h
  exact ⟨_, map_eq_ok_iff.2 ⟨bytes, hbytes, rfl⟩⟩

theorem le_of_scalar {ty : ScalarType} {v : ty.Value} (h : m.scalar ty position = .ok v) :
    position + ty.size ≤ m.size := by
  obtain ⟨bytes, hbytes, -⟩ := map_eq_ok_iff.1 h
  exact exists_slice_iff.1 ⟨bytes, hbytes⟩

theorem word16_of_le (h : position + 2 ≤ m.size) : ∃ n, m.word16 position = .ok n := by
  obtain ⟨v, hv⟩ := @scalar_of_le m position .u16 h
  exact ⟨_, map_eq_ok_iff.2 ⟨v, hv, rfl⟩⟩

theorem word32_of_le (h : position + 4 ≤ m.size) : ∃ n, m.word32 position = .ok n := by
  obtain ⟨v, hv⟩ := @scalar_of_le m position .u32 h
  exact ⟨_, map_eq_ok_iff.2 ⟨v, hv, rfl⟩⟩

theorem int32_of_le (h : position + 4 ≤ m.size) : ∃ z, m.int32 position = .ok z := by
  obtain ⟨v, hv⟩ := @scalar_of_le m position .i32 h
  exact ⟨_, map_eq_ok_iff.2 ⟨v, hv, rfl⟩⟩

theorem of_word16 {n : Nat} (h : m.word16 position = .ok n) : position + 2 ≤ m.size ∧ n < 65536 := by
  obtain ⟨v, hv, rfl⟩ := map_eq_ok_iff.1 h
  exact ⟨le_of_scalar hv, v.isLt⟩

theorem of_word32 {n : Nat} (h : m.word32 position = .ok n) :
    position + 4 ≤ m.size ∧ n < 4294967296 := by
  obtain ⟨v, hv, rfl⟩ := map_eq_ok_iff.1 h
  exact ⟨le_of_scalar hv, v.isLt⟩

theorem of_int32 {z : Int} (h : m.int32 position = .ok z) :
    position + 4 ≤ m.size ∧ -2147483648 ≤ z ∧ z < 2147483648 := by
  obtain ⟨v, hv, rfl⟩ := map_eq_ok_iff.1 h
  exact ⟨le_of_scalar hv, BitVec.le_toInt v, BitVec.toInt_lt⟩

/-- A word below half of all is the same number if it is read with its sign. -/
theorem int32_of_word32 {n : Nat} (h : m.word32 position = .ok n) (hn : n < 2147483648) :
    m.int32 position = .ok n := by
  obtain ⟨v, hv, hvalue⟩ := map_eq_ok_iff.1 h
  obtain ⟨bytes, hbytes, hdecode⟩ := map_eq_ok_iff.1 hv
  obtain rfl : BitVec.ofNat 32 (m.order.decode bytes) = v := hdecode
  have hsigned : (BitVec.ofNat 32 (m.order.decode bytes)).toInt = n := by
    rw [BitVec.toInt_eq_toNat_of_lt (by omega), hvalue]
  exact map_eq_ok_iff.2 ⟨_, map_eq_ok_iff.2 ⟨bytes, hbytes, rfl⟩, hsigned⟩

theorem getElem?_slice {start length : Nat} {bytes : List UInt8} (h : m.slice start length = .ok bytes)
    {i : Nat} (hi : i < length) : bytes[i]? = m.bytes[start + i]? := by
  unfold slice at h
  split at h
  · rename_i hle
    obtain rfl := Except.ok.inj h
    have hsize : m.size = m.bytes.size := rfl
    rw [Array.getElem?_toList, Array.getElem?_extract_of_lt (by omega)]
    exact (Array.getElem?_eq_getElem (by omega)).symm
  · cases h

/-- The byte at a position as a number. Zero behind the end. -/
def byteAt (m : Image) (position : Nat) : Nat := (m.bytes[position]?.getD 0).toNat

theorem byteAt_of_slice {start length : Nat} {bytes : List UInt8} (h : m.slice start length = .ok bytes)
    {i : Nat} (hi : i < length) {b : UInt8} (hb : bytes[i]? = some b) : m.byteAt (start + i) = b.toNat := by
  rw [byteAt, ← getElem?_slice h hi, hb]
  rfl

theorem bytes_of_word16 {n : Nat} (h : m.word16 position = .ok n) :
    n = match m.order with
      | .little => m.byteAt position + 256 * m.byteAt (position + 1)
      | .big => 256 * m.byteAt position + m.byteAt (position + 1) := by
  obtain ⟨v, hv, hvalue⟩ := map_eq_ok_iff.1 h
  obtain ⟨bytes, hbytes, hdecode⟩ := map_eq_ok_iff.1 hv
  have hlength := length_slice hbytes
  match bytes, hlength with
  | [a, b], _ =>
    have ha : m.byteAt position = a.toNat := byteAt_of_slice hbytes (i := 0) (by decide) rfl
    have hb := byteAt_of_slice hbytes (i := 1) (by decide) rfl
    have hnumber : n = m.order.decode [a, b] := by
      rw [← hvalue, ← hdecode]
      exact Nat.mod_eq_of_lt (m.order.decode_lt [a, b])
    rw [hnumber]
    cases m.order <;> simp [ByteOrder.decode, ofLowBytes] <;> omega

theorem bytes_of_word32 {n : Nat} (h : m.word32 position = .ok n) :
    n = match m.order with
      | .little => m.byteAt position + 256 * (m.byteAt (position + 1) +
          256 * (m.byteAt (position + 2) + 256 * m.byteAt (position + 3)))
      | .big => m.byteAt (position + 3) + 256 * (m.byteAt (position + 2) +
          256 * (m.byteAt (position + 1) + 256 * m.byteAt position)) := by
  obtain ⟨v, hv, hvalue⟩ := map_eq_ok_iff.1 h
  obtain ⟨bytes, hbytes, hdecode⟩ := map_eq_ok_iff.1 hv
  have hlength := length_slice hbytes
  match bytes, hlength with
  | [a, b, c, d], _ =>
    have ha : m.byteAt position = a.toNat := byteAt_of_slice hbytes (i := 0) (by decide) rfl
    have hb := byteAt_of_slice hbytes (i := 1) (by decide) rfl
    have hc := byteAt_of_slice hbytes (i := 2) (by decide) rfl
    have hd := byteAt_of_slice hbytes (i := 3) (by decide) rfl
    have hnumber : n = m.order.decode [a, b, c, d] := by
      rw [← hvalue, ← hdecode]
      exact Nat.mod_eq_of_lt (m.order.decode_lt [a, b, c, d])
    rw [hnumber]
    cases m.order <;> simp [ByteOrder.decode, ofLowBytes] <;> omega

end Image

end TableBuffer
