import TableBuffer.Options
import TableBuffer.Proofs.Distance
import TableBuffer.Root
import TableBuffer.Vector

/-!
# Reading what stands at a distance

What a reader finds in the image of some written bytes, at the position that is as far from the end as
the offset a builder answered. `TableAt` says what a table is in these terms.
-/

namespace TableBuffer

theorem ok_bind {α β : Type} (a : α) (k : α → Outcome β) : (Except.ok a >>= k) = k a := rfl

theorem check_of_true {condition : Bool} (h : condition = true) (cause : Malformation) :
    check condition cause = .ok () := if_pos h

section Numbers

variable {order : ByteOrder} {written : List UInt8} {offset : Nat}

theorem size_ofList (order : ByteOrder) (written : List UInt8) :
    (Image.ofList order written).size = written.length :=
  List.size_toArray

theorem scalar_of_standsAt {ty : ScalarType} {v : ty.Value}
    (h : StandsAt written offset (ty.encode order v)) :
    (Image.ofList order written).scalar ty (written.length - offset) = .ok v := by
  have hs := slice_of_standsAt order h
  rw [ScalarType.length_encode] at hs
  rw [Image.scalar, hs]
  exact congrArg Except.ok (ty.decode_encode order v)

theorem word16_of_standsAt {n : Nat} (hn : n < 65536) (h : StandsAt written offset (order.encode 2 n)) :
    (Image.ofList order written).word16 (written.length - offset) = .ok n := by
  have hnat : (BitVec.ofNat 16 n).toNat = n := by
    rw [BitVec.toNat_ofNat]
    exact Nat.mod_eq_of_lt hn
  have henc : order.encode 2 n = ScalarType.u16.encode order (BitVec.ofNat 16 n) := by
    show _ = order.encode 2 (BitVec.ofNat 16 n).toNat
    rw [hnat]
  rw [henc] at h
  rw [Image.word16, scalar_of_standsAt h]
  exact congrArg Except.ok hnat

/-- A number that fits in a word is stored as the word. -/
theorem encode_word32 (order : ByteOrder) {n : Nat} (hn : n < 4294967296) :
    ScalarType.u32.encode order (BitVec.ofNat 32 n) = order.encode 4 n := by
  show order.encode 4 (BitVec.ofNat 32 n).toNat = _
  rw [BitVec.toNat_ofNat, Nat.mod_eq_of_lt hn]

/-- A word of four bytes reads as the number it was written for, but for what does not fit. -/
theorem word32_of_encode {order : ByteOrder} {written : List UInt8} {offset n : Nat}
    (h : StandsAt written offset (order.encode 4 n)) :
    (Image.ofList order written).word32 (written.length - offset) = .ok (BitVec.ofNat 32 (n % valueCount 4)).toNat := by
  have hslice := slice_of_standsAt order h
  rw [ByteOrder.length_encode] at hslice
  rw [Image.word32, Image.scalar]
  dsimp only [ScalarType.u32, ScalarType.size]
  rw [hslice]
  show Except.ok (BitVec.ofNat 32 (order.decode (order.encode 4 n))).toNat = _
  rw [ByteOrder.decode_encode]

theorem word32_of_standsAt {n : Nat} (hn : n < 4294967296)
    (h : StandsAt written offset (order.encode 4 n)) :
    (Image.ofList order written).word32 (written.length - offset) = .ok n := by
  rw [← encode_word32 order hn] at h
  rw [Image.word32, scalar_of_standsAt h]
  exact congrArg Except.ok ((BitVec.toNat_ofNat ..).trans (Nat.mod_eq_of_lt hn))

theorem int32_of_standsAt {z : Int} (hlo : -2147483648 ≤ z) (hhi : z < 2147483648)
    (h : StandsAt written offset (ScalarType.i32.encode order (BitVec.ofInt 32 z))) :
    (Image.ofList order written).int32 (written.length - offset) = .ok z := by
  have hint : (BitVec.ofInt 32 z).toInt = z := BitVec.toInt_ofInt_eq_self (by decide) hlo hhi
  rw [Image.int32, scalar_of_standsAt h]
  exact congrArg Except.ok hint

/-- A reference holds the distance from where it stands to its target. -/
theorem target_of_referenceAt {target : Nat} (hlen : written.length < 4294967296)
    (h : ReferenceAt order written offset target) :
    (Image.ofList order written).target (written.length - offset) = .ok (written.length - target) := by
  have htarget := h.1
  have hle := h.2.offset_le
  have hword := word32_of_standsAt (by omega) h.2
  have hsum : written.length - offset + (offset - target) = written.length - target := by omega
  rw [Image.target, hword]
  exact congrArg Except.ok hsum

/-- A run of bytes stands behind its length. -/
theorem byteRun_of_standsAt {bytes : List UInt8} (hlen : written.length < 4294967296)
    (h : StandsAt written offset (order.encode 4 bytes.length ++ bytes)) :
    (Image.ofList order written).byteRun (written.length - offset) = .ok bytes := by
  have hle := h.offset_le
  have hlong := h.length_le
  rw [List.length_append, ByteOrder.length_encode] at hlong
  have hword := word32_of_standsAt (by omega) h.left
  have hbytes := slice_of_standsAt_append order h
  rw [ByteOrder.length_encode] at hbytes
  rw [Image.byteRun, hword]
  exact hbytes

end Numbers

/-- A table of `slots` slots and `length` bytes stands at `table` and its vtable at `vtable`. The field in
a slot is `entry slot` bytes into the table. -/
structure TableAt (order : ByteOrder) (written : List UInt8) (table vtable slots length : Nat)
    (entry : Nat → Nat) : Prop where
  distance : StandsAt written table
    (ScalarType.i32.encode order (BitVec.ofInt 32 ((vtable : Int) - table)))
  layout : StandsAt written vtable (VTable.encode order slots length entry)
  slots_le : slots ≤ VTable.maxSlots
  length_ge : 4 ≤ length
  length_le : length ≤ 65535
  inside : length ≤ table
  entry_lt : ∀ slot, entry slot < 65536

namespace TableAt

variable {order : ByteOrder} {written : List UInt8} {table vtable slots length : Nat}
  {entry : Nat → Nat}

theorem mono {written' : List UInt8} (h : TableAt order written table vtable slots length entry)
    (hw : written <:+ written') : TableAt order written' table vtable slots length entry :=
  { h with distance := h.distance.mono hw, layout := h.layout.mono hw }

section

variable (h : TableAt order written table vtable slots length entry)

include h

theorem entryPosition_le : VTable.entryPosition slots ≤ vtable := by
  have hlen := h.layout.length_le
  rwa [VTable.length_encode] at hlen

theorem entryPosition_lt : VTable.entryPosition slots < 65536 := by
  have hslots := h.slots_le
  simp only [VTable.maxSlots, VTable.headerWords, VTable.entryPosition] at hslots ⊢
  omega

theorem vtable_length : VTable.length ⟨Image.ofList order written, written.length - vtable⟩ =
    .ok (VTable.entryPosition slots) := by
  have hlayout := h.layout
  rw [VTable.encode, List.append_assoc] at hlayout
  exact word16_of_standsAt h.entryPosition_lt hlayout.left

theorem vtable_tableLength :
    VTable.tableLength ⟨Image.ofList order written, written.length - vtable⟩ = .ok length := by
  have hroom := h.entryPosition_le
  have hlayout := h.layout
  rw [VTable.encode, List.append_assoc] at hlayout
  have hword := word16_of_standsAt (Nat.lt_succ_of_le h.length_le) hlayout.right.left
  simp only [VTable.entryPosition, VTable.headerWords] at hroom
  rw [ByteOrder.length_encode, StandsAt.position_sub (by omega) h.layout.offset_le] at hword
  exact hword

theorem slotCount :
    VTable.slotCount ⟨Image.ofList order written, written.length - vtable⟩ = .ok slots := by
  have hcount : VTable.entryPosition slots / 2 - VTable.headerWords = slots := by
    simp only [VTable.entryPosition, VTable.headerWords]
    omega
  rw [VTable.slotCount, h.vtable_length]
  exact congrArg Except.ok hcount

/-- The whole vtable is read back. -/
theorem vtable_bytes : VTable.bytes ⟨Image.ofList order written, written.length - vtable⟩ =
    .ok (VTable.encode order slots length entry) := by
  have hslice := slice_of_standsAt order h.layout
  rw [VTable.length_encode] at hslice
  rw [VTable.bytes, h.vtable_length]
  exact hslice

theorem vtable_entry (slot : Nat) :
    VTable.entry ⟨Image.ofList order written, written.length - vtable⟩ slot =
      .ok (if slot < slots then entry slot else 0) := by
  have hiff : VTable.entryPosition slot < VTable.entryPosition slots ↔ slot < slots := by
    simp only [VTable.entryPosition, VTable.headerWords]
    omega
  rw [VTable.entry, h.vtable_length]
  show (if VTable.entryPosition slot < VTable.entryPosition slots then _ else _) = _
  by_cases hslot : slot < slots
  · have hroom := h.entryPosition_le
    have hpos := hiff.2 hslot
    have hitem := h.layout.right.item (fun s => order.length_encode 2 (entry s))
      (List.getElem?_range hslot)
    have hplace : vtable - (order.encode 2 (VTable.entryPosition slots) ++
        order.encode 2 length).length - slot * 2 = vtable - VTable.entryPosition slot := by
      simp only [List.length_append, ByteOrder.length_encode, VTable.entryPosition,
        VTable.headerWords] at hroom ⊢
      omega
    rw [hplace] at hitem
    have hword := word16_of_standsAt (h.entry_lt slot) hitem
    rw [StandsAt.position_sub (by omega) h.layout.offset_le] at hword
    rw [if_pos hpos, if_pos hslot]
    exact hword
  · rw [if_neg fun hlt => hslot (hiff.1 hlt), if_neg hslot]
    rfl

section

variable (hsize : written.length ≤ maxBufferSize)

include hsize

theorem int32_table : (Image.ofList order written).int32 (written.length - table) =
    .ok ((vtable : Int) - table) := by
  have htable := h.distance.offset_le
  have hvtable := h.layout.offset_le
  have hsmall : written.length ≤ 2147483647 := hsize
  exact int32_of_standsAt (by omega) (by omega) h.distance

theorem table_vtable : Table.vtable ⟨Image.ofList order written, written.length - table⟩ =
    .ok ⟨Image.ofList order written, written.length - vtable⟩ := by
  have htable := h.distance.offset_le
  have hvtable := h.layout.offset_le
  have hpos : ((written.length - table : Nat) : Int) - ((vtable : Int) - table) =
      ((written.length - vtable : Nat) : Int) := by
    omega
  rw [Table.vtable, h.int32_table hsize]
  show (if ((written.length - table : Nat) : Int) - ((vtable : Int) - table) < 0 then _ else _) = _
  rw [hpos, if_neg (by omega)]
  rfl

/-- The table passes every check. -/
theorem checkedTable : (Image.ofList order written).checkedTable (written.length - table) =
    .ok ⟨Image.ofList order written, written.length - table⟩ := by
  have htable := h.distance.offset_le
  have hvtable := h.layout.offset_le
  have hroom := h.entryPosition_le
  have hge := h.length_ge
  have hinside := h.inside
  have hfour : 4 ≤ VTable.entryPosition slots := by
    simp only [VTable.entryPosition, VTable.headerWords]
    omega
  have heven : VTable.entryPosition slots % 2 = 0 := Nat.mul_mod_left ..
  have hpos : ((written.length - table : Nat) : Int) - ((vtable : Int) - table) =
      ((written.length - vtable : Nat) : Int) := by
    omega
  rw [Image.checkedTable, size_ofList, check_of_true (by simp; omega), ok_bind, h.int32_table hsize,
    ok_bind, hpos]
  dsimp only
  rw [Int.toNat_natCast]
  rw [check_of_true (by simp; omega), ok_bind, h.vtable_length, ok_bind]
  rw [check_of_true (by simp [hfour, heven]), ok_bind, check_of_true (by simp; omega), ok_bind]
  rw [h.vtable_tableLength, ok_bind, check_of_true (by simpa using hge), ok_bind,
    check_of_true (by simp; omega), ok_bind]
  rfl

theorem fieldOffset (slot : Nat) :
    Table.fieldOffset ⟨Image.ofList order written, written.length - table⟩ slot =
      .ok (if slot < slots then entry slot else 0) := by
  rw [Table.fieldOffset, h.table_vtable hsize]
  exact h.vtable_entry slot

theorem has (slot : Nat) : Table.has ⟨Image.ofList order written, written.length - table⟩ slot =
    .ok (decide (slot < slots ∧ entry slot ≠ 0)) := by
  rw [Table.has, h.fieldOffset hsize]
  apply congrArg Except.ok
  by_cases hslot : slot < slots
  · by_cases hentry : entry slot = 0
    · simp [hslot, hentry]
    · simp [hslot, hentry]
  · simp [hslot]

/-- The reader of a field finds the bytes that the field's own offset names. -/
theorem readField {α : Type} {slot offset : Nat} (hslot : slot < slots) (hoffset : offset < table)
    (hentry : entry slot = table - offset) (read : Nat → Outcome α) :
    Table.readField ⟨Image.ofList order written, written.length - table⟩ slot read =
      (read (written.length - offset)).map some := by
  have htable := h.distance.offset_le
  have hpos : written.length - table + (table - offset) = written.length - offset := by omega
  have hne : table - offset ≠ 0 := by omega
  have hfield : Table.fieldPosition? ⟨Image.ofList order written, written.length - table⟩ slot =
      .ok (some (written.length - offset)) := by
    rw [Table.fieldPosition?, h.fieldOffset hsize, if_pos hslot, hentry]
    show Except.ok (if table - offset = 0 then none else _) = _
    rw [if_neg hne, hpos]
  rw [Table.readField, hfield]
  cases hread : read (written.length - offset) <;> simp only [bind, Except.bind, hread] <;> rfl

end

end

end TableAt

end TableBuffer
