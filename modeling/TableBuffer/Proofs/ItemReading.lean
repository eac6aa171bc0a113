import TableBuffer.Proofs.Items
import TableBuffer.Proofs.Reading
import TableBuffer.Proofs.StructRoundTrip
import TableBuffer.Proofs.TextRoundTrip

/-!
# Reading strings, structs and vectors

What a reader finds at the offset of a string, a struct or a vector is what was written there. A vector
is read whole or item by item.
-/

namespace TableBuffer

/-- A reader of the vector finds the items and no more. -/
structure Vector.Holds {α : Type} (v : Vector α) (items : List α) : Prop where
  length : v.length = items.length
  get? : ∀ i, v.get? i = .ok items[i]?
  toList : v.toList = .ok items

theorem Vector.readFrom_of_read {α : Type} {v : Vector α} {items : List α} {index : Nat} (seen : List α)
    (h : ∀ i a, items[i]? = some a → v.element.read v.image (v.elementPosition (index + i)) = .ok a) :
    v.readFrom index seen items.length = .ok (seen.reverse ++ items) := by
  induction items generalizing index seen with
  | nil =>
    rw [List.append_nil]
    rfl
  | cons a items ih =>
    have hfirst : v.element.read v.image (v.elementPosition index) = .ok a := h 0 a rfl
    have hrest : v.readFrom (index + 1) (a :: seen) items.length = .ok ((a :: seen).reverse ++ items) := by
      apply ih
      intro i x hx
      rw [Nat.add_assoc, Nat.add_comm 1 i]
      exact h (i + 1) x hx
    rw [List.length_cons, Vector.readFrom, hfirst, ok_bind, hrest, List.reverse_cons, List.append_assoc]
    rfl

theorem Vector.holds_of_read {α : Type} {v : Vector α} {items : List α} (hlength : v.length = items.length)
    (h : ∀ i a, items[i]? = some a → v.element.read v.image (v.elementPosition i) = .ok a) :
    v.Holds items where
  length := hlength
  get? i := by
    rw [Vector.get?]
    by_cases hi : i < v.length
    · have hitem : items[i]? = some items[i] := List.getElem?_eq_getElem (hlength ▸ hi)
      rw [if_pos hi, h i _ hitem, hitem]
      rfl
    · have hnone : items[i]? = none := List.getElem?_eq_none (by omega)
      rw [if_neg hi, hnone]
      rfl
  toList := by
    rw [Vector.toList, hlength]
    refine Vector.readFrom_of_read [] fun i a hi => ?_
    rw [Nat.zero_add]
    exact h i a hi

section Found

variable {order : ByteOrder} {written : List UInt8} {offset : Nat}

theorem VectorAt.of_map {α β : Type} {size : Nat} {items : List α} {f : α → β}
    {stands : List UInt8 → Nat → β → Prop} (h : VectorAt order written offset size (items.map f) stands) :
    VectorAt order written offset size items fun w o a => stands w o (f a) where
  count := by simpa using h.count
  room := by simpa using h.room
  item i a hi := h.item i (f a) (by rw [List.getElem?_map, hi]; rfl)

section Vectors

variable {α : Type} {size : Nat} {items : List α} {stands : List UInt8 → Nat → α → Prop}
  (h : VectorAt order written offset size items stands) (hpos : 0 < size)

include h hpos

theorem VectorAt.ofPosition {β : Type} (element : Element β) (hmax : written.length ≤ maxBufferSize) :
    Vector.ofPosition element (Image.ofList order written) (written.length - offset) =
      .ok ⟨element, Image.ofList order written, written.length - offset, items.length⟩ := by
  have hroom := h.room
  have hoffset := h.count.offset_le
  have hcount : items.length ≤ items.length * size := Nat.le_mul_of_pos_right _ hpos
  have hbound : written.length < 4294967296 := Nat.lt_of_le_of_lt hmax (by decide)
  have hword := word32_of_standsAt (by omega) h.count
  rw [Vector.ofPosition, hword]
  rfl

/-- The place of an item, as a position in the image. -/
theorem VectorAt.position_item {i : Nat} {a : α} (hi : items[i]? = some a) :
    written.length - offset + 4 + i * size = written.length - (offset - 4 - i * size) := by
  have hroom := h.room
  have hoffset := h.count.offset_le
  have hlt : i < items.length := (List.getElem?_eq_some_iff.1 hi).1
  have hinside : i * size < items.length * size := Nat.mul_lt_mul_of_pos_right hlt hpos
  omega

end Vectors

/-- The vector at an offset is found with all its items. -/
theorem VectorAt.holds {α β : Type} {size : Nat} {items : List α} {stands : List UInt8 → Nat → α → Prop}
    (h : VectorAt order written offset size items stands) (element : Element β) (f : α → β)
    (hpos : 0 < size) (hsize : element.inlineSize = size) (hmax : written.length ≤ maxBufferSize)
    (hread : ∀ o, ∀ a ∈ items, stands written o a →
      element.read (Image.ofList order written) (written.length - o) = .ok (f a)) :
    ∃ v, Vector.ofPosition element (Image.ofList order written) (written.length - offset) = .ok v ∧
      v.Holds (items.map f) := by
  refine ⟨_, h.ofPosition hpos element hmax, ?_⟩
  refine Vector.holds_of_read (List.length_map ..).symm fun i x hi => ?_
  rw [List.getElem?_map, Option.map_eq_some_iff] at hi
  obtain ⟨a, ha, rfl⟩ := hi
  rw [Vector.elementPosition, hsize, h.position_item hpos ha]
  exact hread _ _ (List.mem_of_getElem? ha) (h.item i a ha)

theorem text_of_standsAt {s : String} (hmax : written.length ≤ maxBufferSize)
    (h : StandsAt written offset (order.encode 4 s.toUTF8.toList.length ++ s.toUTF8.toList)) :
    (Image.ofList order written).text (written.length - offset) = .ok (.ok s) := by
  have hbytes := byteRun_of_standsAt (Nat.lt_of_le_of_lt hmax (by decide)) h
  rw [Image.text, hbytes, ok_bind, Utf8.decode_toUTF8]
  rfl

theorem string_of_standsAt {s : String} (hmax : written.length ≤ maxBufferSize)
    (h : StandsAt written offset (order.encode 4 s.toUTF8.toList.length ++ s.toUTF8.toList)) :
    (Image.ofList order written).string (written.length - offset) = .ok s := by
  rw [Image.string, text_of_standsAt hmax h]
  rfl

/-- Where fields of a layout overlap, what is read need not be what was written. -/
theorem decode_layout_of_standsAt {layout : StructLayout} {v : layout.Value}
    (h : StandsAt written offset (layout.encode order v)) :
    StructRef.decode ⟨Image.ofList order written, written.length - offset⟩ layout =
      .ok (layout.decode order (layout.encode order v)) := by
  have hslice := slice_of_standsAt order h
  rw [StructLayout.length_encode] at hslice
  rw [StructRef.decode, hslice]
  rfl

theorem decode_of_standsAt {type : LawfulLayout} {v : type.Value}
    (h : StandsAt written offset (type.encode order v)) :
    StructRef.decode ⟨Image.ofList order written, written.length - offset⟩ type.toStructLayout = .ok v :=
  (decode_layout_of_standsAt h).trans (congrArg Except.ok (type.decode_encode order v))

end Found

/-- A byte is its own encoding. -/
theorem encode_byte (order : ByteOrder) (x : UInt8) : ScalarType.u8.encode order x.toBitVec = [x] := by
  have hvalue : order.decode [x] = x.toNat := by cases order <;> rfl
  have hbytes := order.encode_decode [x]
  rwa [hvalue] at hbytes

/-- The scalars of a vector of bytes are the bytes. -/
theorem flatMap_encode_bytes (order : ByteOrder) (bytes : List UInt8) :
    (bytes.map UInt8.toBitVec).flatMap (ScalarType.u8.encode order) = bytes := by
  induction bytes with
  | nil => rfl
  | cons x bytes ih =>
    rw [List.map_cons, List.flatMap_cons, encode_byte, ih]
    rfl

end TableBuffer
