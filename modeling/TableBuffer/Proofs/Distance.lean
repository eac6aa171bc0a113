import TableBuffer.Image

/-!
# What stands at a distance from the end

A builder names what it wrote by a distance from the end of its bytes. `StandsAt` says which bytes
stand there. It outlasts growth at the front, and `slice_of_standsAt` is its meaning for a reader, who
counts positions from the front.
-/

namespace TableBuffer

/-- The bytes whose first one is `offset` bytes before the end of `written` begin with `bytes`. -/
def StandsAt (written : List UInt8) (offset : Nat) (bytes : List UInt8) : Prop :=
  ∃ tail, bytes ++ tail <:+ written ∧ bytes.length + tail.length = offset

namespace StandsAt

variable {written written' bytes xs ys : List UInt8} {offset : Nat}

theorem mono (h : StandsAt written offset bytes) (hw : written <:+ written') :
    StandsAt written' offset bytes := by
  obtain ⟨tail, hs, hlen⟩ := h
  exact ⟨tail, hs.trans hw, hlen⟩

/-- What stands near enough to the end stands without what is in front of it. -/
theorem of_suffix (h : StandsAt written' offset bytes) (hw : written <:+ written')
    (hle : offset ≤ written.length) : StandsAt written offset bytes := by
  obtain ⟨tail, hs, hlen⟩ := h
  refine ⟨tail, List.suffix_of_suffix_length_le hs hw ?_, hlen⟩
  rwa [List.length_append, hlen]

theorem length_le (h : StandsAt written offset bytes) : bytes.length ≤ offset := by
  obtain ⟨tail, -, hlen⟩ := h
  omega

theorem offset_le (h : StandsAt written offset bytes) : offset ≤ written.length := by
  obtain ⟨tail, hs, hlen⟩ := h
  have := hs.length_le
  rw [List.length_append] at this
  omega

/-- What was put in front last stands at the front. -/
theorem front (h : written = xs ++ ys) : StandsAt written written.length xs := by
  subst h
  exact ⟨ys, List.suffix_refl _, List.length_append.symm⟩

theorem left (h : StandsAt written offset (xs ++ ys)) : StandsAt written offset xs := by
  obtain ⟨tail, hs, hlen⟩ := h
  rw [List.append_assoc] at hs
  refine ⟨ys ++ tail, hs, ?_⟩
  rw [List.length_append] at hlen ⊢
  omega

theorem right (h : StandsAt written offset (xs ++ ys)) : StandsAt written (offset - xs.length) ys := by
  obtain ⟨tail, hs, hlen⟩ := h
  rw [List.append_assoc] at hs
  refine ⟨tail, (List.suffix_append xs _).trans hs, ?_⟩
  rw [List.length_append] at hlen
  omega

/-- Part of the bytes stands as far from the end as it is into them. -/
theorem window {start length : Nat} (h : StandsAt written offset bytes)
    (hle : start + length ≤ bytes.length) :
    StandsAt written (offset - start) ((bytes.drop start).take length) := by
  have hsplit : bytes.take start ++
      ((bytes.drop start).take length ++ (bytes.drop start).drop length) = bytes := by
    rw [List.take_append_drop, List.take_append_drop]
  have hfront : (bytes.take start).length = start := by
    rw [List.length_take]
    omega
  rw [← hsplit] at h
  have hrest := h.right.left
  rwa [hfront] at hrest

/-- The splitting of the written bytes around those at a distance. -/
theorem exists_eq (h : StandsAt written offset bytes) :
    ∃ before tail, written = before ++ bytes ++ tail ∧ before.length = written.length - offset := by
  obtain ⟨tail, ⟨before, rfl⟩, hlen⟩ := h
  refine ⟨before, tail, (List.append_assoc ..).symm, ?_⟩
  simp only [List.length_append]
  omega

/-- The place inside a run of bytes, as a position in the image. -/
theorem position_sub {k : Nat} (hk : k ≤ offset) (h : offset ≤ written.length) :
    written.length - (offset - k) = written.length - offset + k := by
  omega

/-- Items of one size in a row stand at multiples of it. -/
theorem item {α : Type} {f : α → List UInt8} {size : Nat} (hf : ∀ a, (f a).length = size)
    {items : List α} (h : StandsAt written offset (items.flatMap f)) {i : Nat} {a : α}
    (hi : items[i]? = some a) : StandsAt written (offset - i * size) (f a) := by
  induction items generalizing offset i with
  | nil => cases hi
  | cons x items ih =>
    rw [List.flatMap_cons] at h
    cases i with
    | zero =>
      obtain rfl : x = a := by simpa using hi
      rw [Nat.zero_mul, Nat.sub_zero]
      exact h.left
    | succ i =>
      have hrest := h.right
      rw [hf] at hrest
      have hstep := ih hrest (by simpa using hi)
      rwa [Nat.sub_sub, Nat.add_comm, ← Nat.succ_mul] at hstep

end StandsAt

/-- A reference to `target` stands at an offset: its bytes are the distance between the two. -/
def ReferenceAt (order : ByteOrder) (written : List UInt8) (offset target : Nat) : Prop :=
  target ≤ offset ∧ StandsAt written offset (order.encode 4 (offset - target))

theorem ReferenceAt.mono {order : ByteOrder} {written written' : List UInt8} {offset target : Nat}
    (h : ReferenceAt order written offset target) (hw : written <:+ written') :
    ReferenceAt order written' offset target :=
  ⟨h.1, h.2.mono hw⟩

/-- A reader finds the bytes that stand at a distance from the end at the position that is as far
from the end. -/
theorem slice_of_standsAt {written bytes : List UInt8} {offset : Nat} (order : ByteOrder)
    (h : StandsAt written offset bytes) :
    (Image.ofList order written).slice (written.length - offset) bytes.length = .ok bytes := by
  obtain ⟨before, tail, hw, hlen⟩ := h.exists_eq
  have hle : before.length + bytes.length ≤ written.length := by
    rw [hw]
    simp only [List.length_append]
    omega
  rw [← hlen, Image.slice_ofList hle]
  congr 1
  rw [hw, List.append_assoc, List.drop_left, List.take_left]

/-- What stands behind other bytes is found as far behind them. -/
theorem slice_of_standsAt_append {written xs ys : List UInt8} {offset : Nat} (order : ByteOrder)
    (h : StandsAt written offset (xs ++ ys)) :
    (Image.ofList order written).slice (written.length - offset + xs.length) ys.length = .ok ys := by
  have hlong := h.length_le
  rw [List.length_append] at hlong
  have hslice := slice_of_standsAt order h.right
  rwa [StandsAt.position_sub (by omega) h.offset_le] at hslice

end TableBuffer
