import Mathlib.Logic.Function.Basic
import TableBuffer.VTable.Cache
import TableBuffer.VTable.Layout

/-!
# Vtables in the other byte order

A vtable is all words of two bytes, so it is put into the other order by exchanging the bytes of each word.
Nothing is lost on the way: a cache whose vtables are all recoded finds what it found before.
-/

namespace TableBuffer

/-- The bytes with the two of each word exchanged. -/
def swapWords : List UInt8 → List UInt8
  | a :: b :: rest => b :: a :: swapWords rest
  | bytes => bytes

theorem swapWords_swapWords (bytes : List UInt8) : swapWords (swapWords bytes) = bytes := by
  induction bytes using swapWords.induct with
  | case1 a b rest ih => rw [swapWords, swapWords, ih]
  | case2 bytes h => rw [swapWords.eq_2 bytes h, swapWords.eq_2 bytes h]

@[simp] theorem length_swapWords (bytes : List UInt8) : (swapWords bytes).length = bytes.length := by
  induction bytes using swapWords.induct with
  | case1 a b rest ih => simp only [swapWords, List.length_cons, ih]
  | case2 bytes h => rw [swapWords.eq_2 bytes h]

theorem swapWords_encode {order order' : ByteOrder} (h : order ≠ order') (n : Nat) (rest : List UInt8) :
    swapWords (order.encode 2 n ++ rest) = order'.encode 2 n ++ swapWords rest := by
  cases order with
  | little =>
    cases order' with
    | little => exact absurd rfl h
    | big => rfl
  | big =>
    cases order' with
    | little => rfl
    | big => exact absurd rfl h

theorem swapWords_flatMap {order order' : ByteOrder} (h : order ≠ order') (entry : Nat → Nat)
    (slots : List Nat) :
    swapWords (slots.flatMap fun slot => order.encode 2 (entry slot)) =
      slots.flatMap fun slot => order'.encode 2 (entry slot) := by
  induction slots with
  | nil => rfl
  | cons slot slots ih => rw [List.flatMap_cons, List.flatMap_cons, swapWords_encode h, ih]

namespace VTable

/-- The bytes of a vtable written in one order, as they are in another. -/
def recode (order order' : ByteOrder) (vtable : List UInt8) : List UInt8 :=
  if order = order' then vtable else swapWords vtable

theorem recode_encode (order order' : ByteOrder) (slots tableSize : Nat) (entry : Nat → Nat) :
    recode order order' (encode order slots tableSize entry) = encode order' slots tableSize entry := by
  by_cases h : order = order'
  · rw [recode, if_pos h, h]
  · rw [recode, if_neg h, encode, encode, List.append_assoc, List.append_assoc, swapWords_encode h,
      swapWords_encode h, swapWords_flatMap h]

@[simp] theorem length_recode (order order' : ByteOrder) (vtable : List UInt8) :
    (recode order order' vtable).length = vtable.length := by
  unfold recode
  split
  · rfl
  · exact length_swapWords vtable

theorem recode_injective (order order' : ByteOrder) : Function.Injective (recode order order') := by
  intro v w h
  unfold recode at h
  split at h
  · exact h
  · rw [← swapWords_swapWords v, h, swapWords_swapWords]

end VTable

namespace VTableCache

variable {form : List UInt8 → List UInt8}

/-- The cache with each vtable in another form. -/
def map (form : List UInt8 → List UInt8) (c : VTableCache) : VTableCache :=
  { c with entries := c.entries.map fun e => (form e.1, e.2) }

theorem get?_map (h : Function.Injective form) (c : VTableCache) (v : List UInt8) :
    (c.map form).get? (form v) = c.get? v := by
  obtain ⟨entries, hits⟩ := c
  show (entries.map fun e => (form e.1, e.2)).lookup (form v) = entries.lookup v
  induction entries with
  | nil => rfl
  | cons e entries ih =>
    have hsame : (form v == form e.1) = (v == e.1) := by
      rw [Bool.eq_iff_iff, beq_iff_eq, beq_iff_eq, h.eq_iff]
    rw [List.map_cons, List.lookup_cons, List.lookup_cons, hsame, ih]

theorem lookup_map (h : Function.Injective form) (c : VTableCache) (v : List UInt8) :
    (c.map form).lookup (form v) = ((c.lookup v).1, (c.lookup v).2.map form) := by
  rw [lookup, lookup, get?_map h]
  cases c.get? v with
  | none => rfl
  | some position => rfl

theorem insert_map (h : Function.Injective form) (c : VTableCache) (v : List UInt8) (position : Nat) :
    (c.map form).insert (form v) position = (c.insert v position).map form := by
  rw [insert, insert, get?_map h]
  cases c.get? v with
  | none => rfl
  | some _ => rfl

end VTableCache

end TableBuffer
