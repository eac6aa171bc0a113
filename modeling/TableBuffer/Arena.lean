import TableBuffer.Align
import TableBuffer.Bytes
import TableBuffer.Error

/-!
# The arena

Bytes that are written from the back to the front, with free room before them. A position is counted
from the end, so it keeps its meaning when the room grows. The room never grows past a limit, and
past `allocationLimit` there is none to be had.

The free bytes still hold what an earlier use left there: `stale` is what they hold next to the
written bytes, nearest first, and beyond it they are zero.
-/

namespace TableBuffer

structure Arena where
  /-- The written bytes, lowest address first. -/
  written : List UInt8
  /-- The number of free bytes. -/
  headroom : Nat
  stale : List UInt8
  /-- The size that written and free bytes together do not exceed. -/
  limit : Nat

namespace Arena

/-- The sizes in bytes that can be set aside stay below this. -/
def allocationLimit : Nat := 0x8000000000000000

/-- An arena with nothing written. -/
def empty (capacity limit : Nat) : Arena := ⟨[], min capacity limit, [], limit⟩

def size (a : Arena) : Nat := a.written.length

def capacity (a : Arena) : Nat := a.headroom + a.size

/-- The arena with its room set aside. A fault if that is too much. -/
def allocated (a : Arena) : Outcome Arena :=
  if a.capacity < allocationLimit then .ok a else .error .fault

/-- What the `n` free bytes next to the written ones hold, lowest address first. -/
def free (a : Arena) (n : Nat) : List UInt8 :=
  (a.stale.take n ++ List.replicate (n - a.stale.length) 0).reverse

/-- The arena with room for `required` bytes in all: twice the old room if that is more. -/
def grow (a : Arena) (required : Nat) : Arena :=
  let doubled := min (2 * a.capacity) wordMax
  { a with headroom := min (max doubled required) a.limit - a.size, stale := [] }

/-- Makes room for `n` more bytes. A fault if the limit allows more room than there can be. -/
def reserve (a : Arena) (n : Nat) : Outcome Arena :=
  if n ≤ a.headroom then .ok a
  else
    let required := min (a.size + n) wordMax
    if required ≤ a.limit then (a.grow required).allocated
    else .error (.error (.bufferTooLarge required a.limit))

/-- Writes bytes in front. A fault if there is no room for them. -/
def prepend (a : Arena) (bytes : List UInt8) : Outcome Arena :=
  if bytes.length ≤ a.headroom then
    .ok { a with
      written := bytes ++ a.written
      headroom := a.headroom - bytes.length
      stale := a.stale.drop bytes.length }
  else .error .fault

/-- Writes `n` zero bytes in front. A fault if there is no room for them. -/
def pad (a : Arena) (n : Nat) : Outcome Arena :=
  if n ≤ a.headroom then a.prepend (List.replicate n 0) else .error .fault

/-- The `length` bytes from `offset` bytes before the end on. They may lie in the free room. -/
def peek (a : Arena) (offset length : Nat) : Outcome (List UInt8) :=
  if offset ≤ a.capacity ∧ length ≤ offset then
    let all := a.free (offset - a.size) ++ a.written
    .ok ((all.drop (all.length - offset)).take length)
  else .error .fault

/-- Writes over the bytes from `offset` bytes before the end on. -/
def overwrite (a : Arena) (offset : Nat) (bytes : List UInt8) : Outcome Arena :=
  if offset ≤ a.capacity ∧ bytes.length ≤ offset then
    let reached := offset - a.size
    let all := a.free reached ++ a.written
    let changed := splice (all.length - offset) bytes all
    .ok { a with
      written := changed.drop reached
      stale := (changed.take reached).reverse ++ a.stale.drop reached }
  else .error .fault

/-- Forgets what is written and keeps the room. -/
def clear (a : Arena) : Arena :=
  { a with written := [], headroom := a.capacity, stale := a.written.reverse ++ a.stale }

theorem size_empty (capacity limit : Nat) : (empty capacity limit).size = 0 := rfl

theorem allocated_eq_ok_iff {a b : Arena} :
    a.allocated = .ok b ↔ a.capacity < allocationLimit ∧ a = b := by
  unfold allocated
  split <;> simp [*]

/-- Room within a limit that can be set aside is set aside. -/
theorem allocated_empty {limit : Nat} (h : limit < allocationLimit) (capacity : Nat) :
    (empty capacity limit).allocated = .ok (empty capacity limit) := by
  have hroom : (empty capacity limit).capacity = min capacity limit := rfl
  exact allocated_eq_ok_iff.2 ⟨by omega, rfl⟩

@[simp] theorem written_grow (a : Arena) (required : Nat) : (a.grow required).written = a.written := rfl

@[simp] theorem limit_grow (a : Arena) (required : Nat) : (a.grow required).limit = a.limit := rfl

@[simp] theorem length_free (a : Arena) (n : Nat) : (a.free n).length = n := by
  simp only [free, List.length_reverse, List.length_append, List.length_take, List.length_replicate]
  omega

/-- Room is made without touching what is written. -/
theorem written_reserve {a b : Arena} {n : Nat} (h : a.reserve n = .ok b) : b.written = a.written := by
  unfold reserve at h
  split at h
  · cases h; rfl
  · simp only at h
    split at h
    · obtain ⟨-, rfl⟩ := allocated_eq_ok_iff.1 h; rfl
    · cases h

/-- The room for a growing arena can be set aside whenever its limit can. -/
theorem reserve_ne_fault {a : Arena} (hsize : a.size ≤ a.limit) (hlimit : a.limit < allocationLimit)
    (n : Nat) : a.reserve n ≠ .error .fault := by
  unfold reserve
  split
  · simp
  · simp only
    split
    · rename_i hn
      have hroom : (a.grow (min (a.size + n) wordMax)).capacity < allocationLimit := by
        simp only [capacity, grow, size] at hsize ⊢
        omega
      simp [allocated, hroom]
    · simp

theorem written_prepend {a b : Arena} {bytes : List UInt8} (h : a.prepend bytes = .ok b) :
    b.written = bytes ++ a.written := by
  unfold prepend at h
  split at h <;> cases h
  rfl

theorem capacity_prepend {a b : Arena} {bytes : List UInt8} (h : a.prepend bytes = .ok b) :
    b.capacity = a.capacity := by
  unfold prepend at h
  split at h <;> cases h
  simp only [capacity, size, List.length_append]
  omega

theorem capacity_clear (a : Arena) : a.clear.capacity = a.capacity := by
  simp [capacity, clear, size]

theorem pad_eq_prepend (a : Arena) (n : Nat) : a.pad n = a.prepend (List.replicate n 0) := by
  unfold pad
  split
  · rfl
  · rename_i h
    rw [prepend, List.length_replicate, if_neg h]

/-- Bytes that are written over inside the written part stay as many. -/
theorem written_overwrite {a b : Arena} {offset : Nat} {bytes : List UInt8} (hoff : offset ≤ a.size)
    (h : a.overwrite offset bytes = .ok b) :
    b.written = splice (a.size - offset) bytes a.written := by
  unfold overwrite at h
  split at h <;> cases h
  have hzero : offset - a.size = 0 := by omega
  have hnone : a.free 0 = [] := List.eq_nil_of_length_eq_zero (length_free a 0)
  simp only [hzero, hnone, List.nil_append, List.drop_zero]
  rfl

end Arena

end TableBuffer
