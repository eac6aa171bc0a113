/-!
# The vtable cache

Where each vtable was first written. Two vtables are one entry exactly when their bytes agree.
-/

namespace TableBuffer

structure VTableCache where
  /-- The bytes of each vtable and the offset it was written at. -/
  entries : List (List UInt8 × Nat)
  /-- The lookups that found an entry. -/
  hits : Nat

namespace VTableCache

def empty : VTableCache := ⟨[], 0⟩

def size (c : VTableCache) : Nat := c.entries.length

def isEmpty (c : VTableCache) : Bool := c.entries.isEmpty

/-- The offset of a vtable with these bytes. -/
def get? (c : VTableCache) (vtable : List UInt8) : Option Nat := c.entries.lookup vtable

/-- The same look-up, counted if it finds an entry. -/
def lookup (c : VTableCache) (vtable : List UInt8) : Option Nat × VTableCache :=
  match c.get? vtable with
  | some offset => (some offset, { c with hits := c.hits + 1 })
  | none => (none, c)

/-- Records where a vtable stands. An entry that is there already stays. -/
def insert (c : VTableCache) (vtable : List UInt8) (offset : Nat) : VTableCache :=
  match c.get? vtable with
  | some _ => c
  | none => { c with entries := (vtable, offset) :: c.entries }

@[simp] theorem get?_empty (vtable : List UInt8) : empty.get? vtable = none := rfl

@[simp] theorem get?_lookup (c : VTableCache) (v w : List UInt8) : (c.lookup v).2.get? w = c.get? w := by
  unfold lookup
  split <;> rfl

theorem lookup_fst (c : VTableCache) (v : List UInt8) : (c.lookup v).1 = c.get? v := by
  unfold lookup
  split <;> simp_all

/-- The first offset of a vtable is the one that counts. -/
theorem get?_insert (c : VTableCache) (v w : List UInt8) (offset : Nat) :
    (c.insert v offset).get? w = (c.get? w).or (if w = v then some offset else none) := by
  unfold insert
  split
  · rename_i h
    by_cases hw : w = v
    · simp [hw, h]
    · simp [hw]
  · rename_i h
    by_cases hw : w = v
    · simp only [get?] at h ⊢
      simp [hw, h]
    · have hb : (w == v) = false := beq_false_of_ne hw
      simp [get?, hw, hb, List.lookup_cons]

theorem hits_insert (c : VTableCache) (v : List UInt8) (offset : Nat) : (c.insert v offset).hits = c.hits := by
  unfold insert
  split <;> rfl

end VTableCache

end TableBuffer
