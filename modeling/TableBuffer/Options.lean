import TableBuffer.Error

/-!
# Builder options

How much room a builder starts with and may take, and what it leaves out of a buffer.
-/

namespace TableBuffer

/-- The size no buffer exceeds: every offset in it is a positive number of 32 signed bits. -/
def maxBufferSize : Nat := 0x7FFFFFFF

structure Options where
  /-- The room at the start; it doubles when it runs out. -/
  initialCapacity : Nat := 1024
  maxSize : Nat := maxBufferSize
  /-- Whether scalars equal to their default are written. -/
  forceDefaults : Bool := false
  /-- Whether tables of the same layout share one vtable. -/
  dedupVTables : Bool := true
  deriving DecidableEq, Repr

namespace Options

def standard : Options := {}

def validate (o : Options) : Except Error Unit :=
  if o.maxSize = 0 then .error (.invalidArgument .noMaxSize)
  else if maxBufferSize < o.maxSize then .error (.invalidArgument .maxSizeTooLarge)
  else if o.maxSize < o.initialCapacity then .error (.invalidArgument .initialCapacity)
  else .ok ()

/-- What `validate` accepts. -/
structure Valid (o : Options) : Prop where
  maxSize_pos : 0 < o.maxSize
  maxSize_le : o.maxSize ≤ maxBufferSize
  initialCapacity_le : o.initialCapacity ≤ o.maxSize

theorem validate_eq_ok_iff {o : Options} : o.validate = .ok () ↔ o.Valid := by
  unfold validate
  constructor
  · intro h
    split at h
    · cases h
    · split at h
      · cases h
      · split at h
        · cases h
        · exact ⟨by omega, by omega, by omega⟩
  · intro h
    have h1 := h.maxSize_pos
    have h2 := h.maxSize_le
    have h3 := h.initialCapacity_le
    rw [if_neg (by omega), if_neg (by omega), if_neg (by omega)]

theorem valid_standard : standard.Valid := ⟨by decide, by decide, by decide⟩

end Options

end TableBuffer
