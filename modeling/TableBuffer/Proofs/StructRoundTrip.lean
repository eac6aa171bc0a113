import TableBuffer.StructLayout

/-!
# Structs that read back what was written

Where fields of a layout overlap, the later one counts and the earlier is lost. A lawful layout loses
nothing; one whose fields lie apart is lawful.
-/

namespace TableBuffer

section Windows

variable {α : Type} {start : Nat} {new xs : List α}

theorem take_drop_splice (h : start + new.length ≤ xs.length) :
    ((splice start new xs).drop start).take new.length = new := by
  have htake : (xs.take start).length = start := by
    rw [List.length_take]
    omega
  have hdrop : (splice start new xs).drop start = new ++ xs.drop (start + new.length) := by
    rw [splice, List.append_assoc, List.drop_append_of_le_length (Nat.le_of_eq htake.symm),
      List.drop_of_length_le (Nat.le_of_eq htake), List.nil_append]
  rw [hdrop]
  exact List.take_left

theorem take_drop_splice_apart {p n : Nat} (h : start + new.length ≤ xs.length)
    (hapart : p + n ≤ start ∨ start + new.length ≤ p) :
    ((splice start new xs).drop p).take n = (xs.drop p).take n := by
  apply List.ext_getElem?
  intro i
  rw [List.getElem?_take, List.getElem?_take]
  by_cases hi : i < n
  · have houtside : ¬ (start ≤ p + i ∧ p + i < start + new.length) := by omega
    rw [if_pos hi, if_pos hi, List.getElem?_drop, List.getElem?_drop, getElem?_splice h,
      if_neg houtside]
  · rw [if_neg hi, if_neg hi]

end Windows

/-- No byte belongs to both fields. -/
def StructField.Apart (f g : StructField) : Prop :=
  f.position + f.type.size ≤ g.position ∨ g.position + g.type.size ≤ f.position

instance : DecidableRel StructField.Apart := fun _ _ => inferInstanceAs (Decidable (_ ∨ _))

namespace Record

variable (order : ByteOrder) {fs : List StructField}

/-- Bytes that no field covers stay as they are. -/
theorem take_drop_write (r : Record fs) {bytes : List UInt8} {p n : Nat}
    (hfits : ∀ f ∈ fs, f.position + f.type.size ≤ bytes.length)
    (hapart : ∀ f ∈ fs, p + n ≤ f.position ∨ f.position + f.type.size ≤ p) :
    ((write order fs r bytes).drop p).take n = (bytes.drop p).take n := by
  induction fs generalizing bytes with
  | nil => rfl
  | cons f fs ih =>
    obtain ⟨v, rest⟩ := r
    obtain ⟨hfit, hfits⟩ := List.forall_mem_cons.1 hfits
    obtain ⟨hfree, hapart⟩ := List.forall_mem_cons.1 hapart
    rw [← ScalarType.length_encode order f.type v] at hfit hfree
    rw [write, ih rest (by rwa [length_splice hfit]) hapart]
    exact take_drop_splice_apart hfit hfree

/-- Fields that lie apart are read back as they were written. -/
theorem read_write (r : Record fs) {bytes : List UInt8}
    (hfits : ∀ f ∈ fs, f.position + f.type.size ≤ bytes.length) (hapart : fs.Pairwise StructField.Apart) :
    read order (write order fs r bytes) fs = r := by
  induction fs generalizing bytes with
  | nil => rfl
  | cons f fs ih =>
    obtain ⟨v, rest⟩ := r
    obtain ⟨hfit, hfits⟩ := List.forall_mem_cons.1 hfits
    obtain ⟨hfirst, hapart⟩ := List.pairwise_cons.1 hapart
    have hlen := ScalarType.length_encode order f.type v
    rw [← hlen] at hfit
    have hrest : ∀ g ∈ fs, g.position + g.type.size ≤
        (splice f.position (f.type.encode order v) bytes).length := by
      rwa [length_splice hfit]
    have hwindow := take_drop_write order rest hrest hfirst
    rw [← hlen, take_drop_splice hfit, hlen] at hwindow
    rw [write, read, hwindow, ScalarType.decode_encode, ih rest hrest hapart]

end Record

/-- A layout that reads back every value as it was written. -/
structure LawfulLayout extends StructLayout where
  decode_encode : ∀ (order : ByteOrder) (v : toStructLayout.Value),
    toStructLayout.decode order (toStructLayout.encode order v) = v

/-- A layout is lawful if its fields lie apart. -/
def LawfulLayout.ofApart (layout : StructLayout) (hapart : layout.fields.Pairwise StructField.Apart) :
    LawfulLayout where
  toStructLayout := layout
  decode_encode order v := by
    refine Record.read_write order v ?_ hapart
    rw [List.length_replicate]
    exact layout.fits

end TableBuffer
