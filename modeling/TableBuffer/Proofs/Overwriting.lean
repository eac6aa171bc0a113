import TableBuffer.Proofs.Reading
import TableBuffer.Proofs.StructRoundTrip

/-!
# Writing over bytes at a distance from the end

What stands apart from the bytes that are written over stands there afterwards. Writing the old bytes back
undoes the change, and changes apart from one another may come in either order.
-/

namespace TableBuffer

/-- The bytes with `new` in place of as many of those that stand at the offset. -/
def overwritten (written : List UInt8) (offset : Nat) (new : List UInt8) : List UInt8 :=
  splice (written.length - offset) new written

theorem standsAt_iff {written xs : List UInt8} {offset : Nat} : StandsAt written offset xs ↔
    xs.length ≤ offset ∧ offset ≤ written.length ∧
      (written.drop (written.length - offset)).take xs.length = xs := by
  constructor
  · intro h
    refine ⟨h.length_le, h.offset_le, ?_⟩
    obtain ⟨before, tail, hw, hlen⟩ := h.exists_eq
    rw [← hlen, hw, List.append_assoc, List.drop_left, List.take_left]
  · intro h
    obtain ⟨hlen, hle, hxs⟩ := h
    refine ⟨(written.drop (written.length - offset)).drop xs.length, ?_, ?_⟩
    · have hsplit := List.take_append_drop xs.length (written.drop (written.length - offset))
      rw [hxs] at hsplit
      rw [hsplit]
      exact List.drop_suffix ..
    · rw [List.length_drop, List.length_drop]
      omega

section

variable {written new xs : List UInt8} {offset o : Nat} (hle : offset ≤ written.length)
  (hnew : new.length ≤ offset)

include hle hnew

theorem overwriting_fits : written.length - offset + new.length ≤ written.length := by omega

theorem length_overwritten : (overwritten written offset new).length = written.length :=
  length_splice (overwriting_fits hle hnew)

/-- The new bytes stand where they were written. -/
theorem standsAt_overwritten : StandsAt (overwritten written offset new) offset new := by
  refine standsAt_iff.2 ⟨hnew, ?_, ?_⟩
  · rwa [length_overwritten hle hnew]
  · rw [length_overwritten hle hnew]
    exact take_drop_splice (overwriting_fits hle hnew)

/-- What stands apart from the new bytes is left alone. -/
theorem StandsAt.overwritten (h : StandsAt written o xs)
    (hapart : o + new.length ≤ offset ∨ offset + xs.length ≤ o) :
    StandsAt (overwritten written offset new) o xs := by
  obtain ⟨hlen, ho, hxs⟩ := standsAt_iff.1 h
  refine standsAt_iff.2 ⟨hlen, ?_, ?_⟩
  · rwa [length_overwritten hle hnew]
  · rw [length_overwritten hle hnew]
    refine (take_drop_splice_apart (overwriting_fits hle hnew) ?_).trans hxs
    omega

theorem getElem?_overwritten (i : Nat) : (TableBuffer.overwritten written offset new)[i]? =
    if written.length - offset ≤ i ∧ i < written.length - offset + new.length then
      new[i - (written.length - offset)]?
    else written[i]? :=
  getElem?_splice (overwriting_fits hle hnew) i

/-- Writing back what stood there undoes the change. -/
theorem overwritten_back {old : List UInt8} (h : StandsAt written offset old)
    (hlen : old.length = new.length) :
    TableBuffer.overwritten (TableBuffer.overwritten written offset new) offset old = written := by
  have hsame := length_overwritten hle hnew
  have hold := (standsAt_iff.1 h).2.2
  apply List.ext_getElem?
  intro i
  rw [getElem?_overwritten (hsame ▸ hle) (hlen ▸ hnew), hsame, getElem?_overwritten hle hnew, ← hlen]
  split
  · rename_i hi
    rw [← hold, List.getElem?_take, if_pos (by omega), List.getElem?_drop]
    congr 1
    omega
  · rfl

/-- Changes apart from one another may come in either order. -/
theorem overwritten_comm {new' : List UInt8} {offset' : Nat} (hle' : offset' ≤ written.length)
    (hnew' : new'.length ≤ offset')
    (hapart : offset + new'.length ≤ offset' ∨ offset' + new.length ≤ offset) :
    TableBuffer.overwritten (TableBuffer.overwritten written offset new) offset' new' =
      TableBuffer.overwritten (TableBuffer.overwritten written offset' new') offset new := by
  have hsame := length_overwritten hle hnew
  have hsame' := length_overwritten hle' hnew'
  have hroom : offset' ≤ (TableBuffer.overwritten written offset new).length := hsame ▸ hle'
  have hroom' : offset ≤ (TableBuffer.overwritten written offset' new').length := hsame' ▸ hle
  apply List.ext_getElem?
  intro i
  rw [getElem?_overwritten hroom hnew', getElem?_overwritten hroom' hnew, hsame, hsame',
    getElem?_overwritten hle hnew, getElem?_overwritten hle' hnew']
  by_cases hi : written.length - offset ≤ i ∧ i < written.length - offset + new.length
  · have hi' : ¬ (written.length - offset' ≤ i ∧ i < written.length - offset' + new'.length) := by omega
    rw [if_pos hi, if_neg hi', if_pos hi]
  · rw [if_neg hi, if_neg hi]

/-- Writing a scalar into an image. -/
theorem writeScalar_ofList (order : ByteOrder) (ty : ScalarType) (v : ty.Value)
    (hv : new = ty.encode order v) :
    (Image.ofList order written).writeScalar ty (written.length - offset) v =
      .ok (Image.ofList order (TableBuffer.overwritten written offset new)) := by
  have hfits : written.length - offset + (ty.encode order v).length ≤
      (Image.ofList order written).size := by
    rw [size_ofList, ← hv]
    exact overwriting_fits hle hnew
  rw [Image.writeScalar, Image.write]
  refine (if_pos hfits).trans ?_
  rw [TableBuffer.overwritten, hv]
  simp only [Image.ofList]

end

end TableBuffer
