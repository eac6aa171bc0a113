import Mathlib.Order.Bounds.Defs
import TableBuffer.Align

/-!
# Alignment by masks

Below a power of two `a` a word has the bits that `a - 1` masks. So on machine words the three questions of
alignment take a complement, a sum and a mask each, and no division. `alignment_by_masks` says that the
masks give the numbers of this library at every word, and what these are among all numbers. Near the end of
the words a sum that wraps does no harm, but one that is checked leaves the last multiple out.
-/

namespace TableBuffer

/-- A machine word. -/
abbrev Word := BitVec 64

namespace Word

/-- The low bits of the two's complement. The sum wraps at zero. -/
def paddingTo (n a : Word) : Word := (~~~n + 1) &&& (a - 1)

def isAlignedTo (n a : Word) : Bool := n &&& (a - 1) == 0

/-- The bits that `a - 1` does not mask: the multiple at or below. -/
def clearBelow (n a : Word) : Word := n &&& ~~~(a - 1)

/-- The multiple at or above `n`, by sums that wrap. -/
def roundedUp (n a : Word) : Word := (n + a - 1).clearBelow a

/-- The sum of two words, if it is a word. -/
def sum? (n a : Word) : Option Word := if n.uaddOverflow a then none else some (n + a)

/-- The multiple at or above `n`, by a checked sum. -/
def roundedUp? (n a : Word) : Option Word := (n.sum? a).map fun m => (m - 1).clearBelow a

end Word

section Numbers

variable {n a p : Nat}

theorem padding_eq_of_dvd (ha : 0 < a) (hlt : p < a) (hp : a ∣ n + p) : padding n a = p := by
  have hle : padding n a ≤ p := padding_le ha (Nat.mod_eq_zero_of_dvd hp)
  have hdiff : a ∣ p - padding n a := by
    have h := Nat.dvd_sub hp (dvd_add_padding n ha)
    rwa [Nat.add_sub_add_left] at h
  have hzero := Nat.eq_zero_of_dvd_of_lt hdiff (Nat.lt_of_le_of_lt (Nat.sub_le ..) hlt)
  omega

/-- The padding is what is left over of the way to any multiple. -/
theorem padding_eq_sub_mod {m : Nat} (ha : 0 < a) (hm : a ∣ m) (hle : n ≤ m) : padding n a = (m - n) % a := by
  refine padding_eq_of_dvd ha (Nat.mod_lt _ ha) ?_
  have hdvd : a ∣ m - (m - n - (m - n) % a) := Nat.dvd_sub hm (Nat.dvd_sub_mod _)
  have hmod := Nat.mod_le (m - n) a
  rwa [show m - (m - n - (m - n) % a) = n + (m - n) % a by omega] at hdvd

theorem isLeast_padding (n : Nat) (ha : 0 < a) : IsLeast {p | a ∣ n + p} (padding n a) :=
  ⟨dvd_add_padding n ha, fun _ hp => padding_le ha (Nat.mod_eq_zero_of_dvd hp)⟩

theorem isLeast_add_padding (n : Nat) (ha : 0 < a) : IsLeast {m | a ∣ m ∧ n ≤ m} (n + padding n a) := by
  refine ⟨⟨dvd_add_padding n ha, Nat.le_add_right ..⟩, ?_⟩
  rintro m ⟨hdvd, hle⟩
  rw [← Nat.add_sub_of_le hle] at hdvd
  have := padding_le ha (Nat.mod_eq_zero_of_dvd hdvd)
  omega

/-- The multiple below `n + a` is the one at or above `n`. -/
theorem sub_mod_eq_add_padding (n : Nat) (ha : 0 < a) :
    n + a - 1 - (n + a - 1) % a = n + padding n a := by
  have hlt := Nat.mod_lt (n + a - 1) ha
  have hdvd : a ∣ n + (a - 1 - (n + a - 1) % a) := by
    have h : a ∣ n + a - 1 - (n + a - 1) % a := Nat.dvd_sub_mod _
    rwa [show n + a - 1 - (n + a - 1) % a = n + (a - 1 - (n + a - 1) % a) by omega] at h
  rw [padding_eq_of_dvd ha (by omega) hdvd]
  omega

/-- Up to the end of the words a number is rounded up; beyond it there is none. -/
theorem alignUp?_eq (ha : isPowerOfTwo a = true) (n : Nat) :
    alignUp? n a = if n + a < wordLimit then some (n + padding n a) else none := by
  have hround : (n + a - 1) / a * a = n + padding n a := by
    rw [Nat.div_mul_self_eq_mod_sub_self, sub_mod_eq_add_padding n (pos_of_isPowerOfTwo ha)]
  simp only [alignUp?, ha, Bool.true_and, decide_eq_true_eq, hround]

theorem isAligned_iff_dvd : isAligned n a = true ↔ a ∣ n := by
  rw [isAligned, beq_iff_eq, Nat.dvd_iff_mod_eq_zero]

end Numbers

namespace Word

variable {a : Word}

theorem toNat_pred (ha : 0 < a.toNat) : (a - 1).toNat = a.toNat - 1 :=
  BitVec.toNat_sub_of_le (BitVec.le_def.2 ha)

theorem dvd_wordLimit (ha : isPowerOfTwo a.toNat = true) : a.toNat ∣ wordLimit :=
  dvd_of_isPowerOfTwo ha (by decide) (Nat.le_of_lt a.isLt)

/-- The mask of a power of two leaves the remainder. -/
theorem toNat_and_pred (ha : isPowerOfTwo a.toNat = true) (n : Word) :
    (n &&& (a - 1)).toNat = n.toNat % a.toNat := by
  obtain ⟨k, hk⟩ := isPowerOfTwo_iff.1 ha
  rw [Nat.one_shiftLeft] at hk
  rw [BitVec.toNat_and, toNat_pred (pos_of_isPowerOfTwo ha), hk, Nat.and_two_pow_sub_one_eq_mod]

/-- The bits outside and inside of a mask make up the word. -/
theorem and_not_add_and (n mask : Word) : (n &&& ~~~mask) + (n &&& mask) = n := by
  have hapart : (n &&& ~~~mask) &&& (n &&& mask) = 0 := by
    ext i hi
    cases hn : n[i] <;> cases hmask : mask[i] <;> simp [hn, hmask]
  rw [BitVec.add_eq_or_of_and_eq_zero _ _ hapart]
  ext i hi
  cases hn : n[i] <;> cases hmask : mask[i] <;> simp [hn, hmask]

theorem toNat_clearBelow (ha : isPowerOfTwo a.toNat = true) (n : Word) :
    (n.clearBelow a).toNat = n.toNat - n.toNat % a.toNat := by
  have hparts : n.clearBelow a = n - (n &&& (a - 1)) := BitVec.eq_sub_iff_add_eq.2 (and_not_add_and n (a - 1))
  have hle : n &&& (a - 1) ≤ n := by
    rw [BitVec.le_def, toNat_and_pred ha]
    exact Nat.mod_le ..
  rw [hparts, BitVec.toNat_sub_of_le hle, toNat_and_pred ha]

theorem toNat_paddingTo (ha : isPowerOfTwo a.toNat = true) (n : Word) :
    (n.paddingTo a).toNat = padding n.toNat a.toNat := by
  have hneg : ~~~n + 1 = -n := (BitVec.neg_eq_not_add n).symm
  have hnat : (-n).toNat = (wordLimit - n.toNat) % wordLimit := BitVec.toNat_neg n
  rw [paddingTo, toNat_and_pred ha, hneg, hnat, Nat.mod_mod_of_dvd _ (dvd_wordLimit ha),
    padding_eq_sub_mod (pos_of_isPowerOfTwo ha) (dvd_wordLimit ha) (Nat.le_of_lt n.isLt)]

theorem isAlignedTo_eq (ha : isPowerOfTwo a.toNat = true) (n : Word) :
    n.isAlignedTo a = isAligned n.toNat a.toNat := by
  have hzero : n &&& (a - 1) = 0 ↔ n.toNat % a.toNat = 0 := by
    rw [← toNat_and_pred ha, ← BitVec.toNat_inj]
    rfl
  rw [Bool.eq_iff_iff, isAlignedTo, isAligned, beq_iff_eq, beq_iff_eq, hzero]

/-- The sum may be one past the last word. -/
theorem toNat_add_sub_one {n : Word} (ha : 0 < a.toNat) (hsum : n.toNat + a.toNat ≤ wordLimit) :
    (n + a - 1).toNat = n.toNat + a.toNat - 1 := by
  have hassoc : n + a - 1 = n + (a - 1) := by
    rw [BitVec.sub_eq_add_neg, BitVec.add_assoc, ← BitVec.sub_eq_add_neg]
  have hlt : n.toNat + (a - 1).toNat < wordLimit := by rw [toNat_pred ha]; omega
  rw [hassoc, BitVec.toNat_add_of_lt hlt, toNat_pred ha]
  omega

theorem toNat_roundedUp {n : Word} (ha : isPowerOfTwo a.toNat = true) (hsum : n.toNat + a.toNat ≤ wordLimit) :
    (n.roundedUp a).toNat = n.toNat + padding n.toNat a.toNat := by
  have hpos := pos_of_isPowerOfTwo ha
  rw [roundedUp, toNat_clearBelow ha, toNat_add_sub_one hpos hsum, sub_mod_eq_add_padding _ hpos]

theorem map_roundedUp? (ha : isPowerOfTwo a.toNat = true) (n : Word) :
    (n.roundedUp? a).map BitVec.toNat = alignUp? n.toNat a.toNat := by
  rw [alignUp?_eq ha, roundedUp?, sum?]
  by_cases hsum : n.toNat + a.toNat < wordLimit
  · have hfits : ¬ n.uaddOverflow a := by
      rw [BitVec.uaddOverflow, decide_eq_true_eq]
      exact Nat.not_le.2 hsum
    rw [if_pos hsum, if_neg hfits]
    exact congrArg some (toNat_roundedUp ha (Nat.le_of_lt hsum))
  · have hover : n.uaddOverflow a := by
      rw [BitVec.uaddOverflow, decide_eq_true_eq]
      exact Nat.not_lt.1 hsum
    rw [if_neg hsum, if_pos hover]
    rfl

end Word

/-- Masks give the numbers of alignment at every word: the padding is the least number of bytes up to a multiple,
whether or not the multiple is a word; it is zero just for the multiples; and with it a number is rounded up to
the least multiple at or above it. The masks round up wherever `n + a - 1` is a word. A checked sum does so only
where `n + a` is one, which leaves out the last multiple of all. -/
theorem alignment_by_masks (n a : Word) (ha : isPowerOfTwo a.toNat = true) :
    let p := padding n.toNat a.toNat
    ((n.paddingTo a).toNat = p ∧ IsLeast {k | a.toNat ∣ n.toNat + k} p ∧ p < a.toNat) ∧
    (n.isAlignedTo a = isAligned n.toNat a.toNat ∧ (isAligned n.toNat a.toNat = true ↔ a.toNat ∣ n.toNat) ∧
      (a.toNat ∣ n.toNat ↔ p = 0)) ∧
    IsLeast {m | a.toNat ∣ m ∧ n.toNat ≤ m} (n.toNat + p) ∧
    (n.roundedUp? a).map BitVec.toNat = alignUp? n.toNat a.toNat ∧
    alignUp? n.toNat a.toNat = (if n.toNat + a.toNat < wordLimit then some (n.toNat + p) else none) ∧
    (n.toNat + a.toNat - 1 < wordLimit → (n.roundedUp a).toNat = n.toNat + p) := by
  have hpos := pos_of_isPowerOfTwo ha
  refine ⟨⟨Word.toNat_paddingTo ha n, isLeast_padding _ hpos, padding_lt _ hpos⟩,
    ⟨Word.isAlignedTo_eq ha n, isAligned_iff_dvd, ?_⟩, isLeast_add_padding _ hpos, Word.map_roundedUp? ha n,
    alignUp?_eq ha _, fun hsum => Word.toNat_roundedUp ha (by omega)⟩
  rw [padding_eq_zero_iff hpos, Nat.dvd_iff_mod_eq_zero]

/-- Three below the end of the words the next multiple of four is none of them. -/
theorem alignment_by_masks_wordEnd :
    let n : Word := 0xFFFFFFFFFFFFFFFD
    isPowerOfTwo (4 : Word).toNat = true ∧ n.toNat + (n.paddingTo 4).toNat = wordLimit ∧
      IsLeast {k | 4 ∣ n.toNat + k} 3 ∧ isAligned n.toNat 4 = false ∧ alignUp? n.toNat 4 = none ∧
      ((0x1001 : Word).roundedUp 0x1000).toNat = 0x2000 :=
  ⟨by decide, by decide, (alignment_by_masks 0xFFFFFFFFFFFFFFFD 4 (by decide)).1.2.1, by decide,
    (alignment_by_masks 0xFFFFFFFFFFFFFFFD 4 (by decide)).2.2.2.2.1,
    (alignment_by_masks 0x1001 0x1000 (by decide)).2.2.2.2.2 (by decide)⟩

/-- The last multiple of eight is no higher than itself, but it is not rounded up. -/
theorem last_multiple_not_rounded :
    let n : Word := 0xFFFFFFFFFFFFFFF8
    isPowerOfTwo 8 = true ∧ 8 ∣ n.toNat ∧ n.toNat + 8 - 1 < wordLimit ∧ padding n.toNat 8 = 0 ∧
      n.roundedUp 8 = n ∧ alignUp? n.toNat 8 = none := by
  decide

end TableBuffer
