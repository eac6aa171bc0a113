/-!
# Runs of bytes

Writing over part of a list. `getElem?_splice` says which elements are the new ones.
-/

namespace TableBuffer

variable {α : Type}

/-- The list with `new` in place of as many elements from `start` on. -/
def splice (start : Nat) (new xs : List α) : List α :=
  xs.take start ++ new ++ xs.drop (start + new.length)

theorem length_splice {start : Nat} {new xs : List α} (h : start + new.length ≤ xs.length) :
    (splice start new xs).length = xs.length := by
  simp only [splice, List.length_append, List.length_take, List.length_drop]
  omega

/-- Inside the window stand the new elements, outside it the old ones. -/
theorem getElem?_splice {start : Nat} {new xs : List α} (h : start + new.length ≤ xs.length) (i : Nat) :
    (splice start new xs)[i]? =
      if start ≤ i ∧ i < start + new.length then new[i - start]? else xs[i]? := by
  have htake : (xs.take start).length = start := by rw [List.length_take]; omega
  simp only [splice, List.append_assoc, List.getElem?_append, htake, List.getElem?_take,
    List.getElem?_drop]
  by_cases hlo : i < start
  · simp [hlo, Nat.not_le.2 hlo]
  · by_cases hhi : i < start + new.length
    · simp [hlo, Nat.not_lt.1 hlo, hhi, show i - start < new.length by omega]
    · have hi : start + new.length + (i - start - new.length) = i := by omega
      simp [hlo, hhi, hi, show ¬ i - start < new.length by omega]

end TableBuffer
