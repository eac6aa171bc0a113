/-!
# Alignment

Padding and rounding for a buffer that is filled from its end, so that lengths are measured from
the end too. `add_padding_mod` and `padding_le` say that `padding n a` is the least number of bytes that brings `n`
to a multiple of `a`.
-/

namespace TableBuffer

/-- Sizes and positions are machine words: they stay below this limit. -/
def wordLimit : Nat := 0x10000000000000000

/-- The largest machine word. -/
def wordMax : Nat := wordLimit - 1

def isPowerOfTwo (n : Nat) : Bool := n != 0 && 1 <<< n.log2 == n

/-- The zero bytes to put in front of `n` written bytes so that the total is a multiple of `a`. -/
def padding (n a : Nat) : Nat := (a - n % a) % a

def isAligned (n a : Nat) : Bool := n % a == 0

/-- The multiple of `a` at or above `n`. None when `a` is no power of two or `n + a` is no machine word. -/
def alignUp? (n a : Nat) : Option Nat :=
  if isPowerOfTwo a && n + a < wordLimit then some ((n + a - 1) / a * a) else none

theorem isPowerOfTwo_iff {n : Nat} : isPowerOfTwo n = true ↔ ∃ k, n = 1 <<< k := by
  simp only [isPowerOfTwo, Bool.and_eq_true, bne_iff_ne, beq_iff_eq]
  constructor
  · rintro ⟨_, h⟩
    exact ⟨n.log2, h.symm⟩
  · rintro ⟨k, rfl⟩
    rw [Nat.one_shiftLeft]
    exact ⟨Nat.ne_of_gt (Nat.two_pow_pos k), by rw [Nat.log2_two_pow, Nat.one_shiftLeft]⟩

theorem pos_of_isPowerOfTwo {n : Nat} (h : isPowerOfTwo n = true) : 0 < n := by
  obtain ⟨k, rfl⟩ := isPowerOfTwo_iff.1 h
  rw [Nat.one_shiftLeft]
  exact Nat.two_pow_pos k

theorem isPowerOfTwo_one : isPowerOfTwo 1 = true := rfl

/-- Of two powers of two the smaller divides the larger. -/
theorem dvd_of_isPowerOfTwo {a b : Nat} (ha : isPowerOfTwo a = true) (hb : isPowerOfTwo b = true)
    (hle : a ≤ b) : a ∣ b := by
  obtain ⟨i, rfl⟩ := isPowerOfTwo_iff.1 ha
  obtain ⟨j, rfl⟩ := isPowerOfTwo_iff.1 hb
  rw [Nat.one_shiftLeft, Nat.one_shiftLeft] at hle ⊢
  exact Nat.pow_dvd_pow 2 ((Nat.pow_le_pow_iff_right (by decide)).1 hle)

theorem isPowerOfTwo_max {a b : Nat} (ha : isPowerOfTwo a = true) (hb : isPowerOfTwo b = true) :
    isPowerOfTwo (max a b) = true := by
  rcases Nat.le_total a b with h | h
  · rwa [Nat.max_eq_right h]
  · rwa [Nat.max_eq_left h]

theorem padding_lt (n : Nat) {a : Nat} (ha : 0 < a) : padding n a < a :=
  Nat.mod_lt _ ha

theorem add_padding_mod (n : Nat) {a : Nat} (ha : 0 < a) : (n + padding n a) % a = 0 := by
  have hr := Nat.mod_lt n ha
  have hsplit : n + (a - n % a) = a * (n / a + 1) := by
    have := Nat.div_add_mod n a
    rw [Nat.mul_succ]
    omega
  rw [padding, Nat.add_mod_mod, hsplit]
  exact Nat.mul_mod_right a _

theorem dvd_add_padding (n : Nat) {a : Nat} (ha : 0 < a) : a ∣ n + padding n a :=
  Nat.dvd_of_mod_eq_zero (add_padding_mod n ha)

/-- No smaller number of bytes reaches a multiple of `a`. -/
theorem padding_le {n a p : Nat} (ha : 0 < a) (hp : (n + p) % a = 0) : padding n a ≤ p := by
  have hr := Nat.mod_lt n ha
  unfold padding
  by_cases hz : n % a = 0
  · simp [hz]
  · rw [Nat.mod_eq_of_lt (by omega)]
    by_cases hlt : p < a - n % a
    · rw [Nat.add_mod, Nat.mod_eq_of_lt (show p < a by omega),
        Nat.mod_eq_of_lt (show n % a + p < a by omega)] at hp
      omega
    · omega

theorem padding_eq_zero_iff {n a : Nat} (ha : 0 < a) : padding n a = 0 ↔ n % a = 0 := by
  constructor
  · intro h
    simpa [h] using add_padding_mod n ha
  · intro h
    simp [padding, h]

end TableBuffer
