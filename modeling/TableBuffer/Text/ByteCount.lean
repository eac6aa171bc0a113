/-!
# Byte counts

A number of bytes as a reader likes it: in the largest binary unit not above it, with two places. The
count is first rounded to the 53 bits of a double, then the quotient to hundredths; a half goes to
the even neighbour both times.
-/

namespace TableBuffer

/-- The quotient `n / d` rounded to a whole number, a half to the even one. -/
def roundDiv (n d : Nat) : Nat :=
  let q := n / d
  let r := n % d
  if 2 * r < d ∨ 2 * r = d ∧ q % 2 = 0 then q else q + 1

/-- The multiple of a power of two nearest to `n` that has at most 53 significant bits. -/
def roundToDouble (n : Nat) : Nat :=
  let scale := 1 <<< (n.log2 - 52)
  roundDiv n scale * scale

/-- The names of the powers of 1024, the first power first. -/
def byteUnits : List String := ["KB", "MB", "GB", "TB"]

/-- Two digits, the first possibly zero. -/
def twoDigits (n : Nat) : String := toString (n / 10 % 10) ++ toString (n % 10)

def byteCountText (count : Nat) : String :=
  if count < 1024 then toString count ++ " B"
  else
    let size := roundToDouble count
    let power := min byteUnits.length (size.log2 / 10)
    let hundredths := roundDiv (100 * size) (1 <<< (10 * power))
    toString (hundredths / 100) ++ "." ++ twoDigits hundredths ++ " " ++ byteUnits.getD (power - 1) ""

/-- A quotient is rounded to within a half. -/
theorem roundDiv_near (n : Nat) {d : Nat} (hd : 0 < d) :
    2 * n ≤ 2 * (roundDiv n d * d) + d ∧ 2 * (roundDiv n d * d) ≤ 2 * n + d := by
  have hn := Nat.div_add_mod n d
  have hr := Nat.mod_lt n hd
  have hq : d * (n / d) = n / d * d := Nat.mul_comm ..
  unfold roundDiv
  simp only
  split
  · omega
  · rw [Nat.add_mul, Nat.one_mul]
    omega

end TableBuffer
