/-!
# Hexadecimal text

Bytes and numbers in lowercase hexadecimal digits. `ofHex?_toHex` says that written bytes are read back.
-/

namespace TableBuffer

def hexDigit (n : Nat) : Char := if n < 10 then Char.ofNat (48 + n) else Char.ofNat (87 + n)

/-- The value of a hexadecimal digit in either case. -/
def hexValue? (c : Char) : Option Nat :=
  if '0' ≤ c ∧ c ≤ '9' then some (c.toNat - 48)
  else if 'a' ≤ c ∧ c ≤ 'f' then some (c.toNat - 87)
  else if 'A' ≤ c ∧ c ≤ 'F' then some (c.toNat - 55)
  else none

/-- The two digits of a byte. -/
def hexByte (b : UInt8) : List Char := [hexDigit (b.toNat / 16), hexDigit (b.toNat % 16)]

def toHex (bs : List UInt8) : String := String.ofList (bs.flatMap hexByte)

/-- Bytes as digit pairs with a space between two of them. -/
def toSpacedHex (bs : List UInt8) : String :=
  String.intercalate " " (bs.map fun b => String.ofList (hexByte b))

/-- The bytes of a run of digit pairs, each put in front of `acc` as it is read. -/
def readHexPairs? (acc : List UInt8) : List Char → Option (List UInt8)
  | [] => some acc.reverse
  | [_] => none
  | c :: d :: rest =>
    match hexValue? c, hexValue? d with
    | some high, some low => readHexPairs? (UInt8.ofNat (16 * high + low) :: acc) rest
    | _, _ => none

def ofHex? (s : String) : Option (List UInt8) := readHexPairs? [] s.toList

/-- The number a nonempty run of digits stands for. -/
def hexNumber? (cs : List Char) : Option Nat :=
  if cs.isEmpty then none
  else cs.foldlM (fun n c => (hexValue? c).map (16 * n + ·)) 0

theorem hexValue?_hexDigit {n : Nat} (h : n < 16) : hexValue? (hexDigit n) = some n := by
  revert n
  decide

theorem readHexPairs?_flatMap (acc bs : List UInt8) :
    readHexPairs? acc (bs.flatMap hexByte) = some (acc.reverse ++ bs) := by
  induction bs generalizing acc with
  | nil => simp [readHexPairs?]
  | cons b bs ih =>
    have hb := b.toNat_lt
    have hbyte : UInt8.ofNat (16 * (b.toNat / 16) + b.toNat % 16) = b := by
      rw [Nat.div_add_mod]
      exact UInt8.ofNat_toNat
    simp [hexByte, readHexPairs?, hexValue?_hexDigit (show b.toNat / 16 < 16 by omega),
      hexValue?_hexDigit (show b.toNat % 16 < 16 by omega), hbyte, ih]

theorem ofHex?_toHex (bs : List UInt8) : ofHex? (toHex bs) = some bs := by
  simp [ofHex?, toHex, readHexPairs?_flatMap]

end TableBuffer
