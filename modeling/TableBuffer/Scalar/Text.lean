import TableBuffer.Scalar
import TableBuffer.Text.Hex

/-!
# The text of a scalar

Integers are written in decimal, truth values by name, and floats as the hexadecimal digits of their
bit pattern, most significant first, so that no digit of a value is lost.
-/

namespace TableBuffer.ScalarType

/-- The name of a type: a letter for the kind and the number of bits. -/
def name : ScalarType → String
  | bool => "bool"
  | unsigned w => "u" ++ toString (8 * w.bytes)
  | signed w => "i" ++ toString (8 * w.bytes)
  | float f => "f" ++ toString (8 * f.bytes)

def all : List ScalarType :=
  [bool, unsigned .w8, signed .w8, unsigned .w16, signed .w16, unsigned .w32, signed .w32,
    unsigned .w64, signed .w64, float .single, float .double]

def ofName? (s : String) : Option ScalarType := all.find? (·.name == s)

/-- The `digits` low hexadecimal digits of `n`, most significant first. -/
def hexDigits (digits n : Nat) : List Char :=
  (List.range digits).reverse.map fun i => hexDigit ((n >>> (4 * i)) % 16)

def text : (ty : ScalarType) → ty.Value → String
  | bool, b => if b then "true" else "false"
  | unsigned _, v => toString v.toNat
  | signed _, v => toString v.toInt
  | float f, v => String.ofList (hexDigits (2 * f.bytes) v.toNat)

/-- The number that a nonempty run of decimal digits stands for. -/
def decimal? (cs : List Char) : Option Nat :=
  if cs.isEmpty then none
  else cs.foldlM (fun n c => if c.isDigit then some (10 * n + (c.toNat - 48)) else none) 0

/-- An integer in decimal, with a minus sign if it is negative. -/
def integer? : List Char → Option Int
  | '-' :: cs => (decimal? cs).map fun n => -(n : Int)
  | cs => (decimal? cs).map fun n => (n : Int)

/-- The value a text stands for; none if it is no such text or out of the type's range. -/
def ofText? (s : String) : (ty : ScalarType) → Option ty.Value
  | bool => if s == "true" then some true else if s == "false" then some false else none
  | unsigned w => do
    let n ← decimal? s.toList
    if n < valueCount w.bytes then some (BitVec.ofNat _ n) else none
  | signed w => do
    let n ← integer? s.toList
    let v := BitVec.ofInt (8 * w.bytes) n
    if v.toInt = n then some v else none
  | float f => do
    let n ← hexNumber? s.toList
    if s.length = 2 * f.bytes then some (BitVec.ofNat _ n) else none

end TableBuffer.ScalarType
