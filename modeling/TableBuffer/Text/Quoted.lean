import TableBuffer.Text.Hidden
import TableBuffer.Text.Hex

/-!
# Quoted text

A text between double quotes, in one line: the quote, the backslash and the common controls have a
letter of their own, every other hidden character stands as its code point.
-/

namespace TableBuffer

/-- The hexadecimal digits of `n`, most significant first, without leading zeros. -/
def hexDigitsOf (n : Nat) : List Char := Nat.toDigits 16 n

/-- How a character is written between quotes. -/
def quotedChar (c : Char) : List Char :=
  if c = '\x00' then ['\\', '0']
  else if c = '\t' then ['\\', 't']
  else if c = '\r' then ['\\', 'r']
  else if c = '\n' then ['\\', 'n']
  else if c = '"' ∨ c = '\\' then ['\\', c]
  else if isHidden c then ['\\', 'u', '\x7b'] ++ hexDigitsOf c.toNat ++ ['\x7d']
  else [c]

def quoted (s : String) : String := String.ofList ('"' :: s.toList.flatMap quotedChar ++ ['"'])

end TableBuffer
