/-!
# UTF-8

Decoding of bytes that need not be text. `Utf8.decode` refuses the first bytes that encode no
character and says where they stand; `Utf8.decodeLossy` puts a replacement character in their place.
What is skipped is the longest run that still begins the encoding of some character.
-/

namespace TableBuffer.Utf8

/-- Where decoding stopped: at the bytes from `index` on. They are `length` bytes that begin no
character, or, without a length, a beginning that the end of the input cuts off. -/
structure Fault where
  index : Nat
  length : Option Nat
  deriving DecidableEq, Repr

def Fault.message (fault : Fault) : String :=
  match fault.length with
  | some n => "invalid utf-8 sequence of " ++ toString n ++ " bytes from index " ++ toString fault.index
  | none => "incomplete utf-8 byte sequence from index " ++ toString fault.index

/-- What a byte and those after it begin with. -/
inductive Head
  /-- A character whose encoding takes `more` bytes after the first. -/
  | char (c : Char) (more : Nat)
  /-- This many bytes that belong to no character. -/
  | invalid (length : Nat)
  /-- The encoding of a character up to the end of the input. -/
  | truncated
  deriving DecidableEq, Repr

def isContinuation (b : UInt8) : Bool := 0x80 ≤ b && b ≤ 0xBF

/-- The bits a continuation byte adds. -/
def payload (b : UInt8) : Nat := b.toNat % 64

/-- Whether `c` may follow `b`, the first of three bytes: no short form and no surrogate. -/
def followsFirstOfThree (b c : UInt8) : Bool :=
  if b = 0xE0 then 0xA0 ≤ c && c ≤ 0xBF
  else if b = 0xED then 0x80 ≤ c && c ≤ 0x9F
  else isContinuation c

/-- Whether `c` may follow `b`, the first of four bytes: no short form and nothing past U+10FFFF. -/
def followsFirstOfFour (b c : UInt8) : Bool :=
  if b = 0xF0 then 0x90 ≤ c && c ≤ 0xBF
  else if b = 0xF4 then 0x80 ≤ c && c ≤ 0x8F
  else isContinuation c

/-- The head of a run of bytes that starts with `b`. -/
def head (b : UInt8) (rest : List UInt8) : Head :=
  if b < 0x80 then .char (Char.ofNat b.toNat) 0
  else if 0xC2 ≤ b ∧ b ≤ 0xDF then
    match rest with
    | [] => .truncated
    | c :: _ =>
      if isContinuation c then .char (Char.ofNat (b.toNat % 32 * 64 + payload c)) 1 else .invalid 1
  else if 0xE0 ≤ b ∧ b ≤ 0xEF then
    match rest with
    | [] => .truncated
    | c :: rest =>
      if followsFirstOfThree b c then
        match rest with
        | [] => .truncated
        | d :: _ =>
          if isContinuation d then
            .char (Char.ofNat ((b.toNat % 16 * 64 + payload c) * 64 + payload d)) 2
          else .invalid 2
      else .invalid 1
  else if 0xF0 ≤ b ∧ b ≤ 0xF4 then
    match rest with
    | [] => .truncated
    | c :: rest =>
      if followsFirstOfFour b c then
        match rest with
        | [] => .truncated
        | d :: rest =>
          if isContinuation d then
            match rest with
            | [] => .truncated
            | e :: _ =>
              if isContinuation e then
                .char (Char.ofNat (((b.toNat % 8 * 64 + payload c) * 64 + payload d) * 64 + payload e)) 3
              else .invalid 3
          else .invalid 2
      else .invalid 1
  else .invalid 1

/-- Decodes bytes that start at `index`; `seen` holds the characters before them, latest first. -/
def decodeFrom (index : Nat) (seen : List Char) : List UInt8 → Except Fault (List Char)
  | [] => .ok seen.reverse
  | b :: rest =>
    match head b rest with
    | .char c more => decodeFrom (index + more + 1) (c :: seen) (rest.drop more)
    | .invalid length => .error ⟨index, some length⟩
    | .truncated => .error ⟨index, none⟩
  termination_by bytes => bytes.length
  decreasing_by simp only [List.length_drop, List.length_cons]; omega

/-- The text that bytes encode. -/
def decode (bytes : List UInt8) : Except Fault String :=
  (decodeFrom 0 [] bytes).map String.ofList

def replacement : Char := '\uFFFD'

def decodeLossyFrom (seen : List Char) : List UInt8 → List Char
  | [] => seen.reverse
  | b :: rest =>
    match head b rest with
    | .char c more => decodeLossyFrom (c :: seen) (rest.drop more)
    | .invalid length => decodeLossyFrom (replacement :: seen) (rest.drop (length - 1))
    | .truncated => (replacement :: seen).reverse
  termination_by bytes => bytes.length
  decreasing_by all_goals (simp only [List.length_drop, List.length_cons]; omega)

/-- The text of bytes, with a replacement character for each run that encodes none. -/
def decodeLossy (bytes : List UInt8) : String := String.ofList (decodeLossyFrom [] bytes)

end TableBuffer.Utf8
