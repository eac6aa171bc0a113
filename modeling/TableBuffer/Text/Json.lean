import TableBuffer.Text.Hex

/-!
# JSON

Values, their reader and their two printed forms. The reader takes the strict grammar: no trailing
comma, no leading zero, no control character in a string. Numbers are only told apart as far as
options and summaries need it.
-/

namespace TableBuffer

inductive Json
  | null
  | bool (b : Bool)
  /-- A number written with digits alone. -/
  | natural (n : Nat)
  /-- Any other number, by what is written. -/
  | number (literal : String)
  /-- A string. None stands for one with an unpaired surrogate, which is no text. -/
  | string (text : Option String)
  | array (items : List Json)
  /-- The members in the order written. -/
  | object (members : List (Option String × Json))

namespace Json

def isBlank (c : Char) : Bool := c == ' ' || c == '\t' || c == '\n' || c == '\r'

def skipBlanks (cs : List Char) : List Char := cs.dropWhile isBlank

/-- The characters that code points spell, where a pair of surrogates is one character. -/
def ofCodePoints? : List Nat → Option (List Char)
  | [] => some []
  | n :: rest =>
    if 0xD800 ≤ n ∧ n < 0xDC00 then
      match rest with
      | m :: rest =>
        if 0xDC00 ≤ m ∧ m < 0xE000 then
          (ofCodePoints? rest).map (Char.ofNat (0x10000 + (n - 0xD800) * 1024 + (m - 0xDC00)) :: ·)
        else none
      | [] => none
    else if 0xDC00 ≤ n ∧ n < 0xE000 then none
    else (ofCodePoints? rest).map (Char.ofNat n :: ·)

/-- What a backslash and one more letter stand for. -/
def escaped? (c : Char) : Option Nat :=
  match c with
  | '"' => some 34
  | '\\' => some 92
  | '/' => some 47
  | 'b' => some 8
  | 'f' => some 12
  | 'n' => some 10
  | 'r' => some 13
  | 't' => some 9
  | _ => none

/-- Reads the rest of a string after its opening quote; `seen` holds what came before, latest first. -/
def readString? (seen : List Nat) : List Char → Option (Option String × List Char)
  | [] => none
  | '"' :: rest => some ((ofCodePoints? seen.reverse).map String.ofList, rest)
  | '\\' :: 'u' :: a :: b :: c :: d :: rest =>
    match hexNumber? [a, b, c, d] with
    | some n => readString? (n :: seen) rest
    | none => none
  | '\\' :: c :: rest =>
    match escaped? c with
    | some n => readString? (n :: seen) rest
    | none => none
  | c :: rest => if c.toNat < 32 then none else readString? (c.toNat :: seen) rest

/-- A run of one or more digits. -/
def readDigits? (cs : List Char) : Option (List Char × List Char) :=
  match cs.takeWhile Char.isDigit with
  | [] => none
  | ds => some (ds, cs.dropWhile Char.isDigit)

/-- The digits before a point: a single zero, or digits that do not start with one. -/
def readWhole? (cs : List Char) : Option (List Char × List Char) := do
  let (ds, rest) ← readDigits? cs
  if ds.head? = some '0' ∧ ds.length ≠ 1 then none else some (ds, rest)

def readFraction? : List Char → Option (List Char × List Char)
  | '.' :: rest => (readDigits? rest).map fun (ds, rest) => ('.' :: ds, rest)
  | rest => some ([], rest)

def readExponent? : List Char → Option (List Char × List Char)
  | e :: rest =>
    if e == 'e' || e == 'E' then
      match rest with
      | '+' :: rest => (readDigits? rest).map fun (ds, rest) => (e :: '+' :: ds, rest)
      | '-' :: rest => (readDigits? rest).map fun (ds, rest) => (e :: '-' :: ds, rest)
      | rest => (readDigits? rest).map fun (ds, rest) => (e :: ds, rest)
    else some ([], e :: rest)
  | [] => some ([], [])

def digitsValue (ds : List Char) : Nat := ds.foldl (fun n c => 10 * n + (c.toNat - 48)) 0

def readNumber? (cs : List Char) : Option (Json × List Char) := do
  let (sign, cs) := match cs with
    | '-' :: rest => (['-'], rest)
    | rest => ([], rest)
  let (whole, cs) ← readWhole? cs
  let (fraction, cs) ← readFraction? cs
  let (exponent, cs) ← readExponent? cs
  if sign.isEmpty && fraction.isEmpty && exponent.isEmpty then
    some (natural (digitsValue whole), cs)
  else some (number (String.ofList (sign ++ whole ++ fraction ++ exponent)), cs)

/-- The text after a word, if it begins with that word. -/
def afterWord? (word cs : List Char) : Option (List Char) :=
  if word.isPrefixOf cs then some (cs.drop word.length) else none

mutual

/-- Reads one value. The fuel bounds how deep values stand in each other and how many stand in a row. -/
def readValue? : Nat → List Char → Option (Json × List Char)
  | 0, _ => none
  | fuel + 1, cs =>
    match skipBlanks cs with
    | [] => none
    | c :: rest =>
      if c = '"' then (readString? [] rest).map fun (s, rest) => (string s, rest)
      else if c = '[' then
        match skipBlanks rest with
        | ']' :: rest => some (array [], rest)
        | rest => readItems? fuel [] rest
      else if c = '\x7b' then
        match skipBlanks rest with
        | '\x7d' :: rest => some (object [], rest)
        | rest => readMembers? fuel [] rest
      else if c = 'n' then (afterWord? ['u', 'l', 'l'] rest).map fun rest => (null, rest)
      else if c = 't' then (afterWord? ['r', 'u', 'e'] rest).map fun rest => (bool true, rest)
      else if c = 'f' then (afterWord? ['a', 'l', 's', 'e'] rest).map fun rest => (bool false, rest)
      else readNumber? (c :: rest)

/-- Reads the items of an array up to its closing bracket; `seen` holds those before, latest first. -/
def readItems? : Nat → List Json → List Char → Option (Json × List Char)
  | 0, _, _ => none
  | fuel + 1, seen, cs =>
    match readValue? fuel cs with
    | none => none
    | some (v, rest) =>
      match skipBlanks rest with
      | ',' :: rest => readItems? fuel (v :: seen) rest
      | ']' :: rest => some (array (v :: seen).reverse, rest)
      | _ => none

/-- Reads the members of an object up to its closing brace; `seen` holds those before, latest first. -/
def readMembers? : Nat → List (Option String × Json) → List Char → Option (Json × List Char)
  | 0, _, _ => none
  | fuel + 1, seen, cs =>
    match skipBlanks cs with
    | '"' :: rest =>
      match readString? [] rest with
      | none => none
      | some (key, rest) =>
        match skipBlanks rest with
        | ':' :: rest =>
          match readValue? fuel rest with
          | none => none
          | some (v, rest) =>
            match skipBlanks rest with
            | ',' :: rest => readMembers? fuel ((key, v) :: seen) rest
            | '\x7d' :: rest => some (object ((key, v) :: seen).reverse, rest)
            | _ => none
        | _ => none
    | _ => none

end

/-- The value that a whole text stands for. A value of `n` characters needs at most `2 n` steps. -/
def ofText? (s : String) : Option Json := do
  let (v, rest) ← readValue? (2 * s.length + 2) s.toList
  if (skipBlanks rest).isEmpty then some v else none

/-- How a character is written in a string. -/
def escape (c : Char) : List Char :=
  if c = '"' then ['\\', '"']
  else if c = '\\' then ['\\', '\\']
  else if c = '\n' then ['\\', 'n']
  else if c = '\r' then ['\\', 'r']
  else if c = '\t' then ['\\', 't']
  else if c.toNat = 8 then ['\\', 'b']
  else if c.toNat = 12 then ['\\', 'f']
  else if c.toNat < 32 then ['\\', 'u', '0', '0'] ++ hexByte (UInt8.ofNat c.toNat)
  else [c]

def stringText (s : String) : String := String.ofList ('"' :: s.toList.flatMap escape ++ ['"'])

/-- How the parts of an array or object are set apart. -/
structure Style where
  /-- What stands before each part and before the closing bracket, by depth. -/
  lineBreak : Nat → String
  /-- What stands between a key and its value. -/
  colon : String

/-- All in one line without blanks. -/
def Style.compact : Style := ⟨fun _ => "", ":"⟩

/-- Each part on a line of its own, two blanks in for each level. -/
def Style.pretty : Style := ⟨fun depth => "\n" ++ String.ofList (List.replicate (2 * depth) ' '), ": "⟩

/-- Parts between two brackets, with commas and breaks between them. Without parts the brackets touch. -/
def Style.enclose (style : Style) (depth : Nat) (opening closing : String) : List String → String
  | [] => opening ++ closing
  | parts => opening ++ style.lineBreak (depth + 1)
      ++ String.intercalate ("," ++ style.lineBreak (depth + 1)) parts ++ style.lineBreak depth ++ closing

mutual

def render (style : Style) (depth : Nat) : Json → String
  | null => "null"
  | bool b => if b then "true" else "false"
  | natural n => toString n
  | number literal => literal
  | string text => stringText (text.getD "")
  | array items => style.enclose depth "[" "]" (renderItems style (depth + 1) items)
  | object members => style.enclose depth "\x7b" "\x7d" (renderMembers style (depth + 1) members)

def renderItems (style : Style) (depth : Nat) : List Json → List String
  | [] => []
  | v :: rest => render style depth v :: renderItems style depth rest

def renderMembers (style : Style) (depth : Nat) : List (Option String × Json) → List String
  | [] => []
  | (key, v) :: rest =>
    (stringText (key.getD "") ++ style.colon ++ render style depth v) :: renderMembers style depth rest

end

def compact (v : Json) : String := v.render .compact 0

def pretty (v : Json) : String := v.render .pretty 0

end Json

end TableBuffer
