/-!
# Control sequences

Text as it is shown where nothing acts on the sequences that steer a terminal: they are left out, and
so are the controls, blanks apart. Main statements: what is shown is part of the text and holds no other
control (`withoutControls_sublist`, `isShowable_of_mem_withoutControls`), and a text with nothing to
leave out is shown whole (`withoutControls_eq_self`).
-/

namespace TableBuffer

/-- How far a sequence has come. -/
inductive SequenceState
  | outside
  /-- The escape character was read. -/
  | escape
  /-- An escape sequence waits for its last character. -/
  | escapeRest
  /-- A control sequence waits for its last character. -/
  | control
  /-- A device control string waits for its name or a parameter. -/
  | device
  /-- A parameter of a device control string was read. -/
  | deviceParameter
  /-- A device control string waits for its name only. -/
  | deviceRest
  /-- A string runs to its terminator. -/
  | string
  /-- A system command runs to its terminator or to the bell. -/
  | command
  deriving DecidableEq, Repr

/-- The blanks among the controls. -/
def isBlankControl (c : Char) : Bool := c == '\t' || c == '\n' || c == '\x0c' || c == '\r'

/-- Whether a character is shown outside all sequences. -/
def isShowable (c : Char) : Bool := isBlankControl c || 0x20 ≤ c.toNat && c.toNat != 0x7f

def isIntermediate (c : Char) : Bool := 0x20 ≤ c.toNat && c.toNat ≤ 0x2f

def isParameter (c : Char) : Bool := 0x30 ≤ c.toNat && c.toNat ≤ 0x3f

/-- Whether a character can be the last of a sequence, or the name of a string. -/
def isFinal (c : Char) : Bool := 0x40 ≤ c.toNat && c.toNat ≤ 0x7e

/-- The byte that terminates a string, wherever it stands. -/
def stringTerminator : UInt8 := 0x9c

namespace SequenceState

/-- The state after a character that is not shown. Escape starts a sequence in every state, and the two
cancelling controls end it. -/
def advance (s : SequenceState) (c : Char) : SequenceState :=
  if c = '\x1b' then escape
  else if c = '\x18' ∨ c = '\x1a' then outside
  else match s with
  | outside => outside
  | escape =>
    if isIntermediate c then escapeRest
    else if c = '[' then control
    else if c = ']' then command
    else if c = 'P' then device
    else if c = 'X' ∨ c = '^' ∨ c = '_' then string
    else if isParameter c || isFinal c then outside
    else escape
  | escapeRest => if isParameter c || isFinal c then outside else escapeRest
  | control => if isFinal c then outside else control
  | device =>
    if isIntermediate c then deviceRest
    else if isParameter c then deviceParameter
    else if isFinal c then string
    else device
  | deviceParameter =>
    if isIntermediate c then deviceRest
    else if isFinal c || 0x3c ≤ c.toNat && isParameter c then string
    else deviceParameter
  | deviceRest => if isParameter c || isFinal c then string else deviceRest
  | string => if (String.utf8EncodeChar c).contains stringTerminator then outside else string
  | command => if c = '\x07' then outside else command

/-- Whether a character is shown in a state. Sequences other than strings let blank controls through. -/
def shows (s : SequenceState) (c : Char) : Bool :=
  match s with
  | outside => isShowable c
  | escape => isBlankControl c
  | escapeRest => isBlankControl c
  | control => isBlankControl c
  | _ => false

theorem isShowable_of_shows {s : SequenceState} {c : Char} (h : s.shows c = true) : isShowable c = true := by
  cases s <;> simp_all [shows, isShowable]

end SequenceState

/-- What is shown of some characters. A blank control inside a sequence suspends it: text is shown up to
the next control, at which the sequence goes on, unless a character beyond ASCII has ended it. -/
def shownFrom (s : SequenceState) (suspended : Bool) : List Char → List Char
  | [] => []
  | c :: rest =>
    if suspended && isShowable c then c :: shownFrom (if c.toNat < 0x80 then s else .outside) true rest
    else if s.shows c then c :: shownFrom s true rest
    else shownFrom (s.advance c) false rest

/-- What is shown of a text. -/
def withoutControls (s : String) : String := String.ofList (shownFrom .outside false s.toList)

theorem shownFrom_sublist (s : SequenceState) (suspended : Bool) (cs : List Char) :
    List.Sublist (shownFrom s suspended cs) cs := by
  induction cs generalizing s suspended with
  | nil => exact List.Sublist.slnil
  | cons c rest ih =>
    unfold shownFrom
    split
    · exact (ih _ _).cons_cons c
    · split
      · exact (ih _ _).cons_cons c
      · exact (ih _ _).cons c

theorem isShowable_of_mem_shownFrom {s : SequenceState} {suspended : Bool} {cs : List Char} {c : Char}
    (h : c ∈ shownFrom s suspended cs) : isShowable c = true := by
  induction cs generalizing s suspended with
  | nil => cases h
  | cons d rest ih =>
    unfold shownFrom at h
    split at h
    · rename_i hd
      rcases List.mem_cons.1 h with rfl | h
      · exact (Bool.and_eq_true_iff.1 hd).2
      · exact ih h
    · split at h
      · rename_i hd
        rcases List.mem_cons.1 h with rfl | h
        · exact SequenceState.isShowable_of_shows hd
        · exact ih h
      · exact ih h

theorem shownFrom_eq_self {suspended : Bool} {cs : List Char} (h : ∀ c ∈ cs, isShowable c = true) :
    shownFrom .outside suspended cs = cs := by
  induction cs generalizing suspended with
  | nil => rfl
  | cons c rest ih =>
    have hc := h c List.mem_cons_self
    have hrest := fun d hd => h d (List.mem_cons_of_mem c hd)
    unfold shownFrom
    cases suspended <;> simp [hc, SequenceState.shows, ih hrest]

/-- What is shown is part of the text, in its order. -/
theorem withoutControls_sublist (s : String) : List.Sublist (withoutControls s).toList s.toList := by
  rw [withoutControls, String.toList_ofList]
  exact shownFrom_sublist _ _ _

/-- What is shown holds no control but blanks. -/
theorem isShowable_of_mem_withoutControls {s : String} {c : Char} (h : c ∈ (withoutControls s).toList) :
    isShowable c = true := by
  rw [withoutControls, String.toList_ofList] at h
  exact isShowable_of_mem_shownFrom h

/-- A text of showable characters only is shown whole. -/
theorem withoutControls_eq_self {s : String} (h : ∀ c ∈ s.toList, isShowable c = true) :
    withoutControls s = s := by
  rw [withoutControls, shownFrom_eq_self h, String.ofList_toList]

end TableBuffer
