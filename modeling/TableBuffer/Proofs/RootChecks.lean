import Mathlib.Control.Monad.Basic
import TableBuffer.Arena
import TableBuffer.Mutation
import TableBuffer.Proofs.Access
import TableBuffer.Proofs.Reading

/-!
# What the root checks ensure

The bytes of a buffer may come from anyone. The checks of a root take any bytes: they hand out a table or
report what is wrong, and never reach outside. `Table.Checked` is what they have made sure of, and all that
the readers of the layout rely on. The checks add and subtract numbers that the bytes give; no sum or
difference among them leaves the machine word.
-/

namespace TableBuffer

/-- The vtable of the table stands at `vtable` and is `length` bytes long, the table takes `tableLength`
bytes, and both lie inside the image. -/
structure Table.Checked (t : Table) (vtable length tableLength : Nat) : Prop where
  vtable_eq : t.vtable = .ok ⟨t.image, vtable⟩
  length_eq : VTable.length ⟨t.image, vtable⟩ = .ok length
  length_ge : 4 ≤ length
  length_even : length % 2 = 0
  vtable_inside : vtable + length ≤ t.image.size
  tableLength_eq : VTable.tableLength ⟨t.image, vtable⟩ = .ok tableLength
  tableLength_ge : 4 ≤ tableLength
  inside : t.position + tableLength ≤ t.image.size

theorem Table.vtable_eq_ok_iff {t : Table} {v : VTable} : t.vtable = .ok v ↔
    ∃ distance, t.image.int32 t.position = .ok distance ∧ 0 ≤ (t.position : Int) - distance ∧
      v = ⟨t.image, ((t.position : Int) - distance).toNat⟩ := by
  unfold Table.vtable
  rw [bind_eq_ok_iff]
  refine exists_congr fun distance => and_congr_right fun _ => ?_
  dsimp only
  split
  · exact ⟨nofun, fun h => absurd h.1 (by omega)⟩
  · exact ⟨fun h => ⟨by omega, (Except.ok.inj h).symm⟩, fun h => congrArg Except.ok h.2.symm⟩

/-- The checks accept just the tables that lie inside the image with their vtables. -/
theorem Image.checkedTable_eq_ok_iff {m : Image} {position : Nat} {t : Table} :
    m.checkedTable position = .ok t ↔
      t = ⟨m, position⟩ ∧ ∃ vtable length tableLength, t.Checked vtable length tableLength := by
  unfold checkedTable
  simp only [bind_eq_ok_iff, check_eq_ok_iff, exists_const, Bool.and_eq_true, decide_eq_true_eq, beq_iff_eq]
  constructor
  · rintro ⟨-, distance, hdistance, ⟨hback, -⟩, length, hlength, ⟨hge, heven⟩, hvtable, tableLength, htable,
      htge, hinside, hreturn⟩
    obtain rfl := Except.ok.inj hreturn
    exact ⟨rfl, _, length, tableLength, Table.vtable_eq_ok_iff.2 ⟨distance, hdistance, hback, rfl⟩, hlength,
      hge, heven, hvtable, htable, htge, hinside⟩
  · rintro ⟨rfl, vtable, length, tableLength, h⟩
    obtain ⟨distance, hdistance, hback, heq⟩ := Table.vtable_eq_ok_iff.1 h.vtable_eq
    obtain rfl : vtable = _ := congrArg VTable.position heq
    have hge := h.length_ge
    have hvtable := h.vtable_inside
    have htge := h.tableLength_ge
    have hinside := h.inside
    dsimp only at hvtable hinside
    exact ⟨by omega, distance, hdistance, ⟨hback, by omega⟩, length, h.length_eq, ⟨hge, h.length_even⟩,
      hvtable, tableLength, h.tableLength_eq, htge, hinside, rfl⟩

/-- No question about the layout of the table is a fault, and the answers fit together. -/
structure Table.Legible (t : Table) (v : VTable) (length tableLength slots : Nat)
    (fields : List (Nat × Nat)) : Prop where
  vtable_eq : t.vtable = .ok v
  length_eq : v.length = .ok length
  bytes : ∃ bytes, v.bytes = .ok bytes ∧ bytes.length = length
  tableLength_eq : v.tableLength = .ok tableLength
  slotCount : v.slotCount = .ok slots
  slots_le : slots ≤ VTable.maxSlots
  has : ∀ slot, ∃ offset, t.fieldOffset slot = .ok offset ∧ t.has slot = .ok (offset != 0)
  undeclared : ∀ slot, slots ≤ slot → t.has slot = .ok false
  present : v.present = .ok fields
  increasing : (fields.map Prod.fst).Pairwise (· < ·)
  mem_fields : ∀ slot offset,
    (slot, offset) ∈ fields ↔ t.has slot = .ok true ∧ t.fieldOffset slot = .ok offset
  /-- The bytes of the table can be read, in any pieces. -/
  access : ∀ start count, start + count ≤ tableLength →
    ∃ bytes, t.image.slice (t.position + start) count = .ok bytes

theorem VTable.present_eq {v : VTable} {slots : Nat} {entry : Nat → Nat} (hcount : v.slotCount = .ok slots)
    (hentry : ∀ slot, v.entry slot = .ok (entry slot)) :
    v.present =
      .ok (((List.range slots).map fun slot => (slot, entry slot)).filter fun p => p.2 != 0) := by
  have hread : (fun slot => do let position ← v.entry slot; return (slot, position)) =
      fun slot => (pure (slot, entry slot) : Outcome (Nat × Nat)) := by
    funext slot
    rw [hentry]
    rfl
  rw [present, hcount, ok_bind, hread, List.mapM_pure]
  rfl

section Fields

variable (slots : Nat) (entry : Nat → Nat)

theorem increasing_present :
    ((((List.range slots).map fun slot => (slot, entry slot)).filter fun p => p.2 != 0).map
      Prod.fst).Pairwise (· < ·) :=
  List.pairwise_map.2 (.filter _ (List.pairwise_map.2 List.pairwise_lt_range))

theorem mem_present {slot offset : Nat} :
    (slot, offset) ∈ ((List.range slots).map fun slot => (slot, entry slot)).filter (fun p => p.2 != 0) ↔
      slot < slots ∧ entry slot = offset ∧ offset ≠ 0 := by
  rw [List.mem_filter, List.mem_map, bne_iff_ne]
  constructor
  · rintro ⟨⟨s, hs, hpair⟩, hne⟩
    obtain ⟨rfl, hentry⟩ := Prod.mk.inj hpair
    exact ⟨List.mem_range.1 hs, hentry, hne⟩
  · rintro ⟨hs, rfl, hne⟩
    exact ⟨⟨slot, List.mem_range.2 hs, rfl⟩, hne⟩

end Fields

namespace Table.Checked

variable {t : Table} {vtable length tableLength : Nat} (h : t.Checked vtable length tableLength)

include h

theorem length_lt : length < 65536 := (Image.of_word16 h.length_eq).2

theorem slotCount : VTable.slotCount ⟨t.image, vtable⟩ = .ok (length / 2 - VTable.headerWords) := by
  rw [VTable.slotCount, h.length_eq]
  rfl

/-- An entry of a vtable that is not cut off inside a word is there as a whole. -/
theorem entry (slot : Nat) : ∃ offset, VTable.entry ⟨t.image, vtable⟩ slot = .ok offset ∧
    (length / 2 - VTable.headerWords ≤ slot → offset = 0) := by
  have heven := h.length_even
  have hinside := h.vtable_inside
  have hplace : VTable.entryPosition slot = (slot + 2) * 2 := rfl
  have hcount : length / 2 - VTable.headerWords = length / 2 - 2 := rfl
  rw [VTable.entry, h.length_eq, ok_bind]
  by_cases hslot : VTable.entryPosition slot < length
  · obtain ⟨offset, hoffset⟩ := @Image.word16_of_le t.image (vtable + VTable.entryPosition slot) (by omega)
    rw [if_pos hslot]
    exact ⟨offset, hoffset, fun _ => by omega⟩
  · rw [if_neg hslot]
    exact ⟨0, rfl, fun _ => rfl⟩

/-- The readers of the layout need no more than the checks have made sure of. -/
theorem legible : ∃ fields, t.Legible ⟨t.image, vtable⟩ length tableLength
    (length / 2 - VTable.headerWords) fields := by
  obtain ⟨entry, hentries⟩ := Classical.skolem.1 h.entry
  have hentry := fun slot => (hentries slot).1
  have hoffset (slot : Nat) : t.fieldOffset slot = .ok (entry slot) := by
    rw [fieldOffset, h.vtable_eq]
    exact hentry slot
  have hhas (slot : Nat) : t.has slot = .ok (entry slot != 0) := by
    rw [has, hoffset]
    rfl
  have hinside := h.inside
  refine ⟨_, h.vtable_eq, h.length_eq, ?_, h.tableLength_eq, h.slotCount, ?_,
    fun slot => ⟨entry slot, hoffset slot, hhas slot⟩, fun slot hslot => ?_, VTable.present_eq h.slotCount hentry,
    increasing_present _ entry, fun slot offset => ?_, fun start count hle => ?_⟩
  · obtain ⟨bytes, hbytes⟩ := Image.exists_slice_iff.2 h.vtable_inside
    refine ⟨bytes, ?_, Image.length_slice hbytes⟩
    rw [VTable.bytes, h.length_eq]
    exact hbytes
  · have hlt := h.length_lt
    simp only [VTable.maxSlots, VTable.headerWords]
    omega
  · rw [hhas, (hentries slot).2 hslot]
    rfl
  · rw [mem_present, hhas, hoffset, Except.ok.injEq, Except.ok.injEq, bne_iff_ne]
    constructor
    · rintro ⟨-, rfl, hne⟩
      exact ⟨hne, rfl⟩
    · rintro ⟨hne, rfl⟩
      exact ⟨Nat.lt_of_not_le fun hslot => hne ((hentries slot).2 hslot), rfl, hne⟩
  · exact Image.exists_slice_iff.2 (by omega)

end Table.Checked

/-- The answer of a check of bytes that may be any: it accepts them, or it reports what is wrong. -/
inductive Judged {α : Type} : Outcome α → Prop
  | accepted (a : α) : Judged (.ok a)
  | malformed (cause : Malformation) : Judged (.error (.error (.invalidFormat cause)))

namespace Judged

variable {α β : Type}

theorem check {condition : Bool} {cause : Malformation} {k : Unit → Outcome α}
    (h : condition = true → Judged (k ())) : Judged (TableBuffer.check condition cause >>= k) := by
  cases condition with
  | true => exact h rfl
  | false => exact .malformed cause

theorem of_exists {x : Outcome α} (h : ∃ a, x = .ok a) : Judged x := by
  obtain ⟨a, rfl⟩ := h
  exact .accepted a

theorem bind {x : Outcome α} {k : α → Outcome β} (hx : Judged x) (h : ∀ a, x = .ok a → Judged (k a)) :
    Judged (x >>= k) := by
  cases hx with
  | accepted a => exact h a rfl
  | malformed cause => exact .malformed cause

end Judged

namespace Image

variable (m : Image)

/-- Every access of the checks lies where an earlier check has looked. -/
theorem judged_checkedTable (position : Nat) : Judged (m.checkedTable position) := by
  refine .check fun htable => ?_
  refine .bind (.of_exists (int32_of_le (of_decide_eq_true htable))) fun distance _ => .check fun hheader => ?_
  simp only [Bool.and_eq_true, decide_eq_true_eq] at hheader
  refine .bind (.of_exists (word16_of_le (by dsimp only; omega))) fun length _ => ?_
  refine .check fun _ => .check fun _ => ?_
  refine .bind (.of_exists (word16_of_le (by dsimp only; omega))) fun tableLength _ => ?_
  exact .check fun _ => .check fun _ => .accepted _

theorem judged_root : Judged m.root := by
  refine .check fun hsize => ?_
  obtain ⟨distance, hdistance⟩ := word32_of_le (of_decide_eq_true hsize)
  have htarget : m.target 0 = .ok (0 + distance) := by
    rw [target, hdistance]
    rfl
  exact .bind (.of_exists ⟨_, htarget⟩) fun position _ => m.judged_checkedTable position

theorem judged_sizePrefixed : Judged m.sizePrefixed :=
  .check fun hsize => .bind (.of_exists (word32_of_le (of_decide_eq_true hsize))) fun _ _ =>
    .check fun _ => .accepted _

theorem judged_sizePrefixedRoot : Judged m.sizePrefixedRoot :=
  .bind m.judged_sizePrefixed fun body _ => body.judged_root

theorem rootWithIdentifier_cases (identifier : Identifier) :
    m.rootWithIdentifier identifier = m.root ∨ ∃ actual, actual ≠ identifier ∧
      m.rootWithIdentifier identifier = .error (.error (.identifierMismatch identifier actual)) := by
  unfold rootWithIdentifier
  by_cases hactual : m.identifier?.getD .zero = identifier
  · refine .inl ?_
    dsimp only
    rw [if_neg (not_not_intro hactual)]
  · refine .inr ⟨_, hactual, ?_⟩
    dsimp only
    rw [if_pos hactual]
    rfl

end Image

/-- A sum of machine words. A fault if it is none. -/
def addWords (a b : Nat) : Outcome Nat := if a + b < wordLimit then .ok (a + b) else .error .fault

/-- The difference of a machine word and a signed one, as a signed word. A fault if one of them is none. -/
def subtractSigned (a : Nat) (b : Int) : Outcome Int :=
  if a < Arena.allocationLimit ∧ -(Arena.allocationLimit : Int) ≤ a - b ∧
      (a - b : Int) < Arena.allocationLimit then .ok (a - b)
  else .error .fault

/-- A read whose end is a machine word. -/
def readInWords {α : Type} (position width : Nat) (read : Nat → Outcome α) : Outcome α := do
  let _end ← addWords position width
  read position

namespace Image

/-- `checkedTable` with every sum and every difference held to the machine word. -/
def checkedTableInWords (m : Image) (position : Nat) : Outcome Table := do
  check (position + 4 < wordLimit && position + 4 ≤ m.size) .tablePosition
  let distance ← readInWords position 4 m.int32
  let vtablePosition ← subtractSigned position distance
  let header ← addWords vtablePosition.toNat 4
  check (0 ≤ vtablePosition && header ≤ m.size) .vtablePosition
  let vtable : VTable := ⟨m, vtablePosition.toNat⟩
  let length ← readInWords vtable.position 2 m.word16
  check (4 ≤ length && length % 2 == 0) .vtableLength
  let vtableEnd ← addWords vtable.position length
  check (vtableEnd ≤ m.size) .vtablePastEnd
  let second ← addWords vtable.position 2
  let tableLength ← readInWords second 2 m.word16
  check (4 ≤ tableLength) .objectLength
  let tableEnd ← addWords position tableLength
  check (tableEnd ≤ m.size) .objectPastEnd
  return ⟨m, position⟩

/-- `root` with every sum held to the machine word. -/
def rootInWords (m : Image) : Outcome Table := do
  check (4 ≤ m.size) .rootMissing
  let distance ← readInWords 0 4 m.word32
  let position ← addWords 0 distance
  m.checkedTableInWords position

/-- `sizePrefixedRoot` with every sum held to the machine word. -/
def sizePrefixedRootInWords (m : Image) : Outcome Table := do
  check (4 ≤ m.size) .sizeMissing
  let size ← readInWords 0 4 m.word32
  check (size ≤ m.size - 4) .sizeTooLarge
  let bodyEnd ← addWords 4 size
  Image.rootInWords ⟨m.order, m.bytes.extract 4 bodyEnd⟩

end Image

section Words

variable {α β : Type}

theorem addWords_of_lt {a b : Nat} (h : a + b < wordLimit) : addWords a b = .ok (a + b) := if_pos h

theorem subtractSigned_of_lt {a : Nat} {b : Int} (ha : a < Arena.allocationLimit)
    (hlow : -(Arena.allocationLimit : Int) ≤ a - b) (hhigh : (a - b : Int) < Arena.allocationLimit) :
    subtractSigned a b = .ok (a - b) :=
  if_pos ⟨ha, hlow, hhigh⟩

theorem readInWords_of_lt {position width : Nat} {read : Nat → Outcome α}
    (h : position + width < wordLimit) : readInWords position width read = read position := by
  rw [readInWords, addWords_of_lt h]
  rfl

/-- Two checks of one condition agree if what follows agrees once the condition holds. -/
theorem check_congr {c c' : Bool} {cause : Malformation} {k k' : Unit → Outcome α} (hc : c = c')
    (h : c' = true → k () = k' ()) : (check c cause >>= k) = (check c' cause >>= k') := by
  subst hc
  cases c with
  | true => exact h rfl
  | false => rfl

theorem bind_congr_ok {x : Outcome α} {k k' : α → Outcome β} (h : ∀ a, x = .ok a → k a = k' a) :
    (x >>= k) = (x >>= k') := by
  cases x with
  | ok a => exact h a rfl
  | error _ => rfl

end Words

namespace Image

variable {m : Image}

/-- The numbers that the bytes give are too small to leave the word, wherever the checks let them stand. -/
theorem checkedTableInWords_eq {position : Nat} (hsize : m.size < Arena.allocationLimit)
    (hposition : position < 4294967296) : m.checkedTableInWords position = m.checkedTable position := by
  have hlimit : Arena.allocationLimit = 9223372036854775808 := rfl
  have hwords : wordLimit = 18446744073709551616 := rfl
  refine check_congr (by simp; omega) fun htable => ?_
  have htable := of_decide_eq_true htable
  rw [readInWords_of_lt (by omega)]
  refine bind_congr_ok fun distance hdistance => ?_
  have hbounds := of_int32 hdistance
  rw [subtractSigned_of_lt (by omega) (by omega) (by omega), ok_bind]
  rw [addWords_of_lt (by omega), ok_bind]
  refine check_congr rfl fun hheader => ?_
  simp only [Bool.and_eq_true, decide_eq_true_eq] at hheader
  dsimp only
  rw [readInWords_of_lt (by omega)]
  refine bind_congr_ok fun length hlength => check_congr rfl fun _ => ?_
  have hlengthBound := of_word16 hlength
  rw [addWords_of_lt (by omega), ok_bind]
  refine check_congr rfl fun _ => ?_
  rw [addWords_of_lt (by omega), ok_bind, readInWords_of_lt (by omega)]
  refine bind_congr_ok fun tableLength htableLength => check_congr rfl fun _ => ?_
  have htableBound := of_word16 htableLength
  rw [addWords_of_lt (by omega), ok_bind]

theorem rootInWords_eq (hsize : m.size < Arena.allocationLimit) : m.rootInWords = m.root := by
  refine check_congr rfl fun _ => ?_
  rw [readInWords_of_lt (by decide), target, bind_assoc]
  refine bind_congr_ok fun distance hdistance => ?_
  have hbound := of_word32 hdistance
  have hwords : wordLimit = 18446744073709551616 := rfl
  rw [addWords_of_lt (by omega), ok_bind, pure_bind, checkedTableInWords_eq hsize (by omega)]

theorem sizePrefixedRootInWords_eq (hsize : m.size < Arena.allocationLimit) :
    m.sizePrefixedRootInWords = m.sizePrefixedRoot := by
  rw [sizePrefixedRoot, sizePrefixed, bind_assoc]
  refine check_congr rfl fun _ => ?_
  rw [readInWords_of_lt (by decide), bind_assoc]
  refine bind_congr_ok fun size hbound => ?_
  rw [bind_assoc]
  refine check_congr rfl fun hfits => ?_
  have hfits := of_decide_eq_true hfits
  have hlimit : Arena.allocationLimit = 9223372036854775808 := rfl
  have hwords : wordLimit = 18446744073709551616 := rfl
  rw [addWords_of_lt (by omega), ok_bind, pure_bind]
  have hbody : Image.size ⟨m.order, m.bytes.extract 4 (4 + size)⟩ ≤ m.size := by
    simp only [Image.size, Array.size_extract]
    omega
  exact rootInWords_eq (by omega)

theorem legible_of_checkedTable {position : Nat} {t : Table} (h : m.checkedTable position = .ok t) :
    ∃ v length tableLength slots fields, t.Legible v length tableLength slots fields := by
  obtain ⟨-, vtable, length, tableLength, hchecked⟩ := checkedTable_eq_ok_iff.1 h
  obtain ⟨fields, hlegible⟩ := hchecked.legible
  exact ⟨_, length, tableLength, _, fields, hlegible⟩

/-- The root table stands where the first word says. -/
theorem of_root {t : Table} (h : m.root = .ok t) :
    t.image = m ∧ m.word32 0 = .ok t.position ∧ m.checkedTable t.position = .ok t := by
  obtain ⟨-, -, hread⟩ := bind_eq_ok_iff.1 h
  obtain ⟨position, htarget, hcheck⟩ := bind_eq_ok_iff.1 hread
  obtain ⟨distance, hdistance, hposition⟩ := bind_eq_ok_iff.1 htarget
  obtain rfl : position = 0 + distance := (Except.ok.inj hposition).symm
  obtain rfl : t = ⟨m, 0 + distance⟩ := (checkedTable_eq_ok_iff.1 hcheck).1
  rw [Nat.zero_add] at hcheck ⊢
  exact ⟨rfl, hdistance, hcheck⟩

/-- The root table of a buffer that may have its length in front. -/
def rootAs (m : Image) (sizePrefixed : Bool) : Outcome Table :=
  if sizePrefixed then m.sizePrefixedRoot else m.root

theorem root_of_rootAs {sizePrefixed : Bool} {t : Table} (h : m.rootAs sizePrefixed = .ok t) :
    t.image.root = .ok t ∧ (sizePrefixed = true → m.sizePrefixed = .ok t.image) ∧
      (sizePrefixed = false → t.image = m) := by
  cases sizePrefixed with
  | true =>
    obtain ⟨body, hbody, hroot⟩ := bind_eq_ok_iff.1 h
    obtain rfl := (of_root hroot).1
    exact ⟨hroot, fun _ => hbody, nofun⟩
  | false =>
    obtain rfl := (of_root h).1
    exact ⟨h, nofun, fun _ => rfl⟩

theorem judged_rootAs (m : Image) (sizePrefixed : Bool) : Judged (m.rootAs sizePrefixed) := by
  cases sizePrefixed with
  | true => exact m.judged_sizePrefixedRoot
  | false => exact m.judged_root

end Image

theorem Table.exists_checkedTable_of_checkedTable? {t inner : Table} {slot : Nat}
    (h : t.checkedTable? slot = .ok (some inner)) :
    ∃ position, t.image.checkedTable position = .ok inner := by
  obtain ⟨place, -, hread⟩ := bind_eq_ok_iff.1 h
  cases place with
  | none => cases hread
  | some position =>
    obtain ⟨_, htarget, hreturn⟩ := bind_eq_ok_iff.1 hread
    obtain ⟨target, -, hcheck⟩ := bind_eq_ok_iff.1 htarget
    cases hreturn
    exact ⟨target, hcheck⟩

/-- The root table is the one that the first word leads to, if it lies inside with its vtable. -/
theorem Image.root_eq_ok_iff {m : Image} {t : Table} : m.root = .ok t ↔ t.image = m ∧
    m.word32 0 = .ok t.position ∧ ∃ vtable length tableLength, t.Checked vtable length tableLength := by
  constructor
  · intro h
    obtain ⟨himage, hposition, hcheck⟩ := of_root h
    exact ⟨himage, hposition, (checkedTable_eq_ok_iff.1 hcheck).2⟩
  · rintro ⟨rfl, hposition, hchecked⟩
    have hsize : 0 + 4 ≤ t.image.size := (of_word32 hposition).1
    have hcheck : t.image.checkedTable t.position = .ok t := checkedTable_eq_ok_iff.2 ⟨rfl, hchecked⟩
    rw [root, check_of_true (decide_eq_true (by omega)), ok_bind, target, hposition, ok_bind, pure_bind,
      Nat.zero_add, hcheck]

/-- The checks of a root judge any bytes without leaving them, and no image that can be set aside makes them
leave the machine word. They accept what lies inside, and of a table that one of them hands out the whole
layout can be read. -/
theorem Image.roots_checked (m : Image) (identifier : Identifier) :
    Judged m.root ∧ Judged m.sizePrefixedRoot ∧
    (Judged (m.rootWithIdentifier identifier) ∨ ∃ actual, actual ≠ identifier ∧
      m.rootWithIdentifier identifier = .error (.error (.identifierMismatch identifier actual))) ∧
    (m.size < Arena.allocationLimit →
      m.rootInWords = m.root ∧ m.sizePrefixedRootInWords = m.sizePrefixedRoot) ∧
    (∀ t, m.root = .ok t ↔ t.image = m ∧ m.word32 0 = .ok t.position ∧
      ∃ vtable length tableLength, t.Checked vtable length tableLength) ∧
    ∀ t : Table, (m.root = .ok t ∨ m.rootWithIdentifier identifier = .ok t ∨ m.sizePrefixedRoot = .ok t ∨
        ∃ (outer : Table) (slot : Nat), outer.checkedTable? slot = .ok (some t)) →
      ∃ v length tableLength slots fields, t.Legible v length tableLength slots fields := by
  have hroot {image : Image} {t : Table} (h : image.root = .ok t) :
      ∃ v length tableLength slots fields, t.Legible v length tableLength slots fields :=
    legible_of_checkedTable (of_root h).2.2
  refine ⟨m.judged_root, m.judged_sizePrefixedRoot, ?_,
    fun hsize => ⟨rootInWords_eq hsize, sizePrefixedRootInWords_eq hsize⟩, fun _ => root_eq_ok_iff,
    fun t ht => ?_⟩
  · obtain hsame | hmismatch := m.rootWithIdentifier_cases identifier
    · exact .inl (hsame ▸ m.judged_root)
    · exact .inr hmismatch
  · obtain h | h | h | ⟨outer, slot, h⟩ := ht
    · exact hroot h
    · obtain hsame | ⟨actual, -, hmismatch⟩ := m.rootWithIdentifier_cases identifier
      · exact hroot (hsame ▸ h)
      · exact nomatch hmismatch.symm.trans h
    · obtain ⟨body, -, hbody⟩ := bind_eq_ok_iff.1 h
      exact hroot hbody
    · obtain ⟨position, hcheck⟩ := Table.exists_checkedTable_of_checkedTable? h
      exact legible_of_checkedTable hcheck

/-- A table with a number in its first slot and nothing in its second. -/
theorem Image.roots_checked_sparse_table : ∃ (m : Image) (t : Table), m.size < Arena.allocationLimit ∧
    m.root = .ok t ∧ m.rootInWords = .ok t ∧ t.has 0 = .ok true ∧ t.has 1 = .ok false ∧
      ∃ v length tableLength slots fields, t.Legible v length tableLength slots fields := by
  let m : Image := ⟨.little, #[12, 0, 0, 0, 8, 0, 8, 0, 4, 0, 0, 0, 8, 0, 0, 0, 42, 0, 0, 0]⟩
  let t : Table := ⟨m, 12⟩
  have hsize : m.size < Arena.allocationLimit := by decide +kernel
  have hroot : m.root = .ok t := by decide +kernel
  have hpresent : t.has 0 = .ok true := by decide +kernel
  have habsent : t.has 1 = .ok false := by decide +kernel
  obtain ⟨-, -, -, hwords, -, hlegible⟩ := m.roots_checked .zero
  exact ⟨m, t, hsize, hroot, (hwords hsize).1.trans hroot, hpresent, habsent, hlegible t (.inl hroot)⟩

end TableBuffer
