import TableBuffer.Inspect.Summary
import TableBuffer.Proofs.RootChecks

/-!
# The summary of a buffer agrees with its readers

A summary is made of any file that has a root table and of no other. It takes the identifier from all that
follows a length in front, where a reader stays within that length: no buffer that is too short to hold an
identifier has a root table, so both see the same bytes.
-/

namespace TableBuffer

namespace Image

variable {m : Image}

/-- A root table at the very start would be its own vtable: its distance is the word that leads to it. -/
theorem vtable_eq_zero_of_position_zero {t : Table} {vtable length tableLength : Nat}
    (hroot : t.image.word32 0 = .ok t.position) (h : t.Checked vtable length tableLength)
    (hzero : t.position = 0) : vtable = 0 := by
  obtain ⟨distance, hdistance, -, heq⟩ := Table.vtable_eq_ok_iff.1 h.vtable_eq
  rw [hzero] at hroot hdistance heq
  obtain rfl : ((0 : Nat) : Int) = distance :=
    Except.ok.inj ((int32_of_word32 hroot (by decide)).symm.trans hdistance)
  exact congrArg VTable.position heq

/-- No buffer that is shorter than its header has a root table. -/
theorem eight_le_of_root {t : Table} (h : m.root = .ok t) : 8 ≤ m.size := by
  obtain ⟨rfl, hroot, hcheck⟩ := of_root h
  obtain ⟨-, vtable, length, tableLength, hchecked⟩ := checkedTable_eq_ok_iff.1 hcheck
  refine Nat.le_of_not_lt fun hshort => ?_
  have hinside := hchecked.inside
  have htable := hchecked.tableLength_ge
  have hvtable := hchecked.vtable_inside
  have hlength := hchecked.length_ge
  have heven := hchecked.length_even
  have hself := vtable_eq_zero_of_position_zero hroot hchecked
  -- The root lies before the fifth byte, and so does the vtable, whose length then is made of the bytes
  -- that lead to the root.
  have hrootBytes := bytes_of_word32 hroot
  have hlengthBytes := bytes_of_word16 hchecked.length_eq
  have hplace : vtable = 0 ∨ vtable = 1 ∨ vtable = 2 ∨ vtable = 3 := by omega
  cases horder : t.image.order with
  | little =>
    simp only [horder] at hrootBytes hlengthBytes
    obtain rfl | rfl | rfl | rfl := hplace <;> dsimp only [Nat.reduceAdd] at hrootBytes hlengthBytes <;> omega
  | big =>
    simp only [horder] at hrootBytes hlengthBytes
    obtain rfl | rfl | rfl | rfl := hplace <;> dsimp only [Nat.reduceAdd] at hrootBytes hlengthBytes <;> omega

/-- The part that the length in front covers. -/
theorem of_sizePrefixed {body : Image} (h : m.sizePrefixed = .ok body) :
    ∃ size, m.word32 0 = .ok size ∧ 4 + size ≤ m.size ∧
      body = ⟨m.order, m.bytes.extract 4 (4 + size)⟩ := by
  obtain ⟨_, hroom, hread⟩ := bind_eq_ok_iff.1 h
  obtain ⟨size, hsize, hcheck⟩ := bind_eq_ok_iff.1 hread
  obtain ⟨_, hfits, hbody⟩ := bind_eq_ok_iff.1 hcheck
  have hroom := of_decide_eq_true (check_eq_ok_iff.1 hroom)
  have hfits := of_decide_eq_true (check_eq_ok_iff.1 hfits)
  exact ⟨size, hsize, by omega, (Except.ok.inj hbody).symm⟩

/-- Bytes behind the covered part do not reach the identifier of a part that is long enough for one. -/
theorem identifier?_of_sizePrefixed {body : Image} (h : m.sizePrefixed = .ok body) (hsize : 8 ≤ body.size) :
    Image.identifier? ⟨m.order, m.bytes.extract 4 m.size⟩ = body.identifier? := by
  obtain ⟨size, -, hfits, rfl⟩ := of_sizePrefixed h
  have htotal : m.size = m.bytes.size := rfl
  simp only [Image.size, Array.size_extract] at hsize
  have hall : min (4 + 8) m.size = min (4 + 8) (4 + size) := by omega
  simp only [identifier?, Array.extract_extract, hall]

/-- Whether a buffer that may have its length in front carries an identifier. -/
def hasIdentifierAs (m : Image) (sizePrefixed : Bool) (identifier : Identifier) : Bool :=
  if sizePrefixed then m.sizePrefixedHasIdentifier identifier else m.hasIdentifier identifier

/-- All that follows the length in front, if there is one. -/
def behindPrefix (m : Image) (sizePrefixed : Bool) : Image :=
  if sizePrefixed then ⟨m.order, m.bytes.extract 4 m.size⟩ else m

theorem hasIdentifier_behindPrefix {sizePrefixed : Bool} {t : Table} (h : m.rootAs sizePrefixed = .ok t) :
    (m.behindPrefix sizePrefixed).hasIdentifier = m.hasIdentifierAs sizePrefixed := by
  obtain ⟨hroot, hbody, -⟩ := root_of_rootAs h
  funext identifier
  cases sizePrefixed with
  | true =>
    have hsame : (m.behindPrefix true).identifier? = t.image.identifier? :=
      identifier?_of_sizePrefixed (hbody rfl) (eight_le_of_root hroot)
    simp only [hasIdentifierAs, sizePrefixedHasIdentifier, hbody rfl, hasIdentifier, hsame, if_true]
  | false => rfl

end Image

namespace Inspect

theorem TableSummary.ofTable_of_legible {t : Table} {v : VTable} {length tableLength slots : Nat}
    {fields : List (Nat × Nat)} (h : t.Legible v length tableLength slots fields) (showBytes : Bool) :
    TableSummary.ofTable t showBytes = .ok {
      position := t.position
      vtablePosition := v.position
      vtableLength := length
      tableLength := tableLength
      slotCount := slots
      fields := fields.map fun (slot, offset) =>
        ⟨slot, offset, if showBytes then
          some (tableBytes t offset (fieldEnd tableLength (fields.map (·.2)) offset)) else none⟩ } := by
  rw [TableSummary.ofTable, h.vtable_eq, ok_bind, h.tableLength_eq, ok_bind, h.present, ok_bind, h.length_eq,
    ok_bind, h.slotCount]
  rfl

namespace Summary

variable {m : Image} {expected : Option Identifier} {sizePrefixed showBytes : Bool}

theorem ofImage_of_error {f : Failure} (h : m.rootAs sizePrefixed = .error f) :
    ofImage m expected sizePrefixed showBytes = .error f := by
  cases sizePrefixed with
  | true =>
    have hroot : m.sizePrefixedRoot = .error f := h
    simp only [ofImage, if_true, hroot]
    rfl
  | false =>
    have hroot : m.root = .error f := h
    simp only [ofImage, hroot]
    rfl

theorem ofImage_of_ok {t : Table} {table : TableSummary} (h : m.rootAs sizePrefixed = .ok t)
    (htable : TableSummary.ofTable t showBytes = .ok table) :
    ∃ sizePrefix, ofImage m expected sizePrefixed showBytes = .ok {
      fileSize := m.size
      sizePrefix := sizePrefix
      rootOffset := t.position
      identifier := (m.behindPrefix sizePrefixed).identifier?.bind identifierText?
      identifierMatches := expected.map (m.hasIdentifierAs sizePrefixed)
      root := table } := by
  obtain ⟨hroot, hbody, -⟩ := Image.root_of_rootAs h
  have hoffset := (Image.of_root hroot).2.1
  have hidentifier := Image.hasIdentifier_behindPrefix h
  cases sizePrefixed with
  | true =>
    obtain ⟨size, hsize, -⟩ := Image.of_sizePrefixed (hbody rfl)
    have hroot : m.sizePrefixedRoot = .ok t := h
    refine ⟨some size, ?_⟩
    rw [← hidentifier]
    have hprefix : (some <$> Except.ok size : Outcome (Option Nat)) = .ok (some size) := rfl
    simp only [ofImage, if_true, hroot, hsize, hprefix, ok_bind, hoffset, htable]
    rfl
  | false =>
    have hroot : m.root = .ok t := h
    refine ⟨none, ?_⟩
    rw [← hidentifier]
    simp only [ofImage, Bool.false_eq_true, if_false, hroot, ok_bind, pure_bind, hoffset, htable]
    rfl

end Summary

/-- A summary is made of just the files that have a root table, and says of it what the readers say. -/
theorem Summary.ofImage_agrees (m : Image) (expected : Option Identifier) (sizePrefixed showBytes : Bool) :
    Summary.ofImage m expected sizePrefixed showBytes ≠ .error .fault ∧
    (∀ f, Summary.ofImage m expected sizePrefixed showBytes = .error f ↔ m.rootAs sizePrefixed = .error f) ∧
    ∀ t, m.rootAs sizePrefixed = .ok t →
      ∃ s, Summary.ofImage m expected sizePrefixed showBytes = .ok s ∧
        s.root.position = s.rootOffset ∧ s.root.position = t.position ∧
        (s.root.fields.map FieldSummary.slot).Pairwise (· < ·) ∧
        (∀ slot offset, (∃ f ∈ s.root.fields, f.slot = slot ∧ f.offset = offset) ↔
          t.has slot = .ok true ∧ t.fieldOffset slot = .ok offset) ∧
        s.identifierMatches = expected.map (m.hasIdentifierAs sizePrefixed) := by
  cases hroot : m.rootAs sizePrefixed with
  | error f =>
    have hsummary : ofImage m expected sizePrefixed showBytes = .error f := ofImage_of_error hroot
    have hjudged := m.judged_rootAs sizePrefixed
    rw [hroot] at hjudged
    rw [hsummary]
    refine ⟨fun hfault => ?_, fun g => ?_, nofun⟩
    · cases hjudged with
      | malformed cause => cases hfault
    · rw [Except.error.injEq, Except.error.injEq]
  | ok t =>
    obtain ⟨v, length, tableLength, slots, fields, hlegible⟩ :=
      Image.legible_of_checkedTable (Image.of_root (Image.root_of_rootAs hroot).1).2.2
    obtain ⟨sizePrefix, hsummary⟩ :=
      @ofImage_of_ok m expected _ _ _ _ hroot (TableSummary.ofTable_of_legible hlegible showBytes)
    rw [hsummary]
    refine ⟨nofun, fun _ => ⟨nofun, nofun⟩, fun t' ht' => ?_⟩
    obtain rfl := Except.ok.inj ht'
    refine ⟨_, rfl, rfl, rfl, ?_, fun slot offset => ?_, rfl⟩
    · rw [List.map_map]
      exact hlegible.increasing
    · rw [← hlegible.mem_fields]
      constructor
      · rintro ⟨f, hf, rfl, rfl⟩
        obtain ⟨⟨slot, offset⟩, hmem, rfl⟩ := List.mem_map.1 hf
        exact hmem
      · exact fun hmem => ⟨_, List.mem_map_of_mem hmem, rfl, rfl⟩

/-- The first of two slots holds a number, and a byte behind the covered part changes nothing. -/
theorem Summary.ofImage_agrees_trailing : ∃ (m : Image) (identifier : Identifier) (t : Table) (s : Summary),
    m.rootAs true = .ok t ∧ Summary.ofImage m (some identifier) true true = .ok s ∧
      s.root.position = t.position ∧ (∃ f ∈ s.root.fields, f.slot = 0 ∧ f.offset = 4) ∧
      (∀ f ∈ s.root.fields, f.slot ≠ 1) ∧ s.identifierMatches = some true := by
  let body : Image :=
    ⟨.little, #[16, 0, 0, 0, 77, 79, 78, 83, 8, 0, 8, 0, 4, 0, 0, 0, 8, 0, 0, 0, 42, 0, 0, 0]⟩
  let m : Image := ⟨.little, #[24, 0, 0, 0] ++ body.bytes ++ #[7]⟩
  let t : Table := ⟨body, 16⟩
  let identifier : Identifier := ⟨[77, 79, 78, 83], rfl⟩
  have hroot : m.rootAs true = .ok t := by decide +kernel
  have hcarries : m.hasIdentifierAs true identifier = true := by decide +kernel
  have hpresent : t.has 0 = .ok true := by decide +kernel
  have hoffset : t.fieldOffset 0 = .ok 4 := by decide +kernel
  have habsent : t.has 1 = .ok false := by decide +kernel
  obtain ⟨s, hs, -, hposition, -, hfields, hmatches⟩ :=
    (Summary.ofImage_agrees m (some identifier) true true).2.2 t hroot
  refine ⟨m, identifier, t, s, hroot, hs, hposition, (hfields 0 4).2 ⟨hpresent, hoffset⟩, fun f hf hslot => ?_,
    hmatches.trans (congrArg some hcarries)⟩
  have hthere : t.has 1 = .ok true := ((hfields 1 f.offset).1 ⟨f, hf, hslot, rfl⟩).1
  exact nomatch habsent.symm.trans hthere

end Inspect

end TableBuffer
