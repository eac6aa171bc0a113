import TableBuffer.Proofs.Sealed
import TableBuffer.Proofs.TableContents

/-!
# Required fields

A table can be asked for a field as soon as it is closed, while the buffer around it is still being written.
The answer reads the bytes from their front, where more may be put at any time. It is right all the same: what
a closed table holds is found from the back, and it stays there until the next reset.
-/

namespace TableBuffer

theorem TableHolds.stands {order : ByteOrder} {written : List UInt8} {table slots : Nat}
    {stored : List (Nat × Content)} (h : TableHolds order written table slots stored) :
    0 < table ∧ table ≤ written.length := by
  obtain ⟨vtable, length, entry, hat, -, -⟩ := h.layout
  have hlow := hat.length_ge
  have hinside := hat.inside
  exact ⟨by omega, hat.distance.offset_le⟩

/-- What follows a table's closing changes nothing about what was called inside it. -/
theorem TableSpan.append {events inside : List Event} {slots table : Nat}
    (h : TableSpan events slots inside table) (later : List Event) :
    TableSpan (events ++ later) slots inside table := by
  obtain ⟨before, after, rfl, hinside⟩ := h
  exact ⟨before, after ++ later, by simp, hinside⟩

namespace Builder

variable {b b' : Builder} {table slots slot : Nat}

/-- The answer to whether the table has a field in the slot, if it has fields in the slots `present`. -/
def requiredAnswer (present : List Nat) (slot : Nat) : Outcome Reply :=
  if slot ∈ present then .ok .done else .error (.error (.requiredFieldMissing slot))

theorem call_required_of_holds {stored : List (Nat × Content)}
    (h : TableHolds b.order b.arena.written table slots stored) (hsize : b.offset ≤ maxBufferSize)
    (slot : Nat) :
    b.call (.required table slot) = (requiredAnswer (stored.map Prod.fst) slot, b) := by
  obtain ⟨hpos, hle⟩ := h.stands
  have hplace : ¬ (table = 0 ∨ b.offset < table) := fun hout => hout.elim (by omega) (Nat.not_lt.2 hle)
  have hhas : Table.has ⟨Image.ofList b.order b.arena.written, b.offset - table⟩ slot =
      .ok (decide (slot ∈ stored.map Prod.fst)) := h.has hsize slot
  have hstep : Build.required ⟨table⟩ slot b =
      (if slot ∈ stored.map Prod.fst then pure () else Build.fail (.requiredFieldMissing slot)) b := by
    unfold Build.required
    rw [Build.get_bind]
    dsimp only
    rw [if_neg hplace, hhas]
    by_cases hslot : slot ∈ stored.map Prod.fst
    · rw [decide_eq_true hslot, if_pos hslot]
    · rw [decide_eq_false hslot, if_neg hslot]
  simp only [call, Call.step, Build.silent, Bind.bind, EStateM.bind, hstep]
  by_cases hslot : slot ∈ stored.map Prod.fst
  · rw [if_pos hslot, requiredAnswer, if_pos hslot]
    rfl
  · rw [if_neg hslot, requiredAnswer, if_neg hslot]
    rfl

section

variable {events inside : List Event} (hb : b.Sound) (hreset : ∀ e ∈ events, e.1 ≠ .reset)
  (hrun : b.Runs events b') (hspan : TableSpan events slots inside table)

include hb hreset hrun hspan

/-- At the end of any run the answer is that of the calls between the table's opening and its closing. -/
theorem Runs.required (slot : Nat) :
    b'.call (.required table slot) =
      (requiredAnswer ((storedBy b.options inside).map Prod.fst) slot, b') := by
  have hholds := hrun.tableHolds hb hreset hspan
  rw [← (hrun.grows hreset).order] at hholds
  exact call_required_of_holds hholds (hrun.sound hb).offset_le_max slot

theorem Runs.required_undeclared (hslot : slots ≤ slot) :
    b'.call (.required table slot) = (.error (.error (.requiredFieldMissing slot)), b') := by
  have hholds := hrun.tableHolds hb hreset hspan
  have habsent : slot ∉ (storedBy b.options inside).map Prod.fst := by
    intro hmem
    obtain ⟨s, hs, rfl⟩ := List.mem_map.1 hmem
    exact Nat.not_lt.2 hslot (hholds.declared s hs)
  rw [hrun.required hb hreset hspan, requiredAnswer, if_neg habsent]

/-- Once a table is closed the answer stays what it is, until the next reset. -/
theorem Runs.required_stays {later : List Event} {b'' : Builder} (hlater : b'.Runs later b'')
    (hreset' : ∀ e ∈ later, e.1 ≠ .reset) (slot : Nat) :
    (b''.call (.required table slot)).1 = (b'.call (.required table slot)).1 := by
  have hwhole : b.Runs (events ++ later) b'' := runs_append.2 ⟨b', hrun, hlater⟩
  have hresets : ∀ e ∈ events ++ later, e.1 ≠ .reset := fun e he =>
    (List.mem_append.1 he).elim (hreset e) (hreset' e)
  rw [hwhole.required hb hresets (hspan.append later), hrun.required hb hreset hspan]

end

/-- At every moment after a table was closed, until the next reset, `required` says without a fault whether a
field was stored in the slot between the table's opening and its closing, and it changes nothing. Whatever
else was called, and whatever of it failed, has no say; a value that was left out was not stored. -/
theorem required_exact {events : List Event} (hb : b.Fresh) (hrun : b.Runs events b')
    (hreset : ∀ e ∈ events, e.1 ≠ .reset) (he : (.endObject, .ok (.offset table)) ∈ events) :
    (∃ slots inside, TableSpan events slots inside table) ∧
      ∀ slots inside, TableSpan events slots inside table → ∀ slot,
        ((∃ e ∈ inside, slot ∈ (e.stored b.options).map Prod.fst) →
          b'.call (.required table slot) = (.ok .done, b')) ∧
        ((∀ e ∈ inside, slot ∉ (e.stored b.options).map Prod.fst) →
          b'.call (.required table slot) = (.error (.error (.requiredFieldMissing slot)), b')) ∧
        (slots ≤ slot →
          b'.call (.required table slot) = (.error (.error (.requiredFieldMissing slot)), b')) := by
  refine ⟨hrun.tableSpan hb.sound hb.idle hreset he, fun slots inside hspan slot => ?_⟩
  have hanswer := hrun.required hb.sound hreset hspan slot
  have hstored : slot ∈ (storedBy b.options inside).map Prod.fst ↔
      ∃ e ∈ inside, slot ∈ (e.stored b.options).map Prod.fst := by
    rw [storedBy, List.map_flatMap, List.mem_flatMap]
  refine ⟨fun hslot => ?_, fun hslot => ?_, hrun.required_undeclared hb.sound hreset hspan⟩
  · rw [hanswer, requiredAnswer, if_pos (hstored.2 hslot)]
  · have habsent : slot ∉ (storedBy b.options inside).map Prod.fst := fun hmem => by
      obtain ⟨e, he, hmem⟩ := hstored.1 hmem
      exact hslot e he hmem
    rw [hanswer, requiredAnswer, if_neg habsent]

/-- A scalar equal to its default, no union, a call out of order, and one field. -/
def sparseCalls : List Event :=
  [(.addScalar 0 .u16 5 5, .ok .done), (.addUnion 0 2 .none, .ok .done),
    (.endVector, .error (.error (.invalidOperation .noVector))), (.addScalarAlways 1 .u32 9, .ok .done)]

/-- Two tables with one vtable, and a third one that is open. -/
def sparseRun : List Event :=
  [(.startObject 3, .ok .done), (.addScalarAlways 1 .u32 7, .ok .done), (.endObject, .ok (.offset 8)),
    (.startObject 3, .ok .done)] ++
    (sparseCalls ++ [(.endObject, .ok (.offset 28)), (.startObject 2, .ok .done),
      (.addScalarAlways 0 .u8 1, .ok .done)])

theorem sparseRun_runs : (new .little).Runs sparseRun ((new .little).run (sparseRun.map Prod.fst)).2 :=
  runs_of_outcomes (by decide +kernel) (by simp [sparseRun, sparseCalls])

theorem sparse_table_required :
    let b := ((new .little).run (sparseRun.map Prod.fst)).2
    b.call (.required 28 1) = (.ok .done, b) ∧
      ∀ slot, slot ≠ 1 →
        b.call (.required 28 slot) = (.error (.error (.requiredFieldMissing slot)), b) := by
  have hspan : TableSpan sparseRun 3 sparseCalls 28 :=
    ⟨[(.startObject 3, .ok .done), (.addScalarAlways 1 .u32 7, .ok .done), (.endObject, .ok (.offset 8))],
      [(.startObject 2, .ok .done), (.addScalarAlways 0 .u8 1, .ok .done)], rfl, by simp [sparseCalls]⟩
  have hslots : ∀ e ∈ sparseCalls, ∀ slot ∈ (e.stored Options.standard).map Prod.fst, slot = 1 := by
    decide +kernel
  obtain ⟨-, hexact⟩ := required_exact (fresh_new .little) sparseRun_runs
    (by simp [sparseRun, sparseCalls]) (show (.endObject, .ok (.offset 28)) ∈ sparseRun by simp [sparseRun])
  refine ⟨(hexact 3 sparseCalls hspan 1).1 ?_, fun slot hslot => (hexact 3 sparseCalls hspan slot).2.1 ?_⟩
  · exact ⟨(.addScalarAlways 1 .u32 9, .ok .done), by simp [sparseCalls], by decide⟩
  · exact fun e he hmem => hslot (hslots e he slot hmem)

end Builder

end TableBuffer
