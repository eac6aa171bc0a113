import TableBuffer.Proofs.Effects

/-!
# Calls out of order

A call that is refused because calls came out of order leaves the written bytes alone, with one
exception: a table that is too large for a vtable is refused only after its first word is written.
-/

namespace TableBuffer.Builder

variable {b b' : Builder} {c : Call} {e : Error}

/-- A construction error leaves the written bytes as they were, or it is the refusal of a table that is
too large, and then padding and the table's first word have come in front of them. -/
theorem written_of_construction_error (hcall : b.call c = (.error (.error e), b'))
    (he : e.isConstruction = true) :
    (c = .endObject → ∀ o, b.stage ≠ .object o) ∧ b'.arena.written = b.arena.written ∧
        b'.offset = b.offset ∨
      c = .endObject ∧ ∃ o, b.stage = .object o ∧ 65535 < o.tableLength b'.offset ∧
        e = .invalidOperation (.objectTooLarge (o.tableLength b'.offset)) ∧
        b'.arena.written = Build.zeros 4 ++ Build.zeros (padding b.offset 4) ++ b.arena.written := by
  have hreset : c ≠ .reset := by
    intro hc
    rw [hc] at hcall
    cases hcall
  -- Half a union and a lack of room are no construction errors; the others come before the first write.
  cases (Call.step_effect b hreset).of_call_error hcall with
  | fails hend h =>
    have hwritten : b'.arena.written = b.arena.written := h.quiet he
    refine Or.inl ⟨fun hc => absurd hc hend, hwritten, ?_⟩
    rw [offset, offset, Arena.size, Arena.size, hwritten]
  | half h object other full => exact absurd he (Bool.eq_false_iff.1 other)
  | closesNot hend h =>
    cases h with
    | noObject stage same =>
      obtain rfl := same
      exact Or.inl ⟨fun _ => stage, rfl, rfl⟩
    | noRoom o stage puts other room => exact absurd he (Bool.eq_false_iff.1 other)
    | tooLarge o stage puts large error =>
      exact Or.inr ⟨hend, o, stage, large, by cases error; rfl, puts.written⟩
    | noVTable o stage keeps idle other length_le => exact absurd he (Bool.eq_false_iff.1 other)

/-- A vector of two words with only one of them in front, behind the bytes of another vector. -/
def halfFilled : Builder := ((new .little).run [.createByteVector [7], .startVector 4 2 4, .push .u32 9]).2

/-- It is closed too early. -/
theorem written_of_endVector_error :
    halfFilled.stage = .vector ⟨2, 8, 8⟩ ∧ halfFilled.arena.written = [9, 0, 0, 0, 1, 0, 0, 0, 7, 0, 0, 0] ∧
      (halfFilled.call .endVector).1 = .error (.error (.invalidOperation (.vectorSize 4 8 2))) ∧
      (halfFilled.call .endVector).2.arena.written = halfFilled.arena.written ∧
      (halfFilled.call .endVector).2.offset = halfFilled.offset := by
  have h : halfFilled.call .endVector = (.error (.error (.invalidOperation (.vectorSize 4 8 2))),
      (halfFilled.call .endVector).2) := rfl
  refine ⟨by decide +kernel, by decide +kernel, congrArg Prod.fst h, ?_⟩
  rcases written_of_construction_error h rfl with ⟨-, hwritten, hoffset⟩ | ⟨hc, -⟩
  · exact ⟨hwritten, hoffset⟩
  · cases hc

theorem NoRoom.false_of_le {n : Nat} {f : Failure} (h : b.NoRoom n f)
    (hlimit : b.arena.limit < Arena.allocationLimit) (hn : b.offset + n ≤ b.arena.limit) : False := by
  have hwords : b.offset + n < wordLimit := by
    simp only [Arena.allocationLimit, wordLimit] at hlimit ⊢
    omega
  have hlt := h.limit_lt (by omega) hlimit hwords
  omega

/-- Padding that keeps to the limit is put in front. -/
theorem pad_of_room {n : Nat} (hfin : b.isFinished = false)
    (hlimit : b.arena.limit < Arena.allocationLimit) (hn : b.offset + n ≤ b.arena.limit) :
    (b.call (.pad n)).2.offset = n + b.offset ∧ (b.call (.pad n)).2.stage = b.stage ∧
      (b.call (.pad n)).2.arena.limit = b.arena.limit := by
  have hends : Build.Ends (Call.pad n).step b (fun _ b' => b.Puts (Build.zeros n) b')
      (fun f _ => b.NoRoom n f) := by
    rw [Call.step, Build.ends_silent]
    exact (Build.pad_ends b n).mono (fun _ _ h => h) fun _ _ h => h.2 hfin
  cases h : b.call (.pad n) with
  | mk outcome b' =>
    cases outcome with
    | ok reply =>
      have hb : b.Puts (Build.zeros n) b' := hends.of_call_ok h
      refine ⟨?_, hb.stage, hb.limit⟩
      rw [hb.offset, List.length_replicate]
    | error f => exact ((hends.of_call_error h).false_of_le hlimit hn).elim

/-- A table that is too large is refused after its first word is written, if that keeps to the limit. -/
theorem endObject_of_large {o : OpenObject} (ho : b.stage = .object o)
    (hlimit : b.arena.limit < Arena.allocationLimit)
    (hn : b.offset + (padding b.offset 4 + 4) ≤ b.arena.limit)
    (hlarge : 65535 < o.tableLength (4 + padding b.offset 4 + b.offset)) :
    (b.call .endObject).1 = .error (.error (.invalidOperation (.objectTooLarge
        (o.tableLength (4 + padding b.offset 4 + b.offset))))) ∧
      (b.call .endObject).2.offset = 4 + padding b.offset 4 + b.offset := by
  cases h : b.call .endObject with
  | mk outcome b' =>
    cases outcome with
    | ok reply =>
      obtain ⟨o', table, vtable, -, hc⟩ := (endObject_call_ends b).of_call_ok h
      obtain rfl := Stage.object.inj (ho.symm.trans hc.stage)
      have hlen := hc.length_le
      rw [hc.table_eq] at hlen
      omega
    | error f =>
      cases (endObject_call_ends b).of_call_error h with
      | noObject stage same => exact absurd ho (stage _)
      | noRoom o' stage puts other room => exact (room.false_of_le hlimit hn).elim
      | tooLarge o' stage puts large error =>
        obtain rfl := Stage.object.inj (ho.symm.trans stage)
        have hoffset : b'.offset = 4 + padding b.offset 4 + b.offset := by
          rw [puts.offset, List.length_append, List.length_replicate, List.length_replicate]
        rw [hoffset] at error
        exact ⟨congrArg Except.error error, hoffset⟩
      | noVTable o' stage keeps idle other length_le =>
        obtain rfl := Stage.object.inj (ho.symm.trans stage)
        omega

/-- A table with one field of one byte, before it is closed. -/
def smallTable : Builder := ((new .little).run [.startObject 1, .addScalarAlways 0 .u8 1]).2

/-- With padding between its field and its start it is refused, and seven bytes are there that were not
there before the call. -/
theorem construction_error_writes :
    let b := (smallTable.call (.pad 65536)).2
    (b.call .endObject).1 = .error (.error (.invalidOperation (.objectTooLarge 65544))) ∧
      b.offset = 65537 ∧ (b.call .endObject).2.offset = 65544 := by
  intro b
  have hsmall : smallTable.offset = 1 := by decide
  obtain ⟨hoffset, hstage, hlimit⟩ := pad_of_room (b := smallTable) (n := 65536) (by decide) (by decide)
    (by rw [hsmall]; decide)
  rw [hsmall] at hoffset
  have h := endObject_of_large (o := ⟨0, 1, [⟨0, 1, 1⟩]⟩) (hstage.trans (by decide))
    (by rw [hlimit]; decide) (by rw [hoffset, hlimit]; decide) (by rw [hoffset]; decide)
  rw [hoffset] at h
  exact ⟨h.1, hoffset, h.2⟩

end TableBuffer.Builder
