import TableBuffer.Proofs.Effects

/-!
# The written bytes grow at the front

No call but `reset` takes back or changes a byte that is written, whether it answers or fails.
`Extends` is what a call may do to a builder; it holds of every effect of a call, and of every run. So
what an offset names stays what it is.
-/

namespace TableBuffer

namespace Builder

/-- A vtable stands at the position, which is aligned for it. -/
structure Keeping (b : Builder) (vtable : List UInt8) (position : Nat) : Prop where
  stands : StandsAt b.arena.written position vtable
  rests : b.Rests 2 position

theorem Keeping.mono {b b' : Builder} {vtable : List UInt8} {position : Nat} (h : b.Keeping vtable position)
    (hgrows : b.Grows b') : b'.Keeping vtable position :=
  ⟨h.stands.mono hgrows.written, h.rests.mono hgrows.minAlign.le⟩

/-- What a call other than `reset` may do: bytes come in front, a vtable that can be found from then on
stands where it is found, and the last struct is not larger than what is written. -/
structure Extends (b b' : Builder) : Prop extends Grows b b' where
  vtables : ∀ v position, b'.vtables.get? v = some position →
    b.vtables.get? v = some position ∨ b'.Keeping v position
  structSize : b'.structSize = b.structSize ∨ b'.structSize ≤ b'.offset

theorem Keeps.extends {b b' : Builder} (h : b.Keeps b') : b.Extends b' where
  toGrows := h.toGrows
  vtables v position hv := by
    rw [h.vtables] at hv
    exact Or.inl hv
  structSize := Or.inl h.structSize

theorem Closes.extends {b b' : Builder} {o : OpenObject} {table vtable : Nat}
    (h : b.Closes o table vtable b') : b.Extends b' where
  toGrows := h.grows
  vtables v position hv := by
    cases h.locates with
    | shared dedup found cache count =>
      rw [cache] at hv
      exact Or.inl hv
    | written fresh front starts apart rests cache count =>
      obtain ⟨rest, hrest⟩ := starts
      rw [cache] at hv
      split at hv
      · rw [VTableCache.get?_insert] at hv
        cases hget : b.vtables.get? v with
        | some p =>
          rw [hget] at hv
          exact Or.inl hv
        | none =>
          rw [hget, Option.none_or] at hv
          split at hv
          · rename_i hvv
            cases hv
            rw [hvv]
            exact Or.inr ⟨front ▸ StandsAt.front hrest.symm, rests⟩
          · cases hv
      · exact Or.inl hv
  structSize := Or.inl h.structSize

theorem ClosesNot.extends {b b' : Builder} {f : Failure} (h : b.ClosesNot f b') : b.Extends b' := by
  cases h with
  | noObject stage same =>
    rw [same]
    exact (Keeps.refl b).extends
  | noRoom o stage puts other room => exact puts.keeps.extends
  | tooLarge o stage puts large error => exact puts.keeps.extends
  | noVTable o stage keeps idle other length_le => exact keeps.extends

end Builder

theorem Call.Effect.extends {c : Call} {b b' : Builder} {stored : List (Nat × Content)}
    (h : c.Effect b b' stored) : b.Extends b' := by
  cases h with
  | puts h => exact h.keeps.extends
  | @createsStruct bytes size b1 h size_le same =>
    subst same
    refine ⟨⟨h.keeps.written, h.limit, h.order, h.options, h.fits, h.minAlign⟩, fun v position hv => ?_,
      Or.inr size_le⟩
    change b1.vtables.get? v = some position at hv
    rw [h.vtables] at hv
    exact Or.inl hv
  | opensTable call slots_le same =>
    rw [same]
    exact ((Builder.Keeps.refl b).setStage _).extends
  | adds h => exact h.keeps.extends
  | addsUnion h h1 => exact (h.keeps.trans h1.keeps).extends
  | closesTable call h => exact h.extends
  | opensVector call h same =>
    rw [same]
    exact (h.keeps.setStage _).extends
  | closesVector h => exact (((Builder.Keeps.refl b).setStage .idle).trans h.keeps).extends
  | finishes h => exact h.keeps.extends

theorem Call.Refusal.extends {c : Call} {f : Failure} {b b' : Builder} (h : c.Refusal f b b') :
    b.Extends b' := by
  cases h with
  | fails call h => exact h.keeps.extends
  | half h object other full => exact h.extends
  | closesNot call h => exact h.extends

namespace Builder

section

variable (b : Builder)

theorem call_extends {c : Call} (hc : c ≠ .reset) : b.Extends (b.call c).2 := by
  cases h : b.call c with
  | mk outcome b' =>
    cases outcome with
    | ok reply => exact ((Call.step_effect b hc).of_call_ok h).extends
    | error f => exact ((Call.step_effect b hc).of_call_error h).extends

variable {b} in
theorem extends_of_call {b' : Builder} {c : Call} {outcome : Outcome Reply} (hc : c ≠ .reset)
    (hcall : b.call c = (outcome, b')) : b.Extends b' := by
  have hextends := call_extends b hc
  rwa [hcall] at hextends

variable {b} in
theorem run_cons {b' : Builder} {c : Call} {outcome : Outcome Reply} (h : b.call c = (outcome, b'))
    (hf : outcome ≠ .error .fault) (calls : List Call) :
    b.run (c :: calls) = (outcome :: (b'.run calls).1, (b'.run calls).2) := by
  rw [run, h]
  split
  · rename_i heq
    cases heq
    exact absurd rfl hf
  · rename_i heq
    cases heq
    rfl

variable {b} in
theorem run_fault {b' : Builder} {c : Call} (h : b.call c = (.error .fault, b')) (calls : List Call) :
    b.run (c :: calls) = ([.error .fault], b') := by
  rw [run, h]

variable {b} in
/-- What each of the calls keeps, a run of them keeps, even one that ends in a fault. -/
theorem run_keeps {P : Builder → Prop} {calls : List Call}
    (hcall : ∀ c ∈ calls, ∀ b : Builder, P b → P (b.call c).2) (h : P b) : P (b.run calls).2 := by
  induction calls generalizing b with
  | nil => exact h
  | cons c calls ih =>
    have hnext := hcall c (List.mem_cons_self ..) b h
    cases hb : b.call c with
    | mk outcome b' =>
      rw [hb] at hnext
      by_cases hf : outcome = .error .fault
      · rw [hf] at hb
        rw [run_fault hb]
        exact hnext
      · rw [run_cons hb hf]
        exact ih (fun c hc => hcall c (List.mem_cons_of_mem _ hc)) hnext

theorem run_grows {calls : List Call} (h : Call.reset ∉ calls) : b.Grows (b.run calls).2 := by
  refine run_keeps (fun c hc b' hb' => ?_) (Grows.refl b)
  have hreset : c ≠ .reset := fun hr => h (hr ▸ hc)
  exact hb'.trans (call_extends b' hreset).toGrows

/-- What was written in `b` is at the end of what is written in `b'`, and an offset names the same bytes
in both. -/
structure Outlasts (b b' : Builder) : Prop where
  offset_le : b.offset ≤ b'.offset
  written : b'.arena.written.drop (b'.offset - b.offset) = b.arena.written
  peek : ∀ offset length, offset ≤ b.offset → length ≤ offset →
    b'.arena.peek offset length = b.arena.peek offset length

/-- The written bytes at an offset are those that far from the end. -/
theorem peek_of_le {a : Arena} {offset length : Nat} (hoff : offset ≤ a.size) (hlen : length ≤ offset) :
    a.peek offset length = .ok ((a.written.drop (a.size - offset)).take length) := by
  have hroom : offset ≤ a.capacity := Nat.le_trans hoff (Nat.le_add_left ..)
  have hzero : offset - a.size = 0 := Nat.sub_eq_zero_of_le hoff
  have hnone : a.free 0 = [] := List.eq_nil_of_length_eq_zero (Arena.length_free a 0)
  rw [Arena.peek, if_pos ⟨hroom, hlen⟩, hzero, hnone, List.nil_append]
  rfl

theorem Grows.outlasts {b b' : Builder} (h : b.Grows b') : b.Outlasts b' := by
  obtain ⟨front, hfront⟩ := h.written
  have hsize : b'.offset = front.length + b.offset := by
    rw [offset, Arena.size, ← hfront, List.length_append]
    rfl
  have hle : b.offset ≤ b'.offset := h.offset_le
  refine ⟨hle, ?_, fun offset length hoff hlen => ?_⟩
  · rw [hsize, Nat.add_sub_cancel, ← hfront, List.drop_left]
  · have hdrop : b'.arena.size - offset = front.length + (b.arena.size - offset) := by
      show b'.offset - offset = front.length + (b.offset - offset)
      omega
    rw [peek_of_le (Nat.le_trans hoff hle) hlen, peek_of_le hoff hlen, hdrop, ← hfront,
      ← List.drop_drop, List.drop_left]

/-- No call but `reset`, and no run of such calls, moves or changes what is written, however it ends. -/
theorem written_outlasts_calls :
    (∀ c, c ≠ .reset → b.Outlasts (b.call c).2) ∧
      ∀ calls, Call.reset ∉ calls → b.Outlasts (b.run calls).2 :=
  ⟨fun _ hc => (call_extends b hc).toGrows.outlasts, fun _ h => (run_grows b h).outlasts⟩

/-- Closing a table, which writes over its first word, and failing to close it. -/
theorem written_outlasts_endObject :
    let b := ((new .little).run [.createByteVector [7], .startObject 1, .addScalar 0 .u8 1 0]).2
    b.Outlasts (b.call .endObject).2 ∧ b.Outlasts (b.run [.endObject, .endObject]).2 :=
  ⟨(written_outlasts_calls _).1 .endObject nofun, (written_outlasts_calls _).2 _ (by simp)⟩

end

end Builder

end TableBuffer
