import Mathlib.Data.List.Pairwise
import TableBuffer.Proofs.Alignment
import TableBuffer.Proofs.Overwriting
import TableBuffer.Proofs.Sharing

/-!
# Every byte is placed once

What the calls of a run placed lies apart, for each call puts what it places in front of all that was there.
So a placement belongs to one call. A table that was closed owns its first word and shares its vtable, which
some call placed as well.
-/

namespace TableBuffer

namespace Builder

/-- The first word of a table and its vtable, as they were placed. -/
def tablePath (order : ByteOrder) (table vtable slots length : Nat) (entry : Nat → Nat) : List Placement :=
  [⟨.tableStart, 4, table, ScalarType.i32.encode order (BitVec.ofInt 32 ((vtable : Int) - table))⟩,
    ⟨.vtable, 2, vtable, VTable.encode order slots length entry⟩]

variable {b b' : Builder} {events before before' : List Event} {c c' : Call} {p q : Placement}

/-- After the events `before`, the call placed it. -/
def PlacedBy (b : Builder) (events before : List Event) (c : Call) (p : Placement) : Prop :=
  ∃ b1 reply b2, b.Moment events before b1 (c, .ok reply) b2 ∧ p ∈ c.placements b1 b2

/-- Some call of the run placed it. -/
def Placed (b : Builder) (events : List Event) (p : Placement) : Prop :=
  ∃ before c, b.PlacedBy events before c p

section Moments

variable {b1 b2 b1' b2' : Builder} {e e' : Event}

/-- Two moments of a run after as many events are the same. -/
theorem Moment.eq_of_length (h : b.Moment events before b1 e b2) (h' : b.Moment events before' b1' e' b2')
    (hlen : before.length = before'.length) : before = before' ∧ b1 = b1' ∧ e = e' ∧ b2 = b2' := by
  have hlonger : (before ++ [e]).length = (before' ++ [e']).length := by
    rw [List.length_append, List.length_append, hlen]
    rfl
  obtain ⟨rfl, he⟩ := List.append_inj
    ((List.prefix_of_prefix_length_le h.among h'.among (Nat.le_of_eq hlonger)).eq_of_length hlonger) hlen
  obtain rfl : e = e' := List.singleton_inj.1 he
  obtain rfl := h.run.unique h'.run
  exact ⟨rfl, rfl, rfl, congrArg Prod.snd (h.call.symm.trans h'.call)⟩

/-- What a call left is there before each later call. -/
theorem Moment.grows_later (hreset : ∀ e ∈ events, e.1 ≠ .reset) (h : b.Moment events before b1 e b2)
    (h' : b.Moment events before' b1' e' b2') (hlen : before.length < before'.length) : b2.Grows b1' := by
  have hfirst : before ++ [e] <+: before' := by
    refine List.prefix_of_prefix_length_le h.among ((List.prefix_append _ _).trans h'.among) ?_
    rw [List.length_append, List.length_singleton]
    exact hlen
  have hmoment : b.Moment before' before b1 e b2 := ⟨hfirst, h.run, h.call⟩
  exact hmoment.grows_after (fun e he => hreset e (h'.mem_of_before he)) h'.run

end Moments

section Run

variable (hb : b.Fresh) (hreset : ∀ e ∈ events, e.1 ≠ .reset)

include hb hreset

/-- What a later call places is in front of what an earlier one did. -/
theorem PlacedBy.in_front (h : b.PlacedBy events before c p) (h' : b.PlacedBy events before' c' q)
    (hlen : before.length < before'.length) : p.offset + q.bytes.length ≤ q.offset := by
  obtain ⟨b1, reply, b2, hmoment, hp⟩ := h
  obtain ⟨b1', reply', b2', hmoment', hq⟩ := h'
  have hgrows := hmoment.grows_later hreset hmoment' hlen
  have hold := ((hmoment.aligns hb hreset).placed p hp).stands.offset_le
  have hnew := ((hmoment'.aligns hb hreset).placed q hq).new
  have hle : p.offset ≤ b1'.offset := Nat.le_trans hold hgrows.offset_le
  omega

/-- Different things are placed apart. -/
theorem Placed.apart (h : b.Placed events p) (h' : b.Placed events q) (hne : p ≠ q) : p.Apart q := by
  obtain ⟨before, c, hplaced⟩ := h
  obtain ⟨before', c', hplaced'⟩ := h'
  rcases Nat.lt_trichotomy before.length before'.length with hlen | hlen | hlen
  · exact .inl (hplaced.in_front hb hreset hplaced' hlen)
  · obtain ⟨b1, reply, b2, hmoment, hp⟩ := hplaced
    obtain ⟨b1', reply', b2', hmoment', hq⟩ := hplaced'
    obtain ⟨-, rfl, he, rfl⟩ := hmoment.eq_of_length hmoment' hlen
    obtain rfl := congrArg Prod.fst he
    have : Std.Symm Placement.Apart := ⟨fun _ _ h => h.symm⟩
    exact (hmoment.aligns hb hreset).apart.forall hp hq hne
  · exact .inr (hplaced'.in_front hb hreset hplaced hlen)

/-- What has a byte was placed once. -/
theorem PlacedBy.unique (h : b.PlacedBy events before c p) (h' : b.PlacedBy events before' c' p)
    (hpos : 0 < p.bytes.length) : before = before' ∧ c = c' := by
  rcases Nat.lt_trichotomy before.length before'.length with hlen | hlen | hlen
  · have hfront := h.in_front hb hreset h' hlen
    omega
  · obtain ⟨b1, reply, b2, hmoment, -⟩ := h
    obtain ⟨b1', reply', b2', hmoment', -⟩ := h'
    obtain ⟨hbefore, -, he, -⟩ := hmoment.eq_of_length hmoment' hlen
    exact ⟨hbefore, congrArg Prod.fst he⟩
  · have hfront := h'.in_front hb hreset h hlen
    omega

theorem Placed.stands (h : b.Placed events p) (hrun : b.Runs events b') :
    StandsAt b'.arena.written p.offset p.bytes := by
  obtain ⟨before, c, b1, reply, b2, hmoment, hp⟩ := h
  exact (((hmoment.aligns hb hreset).placed p hp).mono (hmoment.grows_after hreset hrun)).stands

end Run

theorem Placed.mono {longer : List Event} (h : b.Placed events p) (hlonger : events <+: longer) :
    b.Placed longer p := by
  obtain ⟨before, c, b1, reply, b2, hmoment, hp⟩ := h
  exact ⟨before, c, b1, reply, b2, hmoment.mono hlonger, hp⟩

section Tables

variable (hb : b.Fresh) (hreset : ∀ e ∈ events, e.1 ≠ .reset)

include hb hreset

/-- A vtable that can be found was placed. -/
theorem Runs.cached_placed (hrun : b.Runs events b') {v : List UInt8} {position : Nat}
    (hv : b'.vtables.get? v = some position) : b.Placed events ⟨.vtable, 2, position, v⟩ := by
  have hall : ∀ v position, b'.vtables.get? v = some position →
      b.Placed events ⟨.vtable, 2, position, v⟩ := by
    refine hrun.induct
      (P := fun _ c => ∀ v position, c.vtables.get? v = some position →
        b.Placed events ⟨.vtable, 2, position, v⟩)
      (fun v position h => ?_) fun past b1 e b2 hmoment ih v position h => ?_
    · rw [hb.vtables.1] at h
      cases h
    · obtain ⟨c, outcome⟩ := e
      have hcall : b1.call c = (outcome, b2) := hmoment.call
      have hc : c ≠ .reset := hreset _ hmoment.mem
      by_cases hclosed : c = .endObject ∧ ∃ reply, outcome = .ok reply
      · obtain ⟨rfl, reply, rfl⟩ := hclosed
        obtain ⟨o, table, vtable, held, -, hclose, -⟩ := hmoment.closes hb.sound hb.idle hreset
        cases hclose.locates with
        | shared dedup found cache count =>
          rw [cache] at h
          exact ih v position h
        | written fresh front starts apart rests cache count =>
          rw [cache] at h
          split at h
          · rw [VTableCache.get?_insert] at h
            cases hold : b1.vtables.get? v with
            | some p =>
              rw [hold] at h
              exact ih v position (hold.trans h)
            | none =>
              rw [hold, Option.none_or] at h
              split at h
              · rename_i hvtable
                obtain rfl := Option.some.inj h
                refine ⟨past, _, b1, reply, b2, hmoment, ?_⟩
                rw [Call.placements_of_closes hclose, if_neg (by omega), hvtable]
                exact List.mem_append_left _ (List.mem_singleton.2 rfl)
              · cases h
          · exact ih v position h
      · have hsteady : b1.Steady b2 := by
          cases outcome with
          | ok reply =>
            exact ((Call.step_effect b1 hc).of_call_ok hcall).steady fun h => hclosed ⟨h, reply, rfl⟩
          | error f => exact ((Call.step_effect b1 hc).of_call_error hcall).steady
        rw [hsteady.vtables] at h
        exact ih v position h
  exact hall v position hv

/-- When a table is closed, its first word is placed, and its vtable is or was. -/
theorem Moment.closes_placed {b1 b2 : Builder} {reply : Reply}
    (h : b.Moment events before b1 (.endObject, .ok reply) b2) :
    ∃ o table vtable held, reply = .offset table ∧ b1.Closes o table vtable b2 ∧ b1.Tracks o held ∧
      ∀ p ∈ tablePath b.order table vtable o.slots (o.tableLength table) (o.entry table),
        b.Placed events p := by
  obtain ⟨o, table, vtable, held, hreply, hclose, htracks⟩ := h.closes hb.sound hb.idle hreset
  refine ⟨o, table, vtable, held, hreply, hclose, htracks, ?_⟩
  have horder := h.order_eq hreset
  have hplaced : ∀ p ∈ Call.endObject.placements b1 b2, b.Placed events p := fun p hp =>
    ⟨before, _, b1, reply, b2, h, hp⟩
  rw [Call.placements_of_closes hclose, horder] at hplaced
  refine List.forall_mem_cons.2 ⟨hplaced _ (List.mem_append_right _ (List.mem_singleton.2 rfl)),
    List.forall_mem_singleton.2 ?_⟩
  have hlocates := hclose.locates
  rw [horder] at hlocates
  cases hlocates with
  | shared dedup found cache count =>
    have hearlier := h.run.cached_placed hb (fun e he => hreset e (h.mem_of_before he)) found
    exact hearlier.mono ((List.prefix_append _ _).trans h.among)
  | written fresh front starts apart rests cache count =>
    rw [if_neg (by omega)] at hplaced
    exact hplaced _ (List.mem_append_left _ (List.mem_singleton.2 rfl))

end Tables

end Builder

end TableBuffer
