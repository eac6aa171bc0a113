import Mathlib.Data.Finset.Card
import Mathlib.Data.Finset.Dedup
import TableBuffer.Proofs.TableContents

/-!
# How vtables are shared

A builder that shares vtables writes one for all tables whose vtables have the same bytes, and one that
does not share them writes one for each. `Places` is the invariant: each table that was closed refers to
its vtable, the cache knows these vtables and no others, and the count is the number of those written.
-/

namespace TableBuffer

/-- A table that was closed, with the bytes computed for its vtable. -/
structure ClosedTable where
  offset : Nat
  vtable : List UInt8
  deriving DecidableEq, Repr

/-- The vtable that a reader of the image finds for the table. -/
def ClosedTable.readVTable (t : ClosedTable) (m : Image) : Outcome VTable :=
  Table.vtable ⟨m, m.size - t.offset⟩

/-- The position of that vtable in the image. -/
def ClosedTable.readPosition (t : ClosedTable) (m : Image) : Outcome Nat :=
  (t.readVTable m).map VTable.position

/-- The table that an event closed, if it is one that closes a table. -/
def Event.closedOffset? : Event → Option Nat
  | (.endObject, .ok (.offset table)) => some table
  | _ => none

namespace Builder

/-- The table that the call of an event closes, with the vtable of what is on record for it. -/
def closing (b : Builder) (e : Event) : List ClosedTable :=
  match e.closedOffset?, b.stage with
  | some table, .object o => [⟨table, o.vtable b.order table⟩]
  | _, _ => []

/-- The tables that are closed in the course of events, in order. -/
def closedTables (b : Builder) : List Event → List ClosedTable
  | [] => []
  | e :: events => b.closing e ++ (b.call e.1).2.closedTables events

/-- Growth that leaves the vtables as they are. -/
structure Steady (b b' : Builder) : Prop extends Grows b b' where
  vtables : b'.vtables = b.vtables
  vtablesWritten : b'.vtablesWritten = b.vtablesWritten

variable {b b' : Builder}

theorem Keeps.steady (h : b.Keeps b') : b.Steady b' := ⟨h.toGrows, h.vtables, h.vtablesWritten⟩

end Builder

/-- Only closing a table touches the vtables. -/
theorem Call.Effect.steady {c : Call} {b b' : Builder} {stored : List (Nat × Content)}
    (h : c.Effect b b' stored) (hc : c ≠ .endObject) : b.Steady b' := by
  have hgrows := h.extends.toGrows
  cases h with
  | puts h => exact h.keeps.steady
  | createsStruct h size_le same =>
    subst same
    exact ⟨hgrows, h.vtables, h.vtablesWritten⟩
  | opensTable call slots_le same =>
    subst same
    exact ⟨hgrows, rfl, rfl⟩
  | adds h => exact h.keeps.steady
  | addsUnion h h1 => exact (h.keeps.trans h1.keeps).steady
  | closesTable call h => exact absurd call hc
  | opensVector call h same =>
    subst same
    exact ⟨hgrows, h.vtables, h.vtablesWritten⟩
  | closesVector h => exact ⟨hgrows, h.vtables, h.vtablesWritten⟩
  | finishes h => exact h.keeps.steady

/-- A failed call leaves the vtables alone, also one that was to close a table. -/
theorem Call.Refusal.steady {c : Call} {f : Failure} {b b' : Builder} (h : c.Refusal f b b') :
    b.Steady b' := by
  cases h with
  | fails call h => exact h.keeps.steady
  | half h object other full => exact h.steady
  | closesNot call h =>
    cases h with
    | noObject stage same =>
      rw [same]
      exact (Builder.Keeps.refl b).steady
    | noRoom o stage puts other room => exact puts.keeps.steady
    | tooLarge o stage puts large error => exact puts.keeps.steady
    | noVTable o stage keeps idle other length_le => exact keeps.steady

/-- A table stands where it was closed and refers to `position`, where its vtable stands. -/
def ClosedTable.PlacedAt (order : ByteOrder) (written : List UInt8) (t : ClosedTable) (position : Nat) :
    Prop :=
  ∃ slots length entry, TableAt order written t.offset position slots length entry ∧
    t.vtable = VTable.encode order slots length entry

namespace ClosedTable.PlacedAt

variable {order : ByteOrder} {written written' : List UInt8} {t : ClosedTable} {position : Nat}

theorem mono (h : t.PlacedAt order written position) (hw : written <:+ written') :
    t.PlacedAt order written' position := by
  obtain ⟨slots, length, entry, hat, hbytes⟩ := h
  exact ⟨slots, length, entry, hat.mono hw, hbytes⟩

theorem position_le (h : t.PlacedAt order written position) : position ≤ written.length := by
  obtain ⟨slots, length, entry, hat, -⟩ := h
  exact hat.layout.offset_le

theorem readVTable (h : t.PlacedAt order written position) (hsize : written.length ≤ maxBufferSize) :
    t.readVTable (Image.ofList order written) =
        .ok ⟨Image.ofList order written, written.length - position⟩ ∧
      VTable.bytes ⟨Image.ofList order written, written.length - position⟩ = .ok t.vtable := by
  obtain ⟨slots, length, entry, hat, hbytes⟩ := h
  rw [ClosedTable.readVTable, size_ofList, hbytes]
  exact ⟨hat.table_vtable hsize, hat.vtable_bytes⟩

theorem readPosition (h : t.PlacedAt order written position) (hsize : written.length ≤ maxBufferSize) :
    t.readPosition (Image.ofList order written) = .ok (written.length - position) := by
  rw [ClosedTable.readPosition, (h.readVTable hsize).1]
  rfl

end ClosedTable.PlacedAt

namespace Builder

/-- The tables that were closed stand with their vtables at the positions beside them. -/
structure Places (b : Builder) (placed : List (ClosedTable × Nat)) : Prop where
  stands : ∀ p ∈ placed, p.1.PlacedAt b.order b.arena.written p.2
  cached : b.options.dedupVTables = true → ∀ v position,
    b.vtables.get? v = some position ↔ ∃ p ∈ placed, p.1.vtable = v ∧ p.2 = position
  shared : b.options.dedupVTables = true →
    b.vtablesWritten = (placed.map fun p => p.1.vtable).toFinset.card
  apart : b.options.dedupVTables = false →
    b.vtablesWritten = placed.length ∧ (placed.map Prod.snd).Nodup

variable {b b' : Builder} {placed : List (ClosedTable × Nat)}

theorem places_of_fresh (h : b.Fresh) : b.Places [] := by
  have hnew := h.vtables
  refine ⟨nofun, fun _ v position => ?_, fun _ => hnew.2, fun _ => ⟨hnew.2, .nil⟩⟩
  rw [hnew.1]
  exact ⟨nofun, nofun⟩

theorem Places.steady (h : b.Places placed) (hsteady : b.Steady b') : b'.Places placed where
  stands p hp := by
    rw [hsteady.order]
    exact (h.stands p hp).mono hsteady.written
  cached := by
    rw [hsteady.options, hsteady.vtables]
    exact h.cached
  shared := by
    rw [hsteady.options, hsteady.vtablesWritten]
    exact h.shared
  apart := by
    rw [hsteady.options, hsteady.vtablesWritten]
    exact h.apart

section Closing

variable {o : OpenObject} {table vtable : Nat} (h : b.Places placed) (hclose : b.Closes o table vtable b')

include h hclose

theorem Places.cached_closes (hd : b.options.dedupVTables = true) (v : List UInt8) (position : Nat) :
    b'.vtables.get? v = some position ↔
      (∃ p ∈ placed, p.1.vtable = v ∧ p.2 = position) ∨ o.vtable b.order table = v ∧ vtable = position := by
  rw [← h.cached hd]
  cases hclose.locates with
  | shared dedup found cache count =>
    rw [cache]
    refine ⟨Or.inl, fun hor => hor.elim id ?_⟩
    rintro ⟨rfl, rfl⟩
    exact found
  | written fresh front starts apart rests cache count =>
    rw [cache, if_pos hd, VTableCache.get?_insert]
    by_cases hv : v = o.vtable b.order table
    · subst hv
      simp [fresh hd]
    · have hne : o.vtable b.order table ≠ v := fun he => hv he.symm
      simp [hv, hne]

/-- A vtable is counted when it is the first with its bytes. -/
theorem Places.shared_closes (hd : b.options.dedupVTables = true) :
    b'.vtablesWritten =
      (insert (o.vtable b.order table) (placed.map fun p => p.1.vtable).toFinset).card := by
  cases hclose.locates with
  | shared dedup found cache count =>
    obtain ⟨p, hp, hv, -⟩ := (h.cached hd _ _).1 found
    have hmem : o.vtable b.order table ∈ (placed.map fun p => p.1.vtable).toFinset :=
      List.mem_toFinset.2 (List.mem_map.2 ⟨p, hp, hv⟩)
    rw [count, h.shared hd, Finset.insert_eq_of_mem hmem]
  | written fresh front starts apart rests cache count =>
    have hnew : o.vtable b.order table ∉ (placed.map fun p => p.1.vtable).toFinset := by
      intro hmem
      obtain ⟨p, hp, hv⟩ := List.mem_map.1 (List.mem_toFinset.1 hmem)
      have hfound := (h.cached hd _ _).2 ⟨p, hp, hv, rfl⟩
      rw [fresh hd] at hfound
      cases hfound
    rw [count, h.shared hd, Finset.card_insert_of_notMem hnew]

/-- A vtable of its own comes in front of all that was there. -/
theorem Places.apart_closes (hd : b.options.dedupVTables = false) :
    b'.vtablesWritten = placed.length + 1 ∧ ∀ p ∈ placed, p.2 ≠ vtable := by
  cases hclose.locates with
  | shared dedup found cache count =>
    rw [hd] at dedup
    cases dedup
  | written fresh front starts apart rests cache count =>
    refine ⟨by rw [count, (h.apart hd).1], fun p hp => ?_⟩
    have hold : p.2 ≤ b.offset := (h.stands p hp).position_le
    have htable : table ≤ b'.offset := hclose.distance.offset_le
    have hfront := hclose.table_eq
    omega

/-- A table that is closed refers to an equal vtable, or to one that is new and counted. -/
theorem Places.closes (hb : b.Sound) (htracked : b.Tracked) :
    b'.Places (placed ++ [(⟨table, o.vtable b.order table⟩, vtable)]) := by
  obtain ⟨slots, stored, hwithin⟩ := htracked
  obtain ⟨held, htracks, -⟩ := hwithin.tracks hb hclose
  have hgrows := hclose.grows
  constructor
  case stands =>
    rw [hgrows.order]
    intro p hp
    rcases List.mem_append.1 hp with hp | hp
    · exact (h.stands p hp).mono hgrows.written
    · rw [List.mem_singleton.1 hp]
      exact ⟨_, _, _, hclose.tableAt hb htracks, rfl⟩
  case cached =>
    rw [hgrows.options]
    intro hd v position
    rw [h.cached_closes hclose hd]
    simp only [List.mem_append, List.mem_singleton, or_and_right, exists_or, exists_eq_left]
  case shared =>
    rw [hgrows.options]
    intro hd
    rw [h.shared_closes hclose hd, List.map_append, List.toFinset_append, Finset.union_comm]
    rfl
  case apart =>
    rw [hgrows.options]
    intro hd
    obtain ⟨hcount, hnew⟩ := h.apart_closes hclose hd
    refine ⟨by rw [hcount, List.length_append, List.length_singleton], ?_⟩
    rw [List.map_append, List.map_singleton, List.nodup_append]
    refine ⟨(h.apart hd).2, List.nodup_singleton vtable, fun position hp q hq => ?_⟩
    obtain ⟨p, hmem, rfl⟩ := List.mem_map.1 hp
    rw [List.mem_singleton.1 hq]
    exact hnew p hmem

end Closing

theorem closing_of_none {e : Event} (h : e.closedOffset? = none) : b.closing e = [] := by
  rw [closing, h]

theorem closedOffset?_of_ne {c : Call} {outcome : Outcome Reply} (hc : c ≠ .endObject) :
    Event.closedOffset? (c, outcome) = none := by
  unfold Event.closedOffset?
  split
  · rename_i he
    exact absurd (congrArg Prod.fst he) hc
  · rfl

/-- One call places the table it closes, if it closes one. -/
theorem Places.call {e : Event} (h : b.Places placed) (hb : b.Sound) (htracked : b.Tracked)
    (hcall : b.call e.1 = (e.2, b')) (hreset : e.1 ≠ .reset) :
    ∃ new, b'.Places (placed ++ new) ∧ new.map Prod.fst = b.closing e ∧
      (b.closing e).map ClosedTable.offset = e.closedOffset?.toList := by
  obtain ⟨c, outcome⟩ := e
  have hnothing (hsteady : b.Steady b') (hnone : Event.closedOffset? (c, outcome) = none) :
      ∃ new, b'.Places (placed ++ new) ∧ new.map Prod.fst = b.closing (c, outcome) ∧
        (b.closing (c, outcome)).map ClosedTable.offset =
          (Event.closedOffset? (c, outcome)).toList := by
    rw [closing_of_none hnone, hnone]
    exact ⟨[], by simpa using h.steady hsteady, rfl, rfl⟩
  cases outcome with
  | error f =>
    exact hnothing ((Call.step_effect b hreset).of_call_error hcall).steady (by cases c <;> rfl)
  | ok reply =>
    by_cases hc : c = .endObject
    · subst hc
      obtain ⟨o, table, vtable, rfl, hclose⟩ := (endObject_call_ends b).of_call_ok hcall
      have hclosing : b.closing (.endObject, .ok (.offset table)) = [⟨table, o.vtable b.order table⟩] := by
        rw [closing, hclose.stage]
        rfl
      rw [hclosing]
      exact ⟨[(_, vtable)], h.closes hclose hb htracked, rfl, rfl⟩
    · exact hnothing (((Call.step_effect b hreset).of_call_ok hcall).steady hc) (closedOffset?_of_ne hc)

/-- A run places the tables it closes. -/
theorem Places.run {events : List Event} (h : b.Places placed) (hb : b.Sound) (htracked : b.Tracked)
    (hrun : b.Runs events b') (hreset : ∀ e ∈ events, e.1 ≠ .reset) :
    ∃ new, b'.Places (placed ++ new) ∧ new.map Prod.fst = b.closedTables events ∧
      (b.closedTables events).map ClosedTable.offset = events.filterMap Event.closedOffset? := by
  induction events generalizing b placed with
  | nil =>
    rw [runs_nil.1 hrun]
    exact ⟨[], by simpa using h, rfl, rfl⟩
  | cons e events ih =>
    obtain ⟨hfault, b1, hcall, hevents⟩ := runs_cons.1 hrun
    have he : e.1 ≠ .reset := hreset e (List.mem_cons_self ..)
    have hsound : b1.Sound := by
      have h1 := hb.call e.1
      rwa [hcall] at h1
    obtain ⟨new, hplaces, hnew, hoffsets⟩ := h.call hb htracked hcall he
    obtain ⟨rest, hrest, hmore, hothers⟩ := ih hplaces hsound (htracked.call hb hcall hfault he) hevents
      fun e he => hreset e (List.mem_cons_of_mem _ he)
    rw [closedTables, hcall]
    refine ⟨new ++ rest, by rwa [← List.append_assoc], ?_, ?_⟩
    · rw [List.map_append, hnew, hmore]
    · rw [List.map_append, hoffsets, hothers]
      cases hoffset : e.closedOffset? with
      | none => rw [List.filterMap_cons_none hoffset]; rfl
      | some table => rw [List.filterMap_cons_some hoffset]; rfl

section Shared

variable (h : b.Places placed) (hsize : b.arena.written.length ≤ maxBufferSize)

include h hsize

/-- Of two vtables at one position the bytes are the same, for they are read there. -/
theorem Places.readPosition_eq_iff (hd : b.options.dedupVTables = true) {p q : ClosedTable × Nat}
    (hp : p ∈ placed) (hq : q ∈ placed) :
    p.1.readPosition (Image.ofList b.order b.arena.written) =
      q.1.readPosition (Image.ofList b.order b.arena.written) ↔ p.1.vtable = q.1.vtable := by
  have hpat := h.stands p hp
  have hqat := h.stands q hq
  rw [hpat.readPosition hsize, hqat.readPosition hsize]
  constructor
  · intro hposition
    have hbytes := (hpat.readVTable hsize).2
    rw [Except.ok.inj hposition, (hqat.readVTable hsize).2] at hbytes
    exact (Except.ok.inj hbytes).symm
  · intro hvtable
    have hfound := (h.cached hd p.1.vtable p.2).2 ⟨p, hp, rfl, rfl⟩
    rw [hvtable, (h.cached hd q.1.vtable q.2).2 ⟨q, hq, rfl, rfl⟩] at hfound
    rw [Option.some.inj hfound]

theorem Places.readPosition_nodup (hd : b.options.dedupVTables = false) :
    (placed.map fun p => p.1.readPosition (Image.ofList b.order b.arena.written)).Nodup := by
  have hpositions : placed.map (fun p => p.1.readPosition (Image.ofList b.order b.arena.written)) =
      (placed.map Prod.snd).map fun position => .ok (b.arena.written.length - position) := by
    rw [List.map_map]
    exact List.map_congr_left fun p hp => (h.stands p hp).readPosition hsize
  rw [hpositions]
  refine (h.apart hd).2.map_on fun x hx y hy hxy => ?_
  obtain ⟨p, hp, rfl⟩ := List.mem_map.1 hx
  obtain ⟨q, hq, rfl⟩ := List.mem_map.1 hy
  have hple := (h.stands p hp).position_le
  have hqle := (h.stands q hq).position_le
  have hsub := Except.ok.inj hxy
  omega

end Shared

/-- However a run went on after a table was closed, the vtable of the table reads as the bytes computed
for it. Tables with the same bytes, and no others, have one vtable if vtables are shared; else each has its
own. The vtables written are counted. -/
theorem vtables_shared_exactly {events : List Event} (hb : b.Fresh) (hrun : b.Runs events b')
    (hreset : ∀ e ∈ events, e.1 ≠ .reset) :
    let m := Image.ofList b.order b'.arena.written
    let closed := b.closedTables events
    closed.map ClosedTable.offset = events.filterMap Event.closedOffset? ∧
      (∀ t ∈ closed, ∃ v, t.readVTable m = .ok v ∧ v.bytes = .ok t.vtable) ∧
      (b.options.dedupVTables = true →
        b'.vtablesWritten = (closed.map ClosedTable.vtable).toFinset.card ∧
          ∀ s ∈ closed, ∀ t ∈ closed, s.readPosition m = t.readPosition m ↔ s.vtable = t.vtable) ∧
      (b.options.dedupVTables = false →
        b'.vtablesWritten = closed.length ∧ (closed.map fun t => t.readPosition m).Nodup) := by
  intro m closed
  obtain ⟨placed, hplaces, hclosed, hoffsets⟩ :=
    (places_of_fresh hb).run hb.sound (tracked_of_idle hb.idle) hrun hreset
  have hgrows := hrun.grows hreset
  have hsize : b'.arena.written.length ≤ maxBufferSize := (hrun.sound hb.sound).offset_le_max
  have hm : m = Image.ofList b'.order b'.arena.written := by rw [hgrows.order]
  have hplaced : closed = placed.map Prod.fst := hclosed.symm
  rw [← hgrows.options, hm, hplaced]
  refine ⟨hclosed ▸ hoffsets, fun t ht => ?_, fun hd => ⟨?_, fun s hs t ht => ?_⟩, fun hd => ⟨?_, ?_⟩⟩
  · obtain ⟨p, hp, rfl⟩ := List.mem_map.1 ht
    exact ⟨_, (hplaces.stands p hp).readVTable hsize⟩
  · rw [List.map_map]
    exact hplaces.shared hd
  · obtain ⟨p, hp, rfl⟩ := List.mem_map.1 hs
    obtain ⟨q, hq, rfl⟩ := List.mem_map.1 ht
    exact hplaces.readPosition_eq_iff hsize hd hp hq
  · rw [List.length_map]
    exact (hplaces.apart hd).1
  · rw [List.map_map]
    exact hplaces.readPosition_nodup hsize hd

/-- Three tables with one field each, the last with a slot more; in between a table is closed that is not
open. -/
def threeTables : List Event :=
  [(.startObject 1, .ok .done), (.addScalarAlways 0 .u32 1, .ok .done), (.endObject, .ok (.offset 8)),
    (.endObject, .error (.error (.invalidOperation (.noObject .endObject)))),
    (.startObject 1, .ok .done), (.addScalarAlways 0 .u32 2, .ok .done), (.endObject, .ok (.offset 24)),
    (.startObject 2, .ok .done), (.addScalarAlways 0 .u32 3, .ok .done), (.endObject, .ok (.offset 32))]

theorem threeTables_runs :
    (new .little).Runs threeTables ((new .little).run (threeTables.map Prod.fst)).2 :=
  runs_of_outcomes (by decide +kernel) (by simp [threeTables])

theorem two_of_threeTables_share :
    let b := ((new .little).run (threeTables.map Prod.fst)).2
    let m := Image.ofList .little b.arena.written
    let first : ClosedTable := ⟨8, [6, 0, 8, 0, 4, 0]⟩
    let second : ClosedTable := ⟨24, [6, 0, 8, 0, 4, 0]⟩
    let third : ClosedTable := ⟨32, [8, 0, 8, 0, 4, 0, 0, 0]⟩
    b.vtablesWritten = 2 ∧ first.readPosition m = second.readPosition m ∧
      second.readPosition m ≠ third.readPosition m := by
  intro b m first second third
  have hclosed : (new .little).closedTables threeTables = [first, second, third] := by decide +kernel
  have hreset : ∀ e ∈ threeTables, e.1 ≠ .reset := by simp [threeTables]
  obtain ⟨-, -, hshared, -⟩ := vtables_shared_exactly (fresh_new .little) threeTables_runs hreset
  obtain ⟨hcount, hposition⟩ := hshared rfl
  rw [hclosed] at hcount hposition
  have hother : second.vtable ≠ third.vtable := by decide
  exact ⟨hcount.trans (by decide), (hposition first (by simp) second (by simp)).2 rfl,
    fun h => hother ((hposition second (by simp) third (by simp)).1 h)⟩

end Builder

end TableBuffer
