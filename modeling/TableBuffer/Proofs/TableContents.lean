import TableBuffer.Proofs.Finished
import TableBuffer.Proofs.Items
import TableBuffer.Proofs.OpenTable

/-!
# The contents of closed tables

Closing a table turns the record of its fields into a vtable. What was stored since the table was opened
is found in the finished buffer, each field in its slot, whatever was called in between and afterwards.
-/

namespace TableBuffer

theorem foldl_max_le {xs : List Nat} {start bound : Nat} :
    xs.foldl max start ≤ bound ↔ start ≤ bound ∧ ∀ x ∈ xs, x ≤ bound := by
  induction xs generalizing start with
  | nil => simp
  | cons x xs ih =>
    rw [List.foldl_cons, ih, List.forall_mem_cons, Nat.max_le]
    exact and_assoc

theorem find?_slot {fields : List StoredField} (hdistinct : (fields.map (·.slot)).Nodup)
    {f : StoredField} (hf : f ∈ fields) : fields.find? (·.slot == f.slot) = some f := by
  induction fields with
  | nil => cases hf
  | cons g fields ih =>
    rw [List.map_cons, List.nodup_cons] at hdistinct
    rcases List.mem_cons.1 hf with rfl | hf
    · exact List.find?_cons_of_pos (beq_self_eq_true _)
    · have hne : g.slot ≠ f.slot := fun h => hdistinct.1 (h ▸ List.mem_map_of_mem hf)
      rw [List.find?_cons_of_neg (by simpa using hne)]
      exact ih hdistinct.2 hf

namespace OpenObject

variable {o : OpenObject} {offset bound : Nat}

theorem le_tableLength : 4 ≤ o.tableLength offset :=
  (foldl_max_le.1 (Nat.le_refl (o.tableLength offset))).1

theorem field_le_tableLength {f : StoredField} (hf : f ∈ o.fields) :
    offset - f.offset + f.size ≤ o.tableLength offset :=
  (foldl_max_le.1 (Nat.le_refl (o.tableLength offset))).2 _ (List.mem_map.2 ⟨f, hf, rfl⟩)

theorem tableLength_le (hbound : 4 ≤ bound)
    (hfields : ∀ f ∈ o.fields, offset - f.offset + f.size ≤ bound) : o.tableLength offset ≤ bound := by
  refine foldl_max_le.2 ⟨hbound, fun x hx => ?_⟩
  obtain ⟨f, hf, rfl⟩ := List.mem_map.1 hx
  exact hfields f hf

theorem entry_of_mem (hdistinct : (o.fields.map (·.slot)).Nodup) {f : StoredField} (hf : f ∈ o.fields) :
    o.entry offset f.slot = offset - f.offset := by
  rw [entry, find?_slot hdistinct hf]

theorem entry_of_not_mem {slot : Nat} (h : ∀ f ∈ o.fields, f.slot ≠ slot) : o.entry offset slot = 0 := by
  have hnone : o.fields.find? (·.slot == slot) = none := by
    rw [List.find?_eq_none]
    intro f hf
    simpa using h f hf
  rw [entry, hnone]

end OpenObject

/-- A table of `slots` slots stands at `table`, and what it holds is `stored`. -/
structure TableHolds (order : ByteOrder) (written : List UInt8) (table slots : Nat)
    (stored : List (Nat × Content)) : Prop where
  distinct : (stored.map Prod.fst).Nodup
  declared : ∀ s ∈ stored, s.1 < slots
  layout : ∃ vtable length entry, TableAt order written table vtable slots length entry ∧
    (∀ slot, slot ∉ stored.map Prod.fst → entry slot = 0) ∧
    ∀ s ∈ stored, ∃ offset, offset < table ∧ entry s.1 = table - offset ∧
      s.2.At order written offset

theorem TableHolds.mono {order : ByteOrder} {written written' : List UInt8} {table slots : Nat}
    {stored : List (Nat × Content)} (h : TableHolds order written table slots stored)
    (hw : written <:+ written') : TableHolds order written' table slots stored where
  distinct := h.distinct
  declared := h.declared
  layout := by
    obtain ⟨vtable, length, entry, hat, habsent, hpresent⟩ := h.layout
    refine ⟨vtable, length, entry, hat.mono hw, habsent, fun s hs => ?_⟩
    obtain ⟨offset, hlt, hentry, hcontent⟩ := hpresent s hs
    exact ⟨offset, hlt, hentry, hcontent.mono hw⟩

namespace Builder

variable {b b' : Builder} {o : OpenObject} {table vtable : Nat} {held : List (StoredField × Content)}

/-- The vtable of a closed table stands where the table's first word says. -/
theorem Closes.layout (h : b.Closes o table vtable b') (hb : b.Sound) :
    b'.Keeping (o.vtable b.order table) vtable := by
  cases h.locates with
  | shared dedup found cache count => exact (hb.vtables _ _ found).mono h.grows
  | written fresh front starts apart rests cache count =>
    obtain ⟨rest, hrest⟩ := starts
    exact ⟨front ▸ StandsAt.front hrest.symm, rests⟩

theorem Closes.tableAt (h : b.Closes o table vtable b') (hb : b.Sound) (ht : b.Tracks o held) :
    TableAt b.order b'.arena.written table vtable o.slots (o.tableLength table) (o.entry table) where
  distance := h.distance
  layout := (h.layout hb).stands
  slots_le := ht.slots_le
  length_ge := OpenObject.le_tableLength
  length_le := h.length_le
  inside := by
    have htable := h.table_eq
    refine OpenObject.tableLength_le (by omega) fun f hf => ?_
    rw [ht.fields] at hf
    obtain ⟨p, hp, rfl⟩ := List.mem_map.1 hf
    have hsize := ht.size_le p hp
    have hoffset := ht.offset_le p hp
    omega
  entry_lt slot := by
    have hlength := h.length_le
    unfold OpenObject.entry
    split
    · rename_i f hf
      have hle : table - f.offset + f.size ≤ o.tableLength table :=
        OpenObject.field_le_tableLength (List.mem_of_find?_eq_some hf)
      omega
    · decide

theorem Closes.tableHolds (h : b.Closes o table vtable b') (hb : b.Sound) (ht : b.Tracks o held) :
    TableHolds b.order b'.arena.written table o.slots (contents held) := by
  have hslots : (contents held).map Prod.fst = (held.map fun p => p.1.slot).reverse := by
    rw [contents, List.map_map, ← List.map_reverse]
    rfl
  have hmem : ∀ s ∈ contents held, ∃ p ∈ held, s = (p.1.slot, p.2) := by
    intro s hs
    obtain ⟨p, hp, rfl⟩ := List.mem_map.1 hs
    exact ⟨p, List.mem_reverse.1 hp, rfl⟩
  have hdistinct : (o.fields.map (·.slot)).Nodup := by
    rw [ht.fields, List.map_map]
    exact ht.distinct
  refine ⟨?_, ?_, vtable, _, _, h.tableAt hb ht, ?_, ?_⟩
  · rw [hslots]
    exact List.pairwise_reverse.2 (List.Pairwise.imp Ne.symm ht.distinct)
  · intro s hs
    obtain ⟨p, hp, rfl⟩ := hmem s hs
    exact ht.declared p hp
  · intro slot hslot
    refine OpenObject.entry_of_not_mem fun f hf hfs => hslot ?_
    rw [ht.fields] at hf
    obtain ⟨p, hp, rfl⟩ := List.mem_map.1 hf
    rw [hslots, List.mem_reverse]
    exact List.mem_map.2 ⟨p, hp, hfs⟩
  · intro s hs
    obtain ⟨p, hp, rfl⟩ := hmem s hs
    have hp' : p.1 ∈ o.fields := by
      rw [ht.fields]
      exact List.mem_map_of_mem hp
    have hoffset := ht.offset_le p hp
    have htable := h.table_eq
    refine ⟨p.1.offset, by omega, OpenObject.entry_of_mem hdistinct hp', ?_⟩
    exact (ht.content p hp).mono h.grows.written

theorem Closes.not_full (h : b.Closes o table vtable b') (hb : b.Sound) : ¬ b.Full := by
  intro hfull
  have hsize := h.distance.offset_le
  have hroom : b'.offset ≤ b'.arena.limit :=
    Nat.le_trans (Nat.le_add_left ..) (h.grows.fits hb.fits)
  rw [h.grows.limit] at hroom
  have htable := h.table_eq
  change b.arena.limit ≤ b.offset at hfull
  change table ≤ b'.offset at hsize
  omega

/-- A table that can be closed is tracked. -/
theorem Within.tracks {slots : Nat} {stored : List (Nat × Content)} (h : Within slots stored b)
    (hb : b.Sound) (hclose : b.Closes o table vtable b') :
    ∃ held, b.Tracks o held ∧ o.slots = slots ∧ stored = contents held := by
  rcases h with ⟨o', held, htracks, hslots, hstored⟩ | hclosed | hfull
  · obtain rfl := Stage.object.inj (hclose.stage.symm.trans htracks.stage)
    exact ⟨held, htracks, hslots, hstored⟩
  · exact absurd hclose.stage (hclosed o)
  · exact absurd hfull (hclose.not_full hb)

/-- A table that is closed holds what was stored in it since it was opened. -/
theorem Within.closes {slots : Nat} {stored : List (Nat × Content)} (h : Within slots stored b)
    (hb : b.Sound) (hclose : b.Closes o table vtable b') :
    TableHolds b.order b'.arena.written table slots stored := by
  obtain ⟨held, htracks, hslots, hstored⟩ := h.tracks hb hclose
  rw [← hslots, hstored]
  exact hclose.tableHolds hb htracks

end Builder

/-- A table with `slots` slots was opened and closed at `table`, and in between no other table was
opened. -/
def TableSpan (events : List Event) (slots : Nat) (inside : List Event) (table : Nat) : Prop :=
  ∃ before after, events = before ++ (.startObject slots, .ok .done) ::
      (inside ++ (.endObject, .ok (.offset table)) :: after) ∧
    ∀ n, (.startObject n, .ok .done) ∉ inside

theorem exists_last {events : List Event} {P : Event → Prop} (h : ∃ e ∈ events, P e) :
    ∃ before e inside, events = before ++ e :: inside ∧ P e ∧ ∀ e ∈ inside, ¬ P e := by
  induction events with
  | nil =>
    obtain ⟨e, he, -⟩ := h
    cases he
  | cons e events ih =>
    by_cases hlater : ∃ e ∈ events, P e
    · obtain ⟨before, e', inside, rfl, hinside⟩ := ih hlater
      exact ⟨e :: before, e', inside, rfl, hinside⟩
    · obtain ⟨e', hmem, he'⟩ := h
      rcases List.mem_cons.1 hmem with rfl | hmem
      · exact ⟨[], e', events, rfl, he', fun e he hP => hlater ⟨e, he, hP⟩⟩
      · exact absurd ⟨e', hmem, he'⟩ hlater

/-- Every table that was closed was opened before. -/
theorem Builder.Runs.tableSpan {b b' : Builder} {events : List Event} {table : Nat} (hb : b.Sound)
    (hidle : b.stage = .idle) (hrun : b.Runs events b') (hreset : ∀ e ∈ events, e.1 ≠ .reset)
    (he : (.endObject, .ok (.offset table)) ∈ events) :
    ∃ slots inside, TableSpan events slots inside table := by
  obtain ⟨before, b1, b2, after, rfl, hbefore, hclose, -⟩ := hrun.of_mem he
  have hreset1 : ∀ e ∈ before, e.1 ≠ .reset := fun e he => hreset e (List.mem_append_left _ he)
  obtain ⟨o, T, vtable, -, hcloses⟩ := (Builder.endObject_call_ends b1).of_call_ok hclose
  by_cases hopened : ∃ e ∈ before, ∃ slots, e = (.startObject slots, .ok .done)
  · obtain ⟨first, e, inside, rfl, ⟨slots, rfl⟩, hinside⟩ := exists_last hopened
    exact ⟨slots, inside, first, after, by rw [List.append_assoc, List.cons_append],
      fun n hn => hinside _ hn ⟨n, rfl⟩⟩
  · -- Without an opening no table would be open, let alone one with a slot more than the closed one has.
    have hclosed : ∀ o, b.stage ≠ .object o := Builder.not_object_of_idle hidle
    have hwithin : Builder.Within (o.slots + 1) [] b := .inr (.inl hclosed)
    have hend := hwithin.run hb hbefore hreset1 fun n hn => hopened ⟨_, hn, n, rfl⟩
    obtain ⟨held, -, hslots, -⟩ := hend.tracks (hbefore.sound hb) hcloses
    omega

section

variable {b b' : Builder} {events before : List Event} (hb : b.Sound) (hidle : b.stage = .idle)
  (hreset : ∀ e ∈ events, e.1 ≠ .reset)

include hb hidle hreset

/-- Whatever table is open after a run is tracked. -/
theorem Builder.Runs.tracked (hrun : b.Runs events b') : b'.Tracked := by
  refine hrun.induct (P := fun _ b => b.Tracked) (Builder.tracked_of_idle hidle) ?_
  intro before b1 e b2 hmoment h
  exact h.call (hmoment.sound hb) hmoment.call (hrun.2 e hmoment.mem) (hreset e hmoment.mem)

/-- A table that a call of a run closed was tracked. -/
theorem Builder.Moment.closes {b1 b2 : Builder} {reply : Reply}
    (h : b.Moment events before b1 (.endObject, .ok reply) b2) :
    ∃ o table vtable held, reply = .offset table ∧ b1.Closes o table vtable b2 ∧ b1.Tracks o held := by
  obtain ⟨o, table, vtable, rfl, hclose⟩ := (Builder.endObject_call_ends b1).of_call_ok h.call
  obtain ⟨slots, stored, hwithin⟩ := 
    h.run.tracked hb hidle fun e he => hreset e (h.mem_of_before he)
  obtain ⟨held, htracks, -⟩ := hwithin.tracks (h.sound hb) hclose
  exact ⟨o, table, vtable, held, rfl, hclose, htracks⟩

/-- A table that was closed stands in what is written, with its vtable. -/
theorem Builder.Runs.tableAt {table : Nat} (hrun : b.Runs events b')
    (he : (.endObject, .ok (.offset table)) ∈ events) :
    ∃ vtable slots length entry, TableAt b.order b'.arena.written table vtable slots length entry ∧
      b'.Rests 4 table ∧ b'.Rests 2 vtable := by
  obtain ⟨before, b1, b2, hmoment⟩ := hrun.moment he
  obtain ⟨o, T, vtable, held, hreply, hclose, htracks⟩ := hmoment.closes hb hidle hreset
  obtain rfl := Reply.offset.inj hreply
  have hgrows := hmoment.grows_after hreset hrun
  have hat := hclose.tableAt (hmoment.sound hb) htracks
  rw [hmoment.order_eq hreset] at hat
  exact ⟨vtable, _, _, _, hat.mono hgrows.written, hclose.rests.mono hgrows.minAlign.le,
    (hclose.layout (hmoment.sound hb)).rests.mono hgrows.minAlign.le⟩

end

/-- What a call or a run of calls stored. -/
def storedBy (options : Options) (events : List Event) : List (Nat × Content) :=
  events.flatMap (Event.stored options)

/-- A table that was closed holds what was stored in it, at the end of any run. -/
theorem Builder.Runs.tableHolds {b b' : Builder} {events inside : List Event} {slots table : Nat}
    (hb : b.Sound) (hrun : b.Runs events b') (hreset : ∀ e ∈ events, e.1 ≠ .reset)
    (hspan : TableSpan events slots inside table) :
    TableHolds b.order b'.arena.written table slots (storedBy b.options inside) := by
  obtain ⟨before, after, rfl, hstart⟩ := hspan
  obtain ⟨b1, hbefore, hrun1⟩ := Builder.runs_append.1 hrun
  obtain ⟨-, b2, hopen, hrun2⟩ := Builder.runs_cons.1 hrun1
  obtain ⟨b3, hinside, hrun3⟩ := Builder.runs_append.1 hrun2
  obtain ⟨-, b4, hclose, hafter⟩ := Builder.runs_cons.1 hrun3
  have hreset1 : ∀ e ∈ inside, e.1 ≠ .reset := fun e he =>
    hreset e (List.mem_append_right _ (List.mem_cons_of_mem _ (List.mem_append_left _ he)))
  have hreset2 : ∀ e ∈ after, e.1 ≠ .reset := fun e he => hreset e <| List.mem_append_right _ <|
    List.mem_cons_of_mem _ <| List.mem_append_right _ <| List.mem_cons_of_mem _ he
  have hgrows1 : b.Grows b1 := hbefore.grows fun e he => hreset e (List.mem_append_left _ he)
  have hsound1 : b1.Sound := hbefore.sound hb
  -- The run is cut at the opening and the closing: what is stored is tracked in between, and stays after.
  obtain ⟨hkeeps2, hwithin2⟩ := Builder.startObject_within hopen
  have hsound2 : b2.Sound := hsound1.extends hkeeps2.extends
  have hwithin3 := hwithin2.run hsound2 hinside hreset1 hstart
  have hsound3 : b3.Sound := hinside.sound hsound2
  have hgrows3 : b2.Grows b3 := hinside.grows hreset1
  obtain ⟨o, T, vtable, hreply, hcloses⟩ := (Builder.endObject_call_ends b3).of_call_ok hclose
  obtain rfl : table = T := Reply.offset.inj hreply
  have hholds := hwithin3.closes hsound3 hcloses
  rw [List.nil_append, hgrows3.order, hkeeps2.order, hgrows1.order, hkeeps2.options,
    hgrows1.options] at hholds
  exact hholds.mono (hafter.grows hreset2).written

/-- What a reader of the table finds in a slot. -/
def Content.ReadFrom (t : Table) (events : List Event) (slot : Nat) : Content → Prop
  | scalar ty v => t.scalar? ty slot = .ok (some v)
  | reference target => t.target? slot = .ok (some (t.image.size - target))
  | struct o => t.struct? slot = .ok (some ⟨t.image, t.image.size - o⟩) ∧
    ∀ (layout : StructLayout) (v : layout.Value), (.createStruct layout v, .ok (.offset o)) ∈ events →
      t.image.slice (t.image.size - o) layout.size = .ok (layout.encode t.image.order v)

/-- A reader of the table finds `slots` slots and in them what was stored, nothing less and nothing else. -/
structure Table.Shows (t : Table) (events : List Event) (slots : Nat) (stored : List (Nat × Content)) :
    Prop where
  slotCount : ∃ v, t.vtable = .ok v ∧ v.slotCount = .ok slots
  once : (stored.map Prod.fst).Nodup
  present : ∀ slot, t.has slot = .ok (decide (slot ∈ stored.map Prod.fst))
  undeclared : ∀ slot, slots ≤ slot → t.has slot = .ok false
  fields : ∀ s ∈ stored, s.2.ReadFrom t events s.1

section Shown

variable {order : ByteOrder} {written : List UInt8} {table slots : Nat}
  {stored : List (Nat × Content)} (h : TableHolds order written table slots stored)
  (hsize : written.length ≤ maxBufferSize)

include h hsize

/-- The table passes the checks of the root table. -/
theorem TableHolds.checkedTable : (Image.ofList order written).checkedTable (written.length - table) =
    .ok ⟨Image.ofList order written, written.length - table⟩ := by
  obtain ⟨vtable, length, entry, hat, -, -⟩ := h.layout
  exact hat.checkedTable hsize

theorem TableHolds.slotCount :
    ∃ v, Table.vtable ⟨Image.ofList order written, written.length - table⟩ = .ok v ∧
      v.slotCount = .ok slots := by
  obtain ⟨vtable, length, entry, hat, -, -⟩ := h.layout
  exact ⟨_, hat.table_vtable hsize, hat.slotCount⟩

theorem TableHolds.has (slot : Nat) :
    Table.has ⟨Image.ofList order written, written.length - table⟩ slot =
      .ok (decide (slot ∈ stored.map Prod.fst)) := by
  obtain ⟨vtable, length, entry, hat, habsent, hpresent⟩ := h.layout
  rw [hat.has hsize]
  by_cases hslot : slot ∈ stored.map Prod.fst
  · obtain ⟨s, hs, rfl⟩ := List.mem_map.1 hslot
    obtain ⟨offset, hlt, hentry, -⟩ := hpresent s hs
    have hne : entry s.1 ≠ 0 := by omega
    rw [decide_eq_true hslot, decide_eq_true ⟨h.declared s hs, hne⟩]
  · rw [decide_eq_false hslot, decide_eq_false fun hp => hp.2 (habsent slot hslot)]

/-- The field of a slot is read where its content stands. -/
theorem TableHolds.readField {slot : Nat} {content : Content} (hs : (slot, content) ∈ stored) :
    ∃ offset, content.At order written offset ∧ ∀ {α : Type} (read : Nat → Outcome α),
      Table.readField ⟨Image.ofList order written, written.length - table⟩ slot read =
        (read (written.length - offset)).map some := by
  obtain ⟨vtable, length, entry, hat, -, hpresent⟩ := h.layout
  obtain ⟨offset, hlt, hentry, hcontent⟩ := hpresent _ hs
  exact ⟨offset, hcontent, fun read => hat.readField hsize (h.declared _ hs) hlt hentry read⟩

theorem TableHolds.scalar? {slot : Nat} {ty : ScalarType} {v : ty.Value}
    (hs : (slot, .scalar ty v) ∈ stored) :
    Table.scalar? ⟨Image.ofList order written, written.length - table⟩ ty slot = .ok (some v) := by
  obtain ⟨offset, hcontent, hread⟩ := h.readField hsize hs
  have hscalar := scalar_of_standsAt hcontent
  rw [Table.scalar?, hread, hscalar]
  rfl

theorem TableHolds.readTarget {α : Type} {slot target : Nat} (hs : (slot, .reference target) ∈ stored)
    (read : Nat → Outcome α) :
    Table.readTarget ⟨Image.ofList order written, written.length - table⟩ slot read =
      (read (written.length - target)).map some := by
  obtain ⟨offset, hcontent, hread⟩ := h.readField hsize hs
  have htarget := target_of_referenceAt (Nat.lt_of_le_of_lt hsize (by decide)) hcontent
  rw [Table.readTarget, hread, htarget]
  rfl

theorem TableHolds.shows {events : List Event}
    (hstructs : ∀ (layout : StructLayout) (v : layout.Value) o,
      (.createStruct layout v, .ok (.offset o)) ∈ events → StandsAt written o (layout.encode order v)) :
    Table.Shows ⟨Image.ofList order written, written.length - table⟩ events slots stored where
  slotCount := h.slotCount hsize
  once := h.distinct
  present := h.has hsize
  undeclared slot hslot := by
    rw [h.has hsize, decide_eq_false]
    intro hmem
    obtain ⟨s, hs, rfl⟩ := List.mem_map.1 hmem
    exact Nat.not_lt.2 hslot (h.declared s hs)
  fields s hs := by
    obtain ⟨slot, content⟩ := s
    cases content with
    | scalar ty v => exact h.scalar? hsize hs
    | reference target =>
      apply (h.readTarget hsize hs pure).trans
      rw [← size_ofList order written]
      rfl
    | struct o =>
      obtain ⟨offset, hcontent, hread⟩ := h.readField hsize hs
      obtain rfl : o = offset := hcontent
      constructor
      · rw [Table.struct?, hread, size_ofList]
        rfl
      · intro layout v he
        have hslice := slice_of_standsAt order (hstructs layout v o he)
        rw [StructLayout.length_encode] at hslice
        rw [size_ofList]
        exact hslice

end Shown

namespace Builder

section Wrote

variable {b : Builder} {events : List Event} {written : List UInt8} (h : b.Wrote events written)

include h

theorem Wrote.tableHolds {inside : List Event} {slots table : Nat}
    (hspan : TableSpan events slots inside table) :
    TableHolds b.order written table slots (storedBy b.options inside) := by
  obtain ⟨b', hrun, hw⟩ := h.run
  exact (hrun.tableHolds h.sound h.no_reset hspan).mono hw

theorem Wrote.createStruct {layout : StructLayout} {v : layout.Value} {o : Nat}
    (he : (.createStruct layout v, .ok (.offset o)) ∈ events) :
    StandsAt written o (layout.encode b.order v) := by
  obtain ⟨b', hrun, hw⟩ := h.run
  exact (hrun.createStruct h.no_reset he).mono hw

end Wrote

/-- In a finished buffer every table that was closed since the builder was made or reset passes the checks
and shows what was stored in it since it was opened, whatever else was called and whatever of it failed. -/
theorem finished_tables_show {b b' b'' : Builder} {events : List Event} {root : Nat}
    {identifier : Option Identifier} {last : Call} {reply : Reply} (hb : b.Fresh) (hrun : b.Runs events b')
    (hreset : ∀ e ∈ events, e.1 ≠ .reset)
    (hlast : last = .finish root identifier ∨ last = .finishSizePrefixed root identifier)
    (hfinish : b'.call last = (.ok reply, b'')) :
    ∃ bytes, b''.finishedData = .ok bytes ∧
      (∀ table, (.endObject, .ok (.offset table)) ∈ events →
        ∃ slots inside, TableSpan events slots inside table) ∧
      let m := Image.ofList b.order bytes
      ∀ slots inside table, TableSpan events slots inside table →
        m.checkedTable (m.size - table) = .ok ⟨m, m.size - table⟩ ∧
          Table.Shows ⟨m, m.size - table⟩ events slots (storedBy b.options inside) := by
  obtain ⟨sizePrefixed, hfin⟩ : ∃ sizePrefixed, b'.Finishes root identifier sizePrefixed b'' := by
    rcases hlast with rfl | rfl
    · exact ⟨false, (finish_call_ends b' root identifier).of_call_ok hfinish⟩
    · exact ⟨true, (finishSizePrefixed_call_ends b' root identifier).of_call_ok hfinish⟩
  obtain ⟨body, hdata, hwrote, -, -⟩ := hrun.finished hb.sound hreset hfin
  refine ⟨_, hdata, fun table he => hrun.tableSpan hb.sound hb.idle hreset he, ?_⟩
  intro m slots inside table hspan
  have hholds := hwrote.tableHolds hspan
  have hsize : m.size = (framed b.order sizePrefixed body).length := size_ofList ..
  rw [hsize]
  exact ⟨hholds.checkedTable hwrote.size_le,
    hholds.shows hwrote.size_le fun layout v o he => hwrote.createStruct he⟩

/-- A byte and a word with padding between them. -/
def pairLayout : StructLayout where
  size := 8
  align := 4
  fields := [⟨0, .u8⟩, ⟨4, .u32⟩]

/-- What is called between the opening and the closing of a table: a call that fails, a scalar that is left
out, padding, and three fields. -/
def mixedCalls : List Event :=
  [(.addScalar 5 .u8 1 0, .error (.error (.invalidArgument (.slotOutOfRange .addScalar 5 4)))),
    (.addScalar 3 .u32 7 7, .ok .done), (.addScalarAlways 0 .u32 7, .ok .done), (.pad 3, .ok .done),
    (.createStruct pairLayout ((1 : BitVec 8), (2 : BitVec 32), ()), .ok (.offset 24)),
    (.addStruct 1 24, .ok .done), (.addOffset 2 8, .ok .done)]

def mixedRun : List Event :=
  (.createString "hi", .ok (.offset 8)) :: (.startObject 4, .ok .done) ::
    (mixedCalls ++ [(.endObject, .ok (.offset 32))])

theorem mixedRun_runs : (new .big).Runs mixedRun ((new .big).run (mixedRun.map Prod.fst)).2 :=
  runs_of_outcomes (by decide +kernel) (by simp [mixedRun, mixedCalls])

theorem mixed_table_shows :
    ∃ bytes, (((new .big).run (mixedRun.map Prod.fst)).2.call (.finish 32 none)).2.finishedData = .ok bytes ∧
      let m := Image.ofList .big bytes
      m.checkedTable (m.size - 32) = .ok ⟨m, m.size - 32⟩ ∧
        Table.Shows ⟨m, m.size - 32⟩ mixedRun 4 [(0, .scalar .u32 (7 : BitVec 32)), (1, .struct 24),
          (2, .reference 8)] := by
  have hreset : ∀ e ∈ mixedRun, e.1 ≠ .reset := by simp [mixedRun, mixedCalls]
  have hfinish : ((new .big).run (mixedRun.map Prod.fst)).2.call (.finish 32 none) =
      (.ok .done, (((new .big).run (mixedRun.map Prod.fst)).2.call (.finish 32 none)).2) :=
    Prod.ext (by decide +kernel) rfl
  have hspan : TableSpan mixedRun 4 mixedCalls 32 :=
    ⟨[(.createString "hi", .ok (.offset 8))], [], rfl, by simp [mixedCalls]⟩
  obtain ⟨bytes, hdata, -, hshows⟩ :=
    finished_tables_show (fresh_new .big) mixedRun_runs hreset (.inl rfl) hfinish
  exact ⟨bytes, hdata, hshows 4 mixedCalls 32 hspan⟩

end Builder

end TableBuffer
