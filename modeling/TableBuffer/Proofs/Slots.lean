import TableBuffer.Proofs.Ownership

/-!
# Where the slots of a table lead

What a call stores in a slot of the open table it places, or finds there if it is a struct, and records where.
Closing the table makes an entry of the vtable of that. So the slot of a closed table leads to bytes that
one call placed, by a path of bytes that were placed as well.
-/

namespace TableBuffer

/-- The content is among the placements, at the offset. A struct was placed earlier. -/
def Content.PlacedIn (order : ByteOrder) (placements : List Placement) (offset : Nat) : Content → Prop
  | scalar ty v => ⟨.field, ty.size, offset, ty.encode order v⟩ ∈ placements
  | reference target => 0 < target ∧ target < offset ∧
    ⟨.reference, 4, offset, order.encode 4 (offset - target)⟩ ∈ placements
  | struct o => o = offset

namespace Builder

variable {b b' : Builder} {events before : List Event} {table table' slot : Nat} {content : Content}

/-- Among the fields of the open table is one with the content, which a call from `b` placed. -/
def Records (b : Builder) (c : Call) (slot : Nat) (content : Content) (b' : Builder) : Prop :=
  ∃ o f, b'.stage = .object o ∧ f ∈ o.fields ∧ f.slot = slot ∧
    content.PlacedIn b.order (c.placements b b') f.offset

theorem Stores.records {o : OpenObject} {size : Nat} {bytes : List UInt8} {c : Call}
    (h : b.Stores o slot size bytes b') (hcontent : content.PlacedIn b.order (c.placements b b') b'.offset) :
    b.Records c slot content b' :=
  ⟨_, _, h.stage_eq, List.mem_cons_self .., rfl, hcontent⟩

/-- A target that was there when the table was opened is behind the reference. -/
theorem Stores.target_lt {o : OpenObject} {size target word : Nat} {rest : List UInt8} {order : ByteOrder}
    (h : b.Stores o slot size (order.encode 4 word ++ rest) b') (hstart : b.StartsWithin)
    (hle : target ≤ o.start) : target < b'.offset := by
  have hfront := h.in_front
  have hopen := hstart o h.stage
  rw [ByteOrder.length_encode] at hfront
  omega

end Builder

namespace Call

open Build

variable (b : Builder)

theorem addUnion_records (hstart : b.StartsWithin) (typeSlot valueSlot : Nat) (union : UnionOffset) :
    Ends (Build.addUnion typeSlot valueSlot union) b
      (fun _ b' => ∀ s ∈ (Call.addUnion typeSlot valueSlot union).stored b.options,
        b.Records (.addUnion typeSlot valueSlot union) s.1 s.2 b') (fun _ _ => True) := by
  refine (addUnion_ends b typeSlot valueSlot union).mono ?_ fun _ _ _ => trivial
  intro _ b' h
  cases union with
  | none => exact nofun
  | some tag payload htag =>
    obtain ⟨o, b1, -, -, hpos, hle, hvalue, htype, -⟩ := h
    have hoffset : b'.offset - 1 = b1.offset := by
      obtain ⟨b2, h2, rfl⟩ := htype.puts
      show b2.offset - 1 = b1.offset
      rw [h2.offset, ScalarType.length_encode]
      exact Nat.add_sub_cancel_left ..
    refine List.forall_mem_cons.2 ⟨?_, List.forall_mem_singleton.2 ?_⟩
    · refine ⟨_, ⟨valueSlot, b1.offset, 4⟩, htype.stage_eq,
        List.mem_cons_of_mem _ (List.mem_cons_self ..), rfl, hpos, hvalue.target_lt hstart hle, ?_⟩
      rw [placements, hoffset]
      exact List.mem_cons_of_mem _ (List.mem_singleton.2 rfl)
    · exact ⟨_, _, htype.stage_eq, List.mem_cons_self .., rfl, List.mem_cons_self ..⟩

theorem stores_nothing {c : Call} (hc : c.stored b.options = []) :
    Ends c.step b (fun _ b' => ∀ s ∈ c.stored b.options, b.Records c s.1 s.2 b') (fun _ _ => True) := by
  unfold Ends
  split
  · rw [hc]
    exact nofun
  · trivial

/-- Whatever a call stores is recorded where it was placed. -/
theorem step_records (hstart : b.StartsWithin) (c : Call) :
    Ends c.step b (fun _ b' => ∀ s ∈ c.stored b.options, b.Records c s.1 s.2 b') (fun _ _ => True) := by
  cases c with
  | addScalar slot ty v default =>
    refine ends_silent.2 ((addScalar_ends b slot ty v default).mono ?_ fun _ _ _ => trivial)
    intro _ b' h
    obtain ⟨o, -, -, h⟩ := h
    rw [stored]
    split
    · exact nofun
    · rename_i hstored
      rw [if_neg hstored] at h
      refine List.forall_mem_singleton.2 (h.1.records ?_)
      rw [Content.PlacedIn, placements, if_neg hstored]
      exact List.mem_singleton.2 rfl
  | addScalarAlways slot ty v =>
    refine ends_silent.2 ((addScalarAlways_ends b slot ty v).mono ?_ fun _ _ _ => trivial)
    intro _ b' h
    obtain ⟨o, h, -⟩ := h
    exact List.forall_mem_singleton.2 (h.records (List.mem_singleton.2 rfl))
  | addOffset slot target =>
    refine ends_silent.2 ((addOffset_ends b slot ⟨target⟩).mono ?_ fun _ _ _ => trivial)
    intro _ b' h
    obtain ⟨o, hpos, hle, h, -⟩ := h
    exact List.forall_mem_singleton.2
      (h.records ⟨hpos, h.target_lt hstart hle, List.mem_singleton.2 rfl⟩)
  | addStruct slot struct =>
    refine ends_silent.2 ((addStruct_ends b slot ⟨struct⟩).mono ?_ fun _ _ _ => trivial)
    intro _ b' h
    obtain ⟨o, hfront, -, h⟩ := h
    refine List.forall_mem_singleton.2 (h.records ?_)
    obtain ⟨b1, h1, rfl⟩ := h.puts
    exact hfront.trans (h1.offset.trans (Nat.zero_add _)).symm
  | addUnion typeSlot valueSlot union =>
    exact ends_silent.2 (addUnion_records b hstart typeSlot valueSlot union)
  | reset | prep | pad | push | pushOffset | startObject | createStruct | endObject | required | startVector
  | endVector | createVector | createByteVector | createByteVectorAligned | createVectorOfOffsets
  | createVectorOfStructs | createString | createByteString | createNestedBuffer | finish
  | finishSizePrefixed | finishedData =>
    exact stores_nothing b rfl

end Call

/-- After the events `before` no other table was opened until the one at the offset was closed. -/
def ClosedAfter (events before : List Event) (table : Nat) : Prop :=
  ∃ rest after, events = before ++ (rest ++ (.endObject, .ok (.offset table)) :: after) ∧
    ∀ n, (.startObject n, .ok .done) ∉ rest

/-- Two elements of a list, neither of them in front of the other, are one. -/
theorem eq_of_splits {α : Type} {xs ys as bs : List α} {a b : α} (h : xs ++ a :: as = ys ++ b :: bs)
    (hxs : ∀ zs, xs ≠ ys ++ b :: zs) (hys : ∀ zs, ys ≠ xs ++ a :: zs) : a = b := by
  rcases List.append_eq_append_iff.1 h with ⟨zs, rfl, hzs⟩ | ⟨zs, rfl, hzs⟩
  · cases zs with
    | nil => exact (List.cons.inj hzs).1
    | cons z zs =>
      obtain ⟨rfl, -⟩ := List.cons.inj hzs
      exact absurd rfl (hys zs)
  · cases zs with
    | nil => exact (List.cons.inj hzs).1.symm
    | cons z zs =>
      obtain ⟨rfl, -⟩ := List.cons.inj hzs
      exact absurd rfl (hxs zs)

namespace Builder

variable {b b' : Builder} {events before inside : List Event} {table table' slot slots offset : Nat}
  {content : Content}

/-- A call between the opening and the closing of the table stored the content in the slot. -/
def Stored (b : Builder) (events : List Event) (table slot : Nat) (content : Content) : Prop :=
  ∃ slots inside, TableSpan events slots inside table ∧ (slot, content) ∈ storedBy b.options inside

/-- The slot leads from the table to the offset, in bytes that calls of the run placed. -/
def SlotAt (b : Builder) (events : List Event) (written : List UInt8) (table slot offset : Nat) : Prop :=
  ∃ vtable slots length entry, TableAt b.order written table vtable slots length entry ∧
    (∀ p ∈ tablePath b.order table vtable slots length entry, b.Placed events p) ∧
    slot < slots ∧ offset < table ∧ entry slot = table - offset

/-- The call that stored the content, in the run up to the closing of the table. -/
theorem Stored.cut (h : b.Stored events table slot content) : ∃ before c reply later after,
    events = before ++ (c, .ok reply) :: (later ++ (.endObject, .ok (.offset table)) :: after) ∧
      (slot, content) ∈ c.stored b.options ∧ ∀ n, (.startObject n, .ok .done) ∉ (c, .ok reply) :: later := by
  obtain ⟨slots, inside, ⟨pre, post, rfl, hinside⟩, hmem⟩ := h
  obtain ⟨⟨c, outcome⟩, he, hs⟩ := List.mem_flatMap.1 hmem
  cases outcome with
  | error f => cases hs
  | ok reply =>
    obtain ⟨earlier, later, rfl⟩ := List.append_of_mem he
    refine ⟨pre ++ (.startObject slots, .ok .done) :: earlier, c, reply, later, post, ?_, hs, fun n hn => ?_⟩
    · simp only [List.append_assoc, List.cons_append]
    · exact hinside n (List.mem_append_right _ hn)

/-- The field of a table that is closed has its entry in the vtable. -/
theorem Closes.entry_of_field {o : OpenObject} {vtable : Nat} {held : List (StoredField × Content)}
    (h : b.Closes o table vtable b') (ht : b.Tracks o held) {f : StoredField} (hf : f ∈ o.fields) :
    f.slot < o.slots ∧ f.offset < table ∧ o.entry table f.slot = table - f.offset := by
  have hdistinct : (o.fields.map (·.slot)).Nodup := by
    rw [ht.fields, List.map_map]
    exact ht.distinct
  have hentry : o.entry table f.slot = table - f.offset := OpenObject.entry_of_mem hdistinct hf
  rw [ht.fields] at hf
  obtain ⟨p, hp, rfl⟩ := List.mem_map.1 hf
  have hle := ht.offset_le p hp
  have htable := h.table_eq
  exact ⟨ht.declared p hp, by omega, hentry⟩

section

variable (hb : b.Fresh) (hrun : b.Runs events b') (hreset : ∀ e ∈ events, e.1 ≠ .reset)

include hrun hreset

/-- Between the closings of two tables another one was opened. -/
theorem Runs.opened_between {rest after : List Event}
    (hevents : events = before ++ (.endObject, .ok (.offset table)) ::
      (rest ++ (.endObject, .ok (.offset table')) :: after)) :
    ∃ n, (.startObject n, .ok .done) ∈ rest := by
  subst hevents
  obtain ⟨b1, -, hrun1⟩ := runs_append.1 hrun
  obtain ⟨-, b2, hclose, hrun2⟩ := runs_cons.1 hrun1
  obtain ⟨b3, hrest, hrun3⟩ := runs_append.1 hrun2
  obtain ⟨-, b4, hclose', -⟩ := runs_cons.1 hrun3
  obtain ⟨o, T, vtable, -, hclosed⟩ := (endObject_call_ends b1).of_call_ok hclose
  obtain ⟨o', T', vtable', -, hclosed'⟩ := (endObject_call_ends b3).of_call_ok hclose'
  by_contra hnone
  have hreset' : ∀ e ∈ rest, e.1 ≠ .reset := fun e he =>
    hreset e (List.mem_append_right _ (List.mem_cons_of_mem _ (List.mem_append_left _ he)))
  obtain ⟨o2, ho2, -⟩ := hrest.still_open hreset' (fun n hn => hnone ⟨n, hn⟩) hclosed'.stage
  rw [hclosed.idle] at ho2
  cases ho2

/-- What is called while a table is open belongs to that table. -/
theorem Runs.closedAfter_unique (h : ClosedAfter events before table)
    (h' : ClosedAfter events before table') :
    table = table' := by
  -- No other table is closed in between, for none is opened.
  have hfirst : ∀ {table table' : Nat} {rest after rest' : List Event},
      events = before ++ (rest ++ (.endObject, .ok (.offset table)) :: after) →
      (∀ n, (.startObject n, .ok .done) ∉ rest) →
      ∀ zs, rest ≠ rest' ++ (.endObject, .ok (.offset table')) :: zs := by
    rintro table table' _ after rest' hevents hrest zs rfl
    have hbetween : events = (before ++ rest') ++ (.endObject, .ok (.offset table')) ::
        (zs ++ (.endObject, .ok (.offset table)) :: after) := by
      rw [hevents, List.append_assoc, List.append_assoc]
      rfl
    obtain ⟨n, hn⟩ := hrun.opened_between hreset hbetween
    exact hrest n (List.mem_append_right _ (List.mem_cons_of_mem _ hn))
  obtain ⟨rest, after, hevents, hrest⟩ := h
  obtain ⟨rest', after', hevents', hrest'⟩ := h'
  have he := eq_of_splits (List.append_cancel_left (hevents.symm.trans hevents')) (hfirst hevents hrest)
    (hfirst hevents' hrest')
  exact Reply.offset.inj (Except.ok.inj (Prod.mk.inj he).2)

include hb

/-- A slot in which something was stored leads to where it was placed. -/
theorem Runs.stored (h : b.Stored events table slot content) : ∃ before b1 c reply b2 offset,
    b.Moment events before b1 (c, .ok reply) b2 ∧ (slot, content) ∈ c.stored b.options ∧
      ClosedAfter events before table ∧ b.SlotAt events b'.arena.written table slot offset ∧
      content.PlacedIn b.order (c.placements b1 b2) offset := by
  obtain ⟨before, c, reply, later, after, hcut, hs, hopens⟩ := h.cut
  obtain ⟨b1, hbefore, hrun1⟩ := runs_append.1 (hcut ▸ hrun)
  obtain ⟨hfault, b2, hcall, hrun2⟩ := runs_cons.1 hrun1
  obtain ⟨b3, hrest, hrun3⟩ := runs_append.1 hrun2
  obtain ⟨-, b4, hclose, -⟩ := runs_cons.1 hrun3
  have hstoring : b.Moment events before b1 (c, .ok reply) b2 :=
    ⟨⟨_, by rw [hcut, List.append_assoc]; rfl⟩, hbefore, hcall⟩
  have hclosing : b.Moment events (before ++ (c, .ok reply) :: later) b3
      (.endObject, .ok (.offset table)) b4 :=
    ⟨⟨after, by simp only [hcut, List.append_assoc, List.cons_append, List.nil_append]⟩,
      runs_append.2 ⟨b1, hbefore, runs_cons.2 ⟨hfault, b2, hcall, hrest⟩⟩, hclose⟩
  obtain ⟨o, T, vtable, held, hreply, hclosed, htracks, hplaced⟩ := hclosing.closes_placed hb hreset
  obtain rfl := Reply.offset.inj hreply
  -- The call recorded a field, and fields that are recorded stay until the table is closed.
  have hstart := (hb.braced hbefore fun e he => hreset e (hstoring.mem_of_before he)).1
  have hrecords := (Call.step_records b1 hstart c).of_call_ok hcall (slot, content)
  rw [hstoring.options_eq hreset] at hrecords
  obtain ⟨o1, f, hopen, hf, hslot, hcontent⟩ := hrecords hs
  obtain rfl : f.slot = slot := hslot
  rw [hstoring.order_eq hreset] at hcontent
  have hreset' : ∀ e ∈ later, e.1 ≠ .reset := fun e he =>
    hreset e (hclosing.mem_of_before (List.mem_append_right _ (List.mem_cons_of_mem _ he)))
  obtain ⟨o2, hopen2, hbecomes⟩ :=
    hrest.still_open hreset' (fun n hn => hopens n (List.mem_cons_of_mem _ hn)) hclosed.stage
  obtain rfl := Stage.object.inj (hopen.symm.trans hopen2)
  have hat := hclosed.tableAt (hclosing.sound hb.sound) htracks
  rw [hclosing.order_eq hreset] at hat
  exact ⟨before, b1, c, reply, b2, f.offset, hstoring, hs, ⟨_, after, hcut, hopens⟩,
    ⟨vtable, _, _, _, hat.mono (hclosing.grows_after hreset hrun).written, hplaced,
      hclosed.entry_of_field htracks (hbecomes.fields.subset hf)⟩, hcontent⟩

end

end Builder

/-- A table stands in any bytes in which its first word and its vtable do. -/
theorem TableAt.of_path {order : ByteOrder} {written w : List UInt8} {table vtable slots length : Nat}
    {entry : Nat → Nat} (h : TableAt order written table vtable slots length entry)
    (hpath : ∀ p ∈ Builder.tablePath order table vtable slots length entry, StandsAt w p.offset p.bytes) :
    TableAt order w table vtable slots length entry :=
  { h with
    distance := hpath _ (List.mem_cons_self ..)
    layout := hpath _ (List.mem_cons_of_mem _ (List.mem_cons_self ..)) }

end TableBuffer
