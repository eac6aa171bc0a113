import TableBuffer.Proofs.ItemPlaces

/-!
# The items that a run wrote

Every item that a run wrote is held by something one of its calls placed. Reading and changing it go through
other bytes: the table and its vtable, for an element the reference to the vector and the count in front of
it. `Bears` says that all of these stand, whatever became of one placement that holds items.
-/

namespace TableBuffer

open Build in
/-- A vector of scalars that is written at once is put at the front, its data behind the count. -/
theorem Call.vector_of_scalars? {c : Call} {ty : ScalarType} {items : List ty.Value} (b : Builder)
    (hc : c.scalars? = some ⟨ty, items⟩) : ∃ alignment,
    Ends c.step b (fun reply b' => reply = .offset b'.offset ∧ c.placements b b' =
      vectorPlacements b.order b'.offset items.length alignment (items.flatMap (ty.encode b.order)))
      (fun _ _ => True) := by
  have hbytes : ∀ {c : Call} {bytes : List UInt8} {alignment : Nat},
      c.step = located (Build.createByteVectorAligned bytes alignment) →
      (∀ b', c.placements b b' = vectorPlacements b.order b'.offset bytes.length alignment bytes) →
      Ends c.step b (fun reply b' => reply = .offset b'.offset ∧ c.placements b b' =
        vectorPlacements b.order b'.offset (bytes.map UInt8.toBitVec).length alignment
          ((bytes.map UInt8.toBitVec).flatMap (ScalarType.u8.encode b.order))) (fun _ _ => True) := by
    intro c bytes alignment hstep hp
    rw [hstep, ends_located]
    refine (createByteVectorAligned_ends b bytes alignment).mono ?_ fun _ _ _ => trivial
    intro o b' h
    rw [flatMap_encode_bytes, List.length_map]
    exact ⟨congrArg Reply.offset h.2.1, hp b'⟩
  cases c with
  | createVector ty' items' =>
    cases hc
    refine ⟨ty.size, ends_located.2 ((createVector_ends b ty items).mono ?_ fun _ _ _ => trivial)⟩
    intro o b' h
    exact ⟨congrArg Reply.offset h.2.1, rfl⟩
  | createByteVector bytes =>
    cases hc
    exact ⟨1, hbytes rfl fun _ => rfl⟩
  | createByteVectorAligned bytes alignment =>
    cases hc
    exact ⟨alignment, hbytes rfl fun _ => rfl⟩
  | createNestedBuffer bytes =>
    cases hc
    exact ⟨8, hbytes rfl fun _ => rfl⟩
  | _ => cases hc

theorem ScalarsMade.at_once_or_filled {events : List Event} {o : Nat} {ty : ScalarType}
    {items : List ty.Value} (h : ScalarsMade events o ty items) :
    (∃ c, (c, .ok (.offset o)) ∈ events ∧ c.scalars? = some ⟨ty, items⟩) ∨
      Filled events ty.size items.length (items.map (.push ty)).reverse o := by
  cases h with
  | whole h | bytes h | aligned h | nested h => exact .inl ⟨_, h, rfl⟩
  | filled h => exact .inr h

/-- A call of the run wrote the item: it stored it in the slot, or wrote the vector or the struct that it is
part of. A scalar of a struct counts if no other overlaps it. -/
def Item.WrittenBy (b : Builder) (events : List Event) : Item → Prop
  | scalar table slot ty => ∃ v, b.Stored events table slot (.scalar ty v)
  | reference table slot => ∃ target, b.Stored events table slot (.reference target)
  | element vector index ty => ∃ items : List ty.Value,
    ScalarsMade events vector ty items ∧ index < items.length
  | member struct field => ∃ (layout : StructLayout) (v : layout.Value),
    (.createStruct layout v, .ok (.offset struct)) ∈ events ∧ field ∈ layout.fields ∧
      ∀ g ∈ layout.fields, g ≠ field → g.Apart field

/-- The slot of the table is that of the item, or holds its struct, or a reference to its vector. -/
def Item.ReachedBy (b : Builder) (events : List Event) (table slot : Nat) : Item → Prop
  | scalar table' slot' _ | reference table' slot' => table' = table ∧ slot' = slot
  | element vector _ _ => b.Stored events table slot (.reference vector)
  | member struct _ => b.Stored events table slot (.struct struct)

namespace Builder

variable {b b' : Builder} {events before : List Event} {c : Call} {p : Placement} {item : Item}
  {o table slot : Nat}

section Written

variable (hb : b.Fresh) (hrun : b.Runs events b') (hreset : ∀ e ∈ events, e.1 ≠ .reset)

include hrun hreset

/-- A struct was placed at the offset that its call answered. -/
theorem Runs.struct_placed {layout : StructLayout} {r : layout.Value}
    (he : (.createStruct layout r, .ok (.offset o)) ∈ events) : ∃ before,
    b.PlacedBy events before (.createStruct layout r)
      ⟨.struct, layout.align, o, layout.encode b.order r⟩ := by
  obtain ⟨before, b1, b2, hmoment⟩ := hrun.moment he
  have hends : Build.Ends (Call.createStruct layout r).step b1 (fun reply b2 => reply = .offset b2.offset)
      (fun _ _ => True) := by
    rw [Call.step, Build.ends_located]
    exact (Build.createStruct_ends b1 layout r).mono (fun _ _ h => congrArg Reply.offset h.1)
      fun _ _ _ => trivial
  obtain rfl := Reply.offset.inj (hends.of_call_ok hmoment.call)
  have hplacements : Call.placements b1 b2 (.createStruct layout r) =
      [⟨.struct, layout.align, b2.offset, layout.encode b.order r⟩] := by
    rw [Call.placements, hmoment.order_eq hreset]
  exact ⟨before, b1, _, b2, hmoment, hplacements ▸ List.mem_singleton.2 rfl⟩

omit hreset

include hb

theorem Runs.written_le : b'.arena.written.length ≤ maxBufferSize := (hrun.sound hb.sound).offset_le_max

include hreset

/-- A count that was placed in front of as many items fits in a word. -/
theorem Runs.counts {vector count size index : Nat} (hpos : 0 < size) (hindex : index < count)
    (hroom : 4 + count * size ≤ vector)
    (hplaced : b.Placed events ⟨.count, 4, vector, b.order.encode 4 count⟩) :
    b.Counts events vector index := by
  have hle := (hplaced.stands hb hreset hrun).offset_le
  have hmax := hrun.written_le hb
  have hmul : count ≤ count * size := Nat.le_mul_of_pos_right _ hpos
  have hsmall : maxBufferSize < valueCount 4 := by decide
  change vector ≤ _ at hle
  exact ⟨count, hindex, by omega, hplaced⟩

/-- The count of a vector that was closed was placed. -/
theorem Runs.count_placed {vector count : Nat} (he : (.endVector, .ok (.offset vector)) ∈ events)
    (hstands : StandsAt b'.arena.written vector (b.order.encode 4 count)) :
    b.Placed events ⟨.count, 4, vector, b.order.encode 4 count⟩ := by
  obtain ⟨before, b1, b2, hmoment⟩ := hrun.moment he
  obtain ⟨v, hv, -, hreply, -⟩ := (endVector_call_ends b1).of_call_ok hmoment.call
  obtain rfl := Reply.offset.inj hreply
  have hp : Call.endVector.placements b1 b2 = [⟨.count, 4, b2.offset, b.order.encode 4 v.count⟩] := by
    rw [Call.placements, hv, hmoment.order_eq hreset]
  have hplaced : b.Placed events ⟨.count, 4, b2.offset, b.order.encode 4 v.count⟩ :=
    ⟨before, _, b1, _, b2, hmoment, hp ▸ List.mem_singleton.2 rfl⟩
  have hsame := (hplaced.stands hb hreset hrun).eq_of_length hstands
    ((ByteOrder.length_encode ..).trans (ByteOrder.length_encode ..).symm)
  change b.order.encode 4 v.count = b.order.encode 4 count at hsame
  rwa [hsame] at hplaced

theorem Runs.filled_hold {vector index : Nat} {ty : ScalarType} {items : List ty.Value}
    (h : Filled events ty.size items.length (items.map (.push ty)).reverse vector)
    (hindex : index < items.length) : ∃ before c p o v, b.PlacedBy events before c p ∧
      b.Holds events before b'.arena.written c p (.element vector index ty) o v := by
  obtain ⟨pre, alignment, pushes, post, hevents, hcalls, hok⟩ := h
  obtain ⟨hcount, hroom, hitems⟩ :=
    hrun.filled_moments (putsItem_push b.order ty) hreset hevents hcalls hok
  obtain ⟨earlier, b1, reply, b2, hmoment, hlen, hplace⟩ := hitems index _ (List.getElem?_eq_getElem hindex)
  have hclosed : (.endVector, .ok (.offset vector)) ∈ events := by
    rw [hevents]
    simp
  have hcounts := hrun.counts hb hreset ty.size_pos hindex hroom (hrun.count_placed hb hreset hclosed hcount)
  have hfilled : FilledAfter events
      (pre ++ (.startVector ty.size items.length alignment, .ok .done) :: earlier) vector := by
    have hahead : earlier <+: pushes := by
      have hamong := (List.prefix_append _ _).trans hmoment.among
      rw [hevents, List.prefix_append_right_inj, List.prefix_cons_inj] at hamong
      exact List.prefix_of_prefix_length_le hamong (List.prefix_append ..) (Nat.le_of_lt hlen)
    obtain ⟨rest, rfl⟩ := hahead
    refine ⟨rest, post, ?_, fun e he => ?_⟩
    · simp only [hevents, List.append_assoc, List.cons_append]
    · have hmem := List.mem_map_of_mem (f := Prod.fst) (List.mem_append_right earlier he)
      rw [hcalls, List.mem_reverse, List.mem_map] at hmem
      obtain ⟨v, -, hv⟩ := hmem
      exact ⟨ty, v, hv.symm⟩
  have hplacements : Call.placements b1 b2 (.push ty items[index]) =
      [⟨.element, ty.size, b2.offset, ty.encode b.order items[index]⟩] := by
    rw [Call.placements, hmoment.order_eq hreset]
  have hmul : (index + 1) * ty.size ≤ items.length * ty.size := Nat.mul_le_mul_right _ hindex
  rw [Nat.succ_mul] at hmul
  exact ⟨_, _, _, _, _, ⟨b1, reply, b2, hmoment, hplacements ▸ List.mem_singleton.2 rfl⟩,
    .element rfl hcounts hfilled rfl (by dsimp only; omega) rfl⟩

theorem Runs.scalars_hold {vector index : Nat} {ty : ScalarType} {items : List ty.Value}
    (h : ScalarsMade events vector ty items) (hindex : index < items.length) :
    ∃ before c p o v, b.PlacedBy events before c p ∧
      b.Holds events before b'.arena.written c p (.element vector index ty) o v := by
  rcases h.at_once_or_filled with ⟨c, he, hc⟩ | hfilled
  · obtain ⟨before, b1, b2, hmoment⟩ := hrun.moment he
    obtain ⟨alignment, hends⟩ := Call.vector_of_scalars? b1 hc
    obtain ⟨hreply, hp⟩ := hends.of_call_ok hmoment.call
    obtain rfl := Reply.offset.inj hreply
    rw [hmoment.order_eq hreset] at hp
    have hplaced : ∀ p ∈ vectorPlacements b.order b2.offset items.length alignment
        (items.flatMap (ty.encode b.order)), b.PlacedBy events before c p := fun p hmem =>
      ⟨b1, _, b2, hmoment, hp ▸ hmem⟩
    obtain ⟨hcount, hdata⟩ := List.forall_mem_cons.1 hplaced
    have hdata := List.forall_mem_singleton.1 hdata
    have hfour := (Placed.stands hb hreset ⟨_, _, hcount⟩ hrun).length_le
    have hroom := (Placed.stands hb hreset ⟨_, _, hdata⟩ hrun).length_le
    rw [ByteOrder.length_encode] at hfour
    rw [ty.length_flatMap_encode] at hroom
    change 4 ≤ b2.offset at hfour
    change items.length * ty.size ≤ b2.offset - 4 at hroom
    have hcounts := hrun.counts hb hreset ty.size_pos hindex (by omega) ⟨_, _, hcount⟩
    exact ⟨before, c, _, _, _, hdata, .data hc hcounts rfl (Nat.sub_add_cancel hfour).symm rfl
      (List.getElem?_eq_getElem hindex)⟩
  · exact hrun.filled_hold hb hreset hfilled hindex

/-- Whatever a run wrote is held by what one of its calls placed. -/
theorem Runs.holds (h : item.WrittenBy b events) : ∃ before c p o v, b.PlacedBy events before c p ∧
    b.Holds events before b'.arena.written c p item o v := by
  cases item with
  | scalar table slot ty =>
    obtain ⟨v, h⟩ := h
    obtain ⟨before, b1, c, reply, b2, offset, hmoment, hs, hclosed, hslot, hplaced⟩ :=
      hrun.stored hb hreset h
    exact ⟨before, c, _, _, _, ⟨b1, reply, b2, hmoment, hplaced⟩, .scalar hs hclosed hslot rfl rfl⟩
  | reference table slot =>
    obtain ⟨target, h⟩ := h
    obtain ⟨before, b1, c, reply, b2, offset, hmoment, hs, hclosed, hslot, hpos, hlt, hplaced⟩ :=
      hrun.stored hb hreset h
    have hplacedBy : b.PlacedBy events before c _ := ⟨b1, reply, b2, hmoment, hplaced⟩
    have hle := (Placed.stands hb hreset ⟨_, _, hplacedBy⟩ hrun).offset_le
    have hmax := hrun.written_le hb
    have hsmall : maxBufferSize < 4294967296 := by decide
    change offset ≤ _ at hle
    have hword := encode_word32 b.order (show offset - target < 4294967296 by omega)
    exact ⟨before, c, _, _, _, hplacedBy, .reference hs hclosed hslot rfl hpos hlt hword.symm⟩
  | element vector index ty =>
    obtain ⟨items, hmade, hindex⟩ := h
    exact hrun.scalars_hold hb hreset hmade hindex
  | member struct field =>
    obtain ⟨layout, r, he, hmem, hapart⟩ := h
    obtain ⟨before, hplaced⟩ := hrun.struct_placed hreset he
    have hfits : ∀ f ∈ layout.fields,
        f.position + f.type.size ≤ (List.replicate layout.size (0 : UInt8)).length := by
      rw [List.length_replicate]
      exact layout.fits
    obtain ⟨v, hwindow⟩ := Record.exists_take_drop_write b.order r hmem hfits hapart
    exact ⟨before, _, _, _, v, hplaced, .member rfl rfl rfl hmem hapart hwindow⟩

end Written

/-- All that the run placed stands in the bytes, but for one thing that holds items. -/
structure Bears (b : Builder) (events : List Event) (written : List UInt8) (spared : Placement)
    (w : List UInt8) : Prop where
  length_eq : w.length = written.length
  size_le : w.length ≤ maxBufferSize
  holdsItems : spared.role.holdsItems = true
  stands : ∀ p, b.Placed events p → p ≠ spared → StandsAt w p.offset p.bytes

section Borne

variable {written w : List UInt8} {spared : Placement} (hbears : b.Bears events written spared w)

include hbears

/-- What holds no items stands for sure. -/
theorem Bears.fixed (hp : b.Placed events p) (hrole : p.role.holdsItems = false) :
    StandsAt w p.offset p.bytes := by
  refine hbears.stands p hp fun h => ?_
  rw [h, hbears.holdsItems] at hrole
  cases hrole

theorem Bears.tableAt {vtable slots length : Nat} {entry : Nat → Nat}
    (hat : TableAt b.order written table vtable slots length entry)
    (hpath : ∀ p ∈ tablePath b.order table vtable slots length entry, b.Placed events p) :
    TableAt b.order w table vtable slots length entry := by
  refine hat.of_path fun p hp => hbears.fixed (hpath p hp) ?_
  rcases List.mem_pair.1 hp with rfl | rfl <;> rfl

/-- The slot of a table is read where it leads. -/
theorem SlotAt.readField (h : b.SlotAt events written table slot o) {α : Type} (read : Nat → Outcome α) :
    Table.readField ⟨Image.ofList b.order w, w.length - table⟩ slot read =
      (read (w.length - o)).map some := by
  obtain ⟨vtable, slots, length, entry, hat, hpath, hslot, hlt, hentry⟩ := h
  exact (hbears.tableAt hat hpath).readField hbears.size_le hslot hlt hentry read

/-- The struct that stands where the slot leads is read. -/
theorem SlotAt.record?_eq (h : b.SlotAt events written table slot o) {layout : StructLayout}
    {r : layout.Value} (hstands : StandsAt w o (layout.encode b.order r)) :
    Table.record? ⟨Image.ofList b.order w, w.length - table⟩ layout slot =
      .ok (some (layout.decode b.order (layout.encode b.order r))) := by
  rw [Table.record?, h.readField hbears, decode_layout_of_standsAt hstands]
  rfl

theorem Bears.length_le_of_stands {bytes : List UInt8} (h : StandsAt written o bytes) : o ≤ w.length := by
  rw [hbears.length_eq]
  exact h.offset_le

end Borne

section Found

variable (hb : b.Fresh) (hrun : b.Runs events b') (hreset : ∀ e ∈ events, e.1 ≠ .reset)
  {w : List UInt8} {spared : Placement} {v : item.type.Value}

include hb hrun hreset

/-- What holds an item holds no reference but the item. -/
theorem Holds.ne_reference {before' : List Event} {c' : Call} {q : Placement} {o' : Nat} {v' : BitVec 32}
    (h : b.Holds events before b'.arena.written c p item o v)
    (h' : b.Holds events before' b'.arena.written c' q (.reference table slot) o' v')
    (hplaced : b.PlacedBy events before c p) (hplaced' : b.PlacedBy events before' c' q)
    (hne : item ≠ .reference table slot) : q ≠ p := by
  rintro rfl
  have hstands := Placed.stands hb hreset ⟨_, _, hplaced⟩ hrun
  obtain ⟨hle, hroom, -⟩ := h.inside hstands
  have hapart := h.apart hb hrun hreset h' hplaced hplaced' hne
  have hsize := item.type.size_pos
  cases h' with
  | reference stored closed leads role pos lt bytes =>
    rw [bytes, ScalarType.length_encode] at hroom
    change o + 4 ≤ q.offset ∨ q.offset + item.type.size ≤ o at hapart
    change q.offset + item.type.size ≤ o + 4 at hroom
    omega

omit hb hrun hreset in
/-- What holds an item that is in another struct, or in none, is not the struct. -/
theorem Holds.ne_struct {layout : StructLayout} {r : layout.Value}
    (h : b.Holds events before b'.arena.written c p item o v) (hne : ∀ field, item ≠ .member o' field) :
    (⟨.struct, layout.align, o', layout.encode b.order r⟩ : Placement) ≠ p := by
  rintro rfl
  cases h with
  | member => exact hne _ rfl
  | scalar _ _ _ role | reference _ _ _ role | data _ _ role | element _ _ _ role => cases role

/-- An element is found behind the count of its vector, through any reference to the vector that stands. -/
theorem Counts.foundAt {vector index : Nat} (ty : ScalarType) (hcounts : b.Counts events vector index)
    (hreached : b.Stored events table slot (.reference vector))
    (hbears : b.Bears events b'.arena.written spared w)
    (hroute : ∀ {before c p o v}, b.PlacedBy events before c p →
      b.Holds events before b'.arena.written c p (.reference table slot) o v → p ≠ spared) :
    vector ≤ w.length ∧ (Item.element vector index ty).FoundAt (Image.ofList b.order w)
      (w.length - table) slot (w.length - vector + 4 + index * ty.size) := by
  obtain ⟨count, hindex, hcount, hplaced⟩ := hcounts
  have hstands := hbears.fixed hplaced rfl
  obtain ⟨before, b1, c, reply, b2, r, hmoment, hs, hclosed, hslot, hpos, hlt, hmem⟩ :=
    hrun.stored hb hreset hreached
  have hplacedBy : b.PlacedBy events before c _ := ⟨b1, reply, b2, hmoment, hmem⟩
  have hsmall : w.length < 4294967296 := Nat.lt_of_le_of_lt hbears.size_le (by decide)
  have hle := hbears.length_le_of_stands (Placed.stands hb hreset ⟨_, _, hplacedBy⟩ hrun)
  change r ≤ w.length at hle
  have hword : ScalarType.u32.encode b.order (BitVec.ofNat 32 (r - vector)) = b.order.encode 4 (r - vector) :=
    encode_word32 b.order (by omega)
  have hreference := hbears.stands _ ⟨_, _, hplacedBy⟩
    (hroute hplacedBy (.reference hs hclosed hslot rfl hpos hlt hword.symm))
  have htarget := target_of_referenceAt hsmall ⟨Nat.le_of_lt hlt, hreference⟩
  exact ⟨hstands.offset_le, Item.foundAt_element (hslot.readField hbears) ty htarget
    (word32_of_standsAt hcount hstands) hindex⟩

/-- Through a slot that reaches it the item is found where it stands, whatever became of a placement that
does not hold the reference in the slot. -/
theorem Holds.foundAt (h : b.Holds events before b'.arena.written c p item o v)
    (hplaced : b.PlacedBy events before c p) (hreached : item.ReachedBy b events table slot)
    (hbears : b.Bears events b'.arena.written spared w)
    (hroute : ∀ {before c p o v}, b.PlacedBy events before c p →
      b.Holds events before b'.arena.written c p (.reference table slot) o v →
      item ≠ .reference table slot → p ≠ spared) :
    item.FoundAt (Image.ofList b.order w) (w.length - table) slot (w.length - o) := by
  have hstands := Placed.stands hb hreset ⟨_, _, hplaced⟩ hrun
  have hle := hbears.length_le_of_stands hstands
  cases h with
  | scalar stored closed leads role bytes =>
    obtain ⟨rfl, rfl⟩ := hreached
    exact Item.foundAt_scalar (leads.readField hbears) _
  | reference stored closed leads role pos lt bytes =>
    obtain ⟨rfl, rfl⟩ := hreached
    exact Item.foundAt_reference (leads.readField hbears) (by rw [size_ofList]; exact hbears.size_le)
  | data data counts role behind bytes mem =>
    rename_i vector index ty items v
    obtain ⟨hvector, hfound⟩ := counts.foundAt hb hrun hreset ty hreached hbears
      fun hplaced h => hroute hplaced h nofun
    have hlen := hstands.length_le
    obtain ⟨hindex, -⟩ := List.getElem?_eq_some_iff.1 mem
    have hroom : index * ty.size ≤ items.length * ty.size := Nat.mul_le_mul_right _ (Nat.le_of_lt hindex)
    rw [bytes, ty.length_flatMap_encode] at hlen
    have hposition : w.length - (p.offset - index * ty.size) = w.length - vector + 4 + index * ty.size := by
      omega
    rwa [hposition]
  | element push counts filled role behind bytes =>
    rename_i vector index ty v
    obtain ⟨hvector, hfound⟩ := counts.foundAt hb hrun hreset ty hreached hbears
      fun hplaced h => hroute hplaced h nofun
    have hposition : w.length - p.offset = w.length - vector + 4 + index * ty.size := by omega
    rwa [hposition]
  | member struct role bytes mem apart window =>
    rename_i layout r f v
    obtain ⟨before', b1, c', reply, b2, offset, -, -, -, hslot, hoffset⟩ := hrun.stored hb hreset hreached
    obtain rfl : p.offset = offset := hoffset
    have hfits := layout.fits f mem
    have hlen := hstands.length_le
    rw [bytes, StructLayout.length_encode] at hlen
    have hposition : w.length - (p.offset - f.position) = w.length - p.offset + f.position := by omega
    rw [hposition]
    exact Item.foundAt_member (hslot.readField hbears) f

end Found

end Builder

end TableBuffer
