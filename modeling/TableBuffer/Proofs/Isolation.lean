import TableBuffer.Proofs.RootChecks
import TableBuffer.Proofs.WrittenItems

/-!
# Changing one item changes nothing else

Everything that a run placed lies apart, and different items share no byte. So writing over an item leaves
all others as they were, with the paths that lead to them: `Image.ChangedAt` lists what readers can tell. An
element is the same item through every reference to its vector, and a scalar of a struct through every slot
that holds the struct.
-/

namespace TableBuffer

/-- Bytes that begin with their own length are framed. -/
theorem framed_of_standsAt {order : ByteOrder} {w : List UInt8}
    (h : StandsAt w w.length (order.encode 4 (w.length - 4))) : framed order true (w.drop 4) = w := by
  have htake := (standsAt_iff.1 h).2.2
  rw [Nat.sub_self, List.drop_zero, ByteOrder.length_encode] at htake
  rw [framed, if_pos rfl, List.length_drop, ← htake]
  exact List.take_append_drop 4 w

/-- The second image is the first with the item at a position changed, and all else that the run wrote as it
was. -/
structure Image.ChangedAt (m m' : Image) (b : Builder) (events : List Event) (sizePrefixed : Bool)
    (item : Item) (position : Nat) : Prop where
  size_eq : m'.size = m.size
  order_eq : m'.order = m.order
  outside : ∀ i, i < position ∨ position + item.type.size ≤ i → m'.bytes[i]? = m.bytes[i]?
  /-- Strings, counts, vtables, first words of tables and the frame stand, and so does each placement of
  items but for the one that the item is in. -/
  placed : ∀ p, b.Placed events p →
    (p.role.holdsItems = true ∧ m.size - p.offset ≤ position ∧
      position + item.type.size ≤ m.size - p.offset + p.bytes.length) ∨
    m'.slice (m.size - p.offset) p.bytes.length = .ok p.bytes
  /-- Every other item reads as before, through each slot but one that was itself made to lead elsewhere. -/
  items : ∀ (other : Item) table slot, other.WrittenBy b events → other.ReachedBy b events table slot →
    other ≠ item → item ≠ .reference table slot →
    other.position? ⟨m', m.size - table⟩ slot = other.position? ⟨m, m.size - table⟩ slot ∧
      other.get ⟨m', m.size - table⟩ slot = other.get ⟨m, m.size - table⟩ slot
  /-- Every struct that the item is not in reads as before. -/
  structs : ∀ table slot o (layout : StructLayout) (v : layout.Value),
    b.Stored events table slot (.struct o) → (.createStruct layout v, .ok (.offset o)) ∈ events →
    (∀ field, item ≠ .member o field) →
    Table.record? ⟨m', m.size - table⟩ layout slot = Table.record? ⟨m, m.size - table⟩ layout slot
  /-- Every table passes the checks, and no field becomes present or absent or moves. -/
  tables : ∀ table, (.endObject, .ok (.offset table)) ∈ events →
    m'.checkedTable (m.size - table) = .ok ⟨m', m.size - table⟩ ∧
      ∀ slot, Table.fieldOffset ⟨m', m.size - table⟩ slot = Table.fieldOffset ⟨m, m.size - table⟩ slot
  root : ∃ t t', m.rootAs sizePrefixed = .ok t ∧ m'.rootAs sizePrefixed = .ok t' ∧ t'.position = t.position

/-- Through the slot the item can be made to hold whatever it takes, and made to hold again what it held.
Every slot that reaches it then reads the new value, and nothing else is changed. -/
def Item.Isolated (m : Image) (b : Builder) (events : List Event) (sizePrefixed : Bool) (table slot : Nat)
    (item : Item) : Prop :=
  ∃ position old, item.position? ⟨m, m.size - table⟩ slot = .ok (some position) ∧
    item.get ⟨m, m.size - table⟩ slot = .ok (some old) ∧
    ∀ v, item.Takes position m.size v → ∃ m', item.set ⟨m, m.size - table⟩ slot v = .ok (some m') ∧
      (∀ table' slot', item.ReachedBy b events table' slot' →
        item.get ⟨m', m.size - table'⟩ slot' = .ok (some v)) ∧
      m.ChangedAt m' b events sizePrefixed item position ∧
      item.set ⟨m', m.size - table⟩ slot old = .ok (some m)

/-- It makes no difference which of the items is changed first. -/
def Item.Commute (m : Image) (table slot table' slot' : Nat) (item other : Item) : Prop :=
  ∀ x y, ∃ m1 m2 m', item.set ⟨m, m.size - table⟩ slot x = .ok (some m1) ∧
    other.set ⟨m, m.size - table'⟩ slot' y = .ok (some m2) ∧
    other.set ⟨m1, m1.size - table'⟩ slot' y = .ok (some m') ∧
    item.set ⟨m2, m2.size - table⟩ slot x = .ok (some m')

namespace Builder

variable {b b' : Builder} {events before before' : List Event} {c c' : Call} {p q : Placement}
  {item other : Item} {o o' table slot table' slot' root : Nat} {sizePrefixed : Bool}
  {identifier : Option Identifier} {reply : Reply}

section

variable (hb : b.Fresh) (hrun : b.Runs events b') (hreset : ∀ e ∈ events, e.1 ≠ .reset)
  {v : item.type.Value} {v' : other.type.Value}

include hb hrun hreset

/-- All that a run placed stands when it ends. -/
theorem Runs.bears (hrole : p.role.holdsItems = true) :
    b.Bears events b'.arena.written p b'.arena.written where
  length_eq := rfl
  size_le := hrun.written_le hb
  holdsItems := hrole
  stands _ hq _ := hq.stands hb hreset hrun

/-- A table that was closed stands where its first word and its vtable were placed. -/
theorem Runs.table_placed (he : (.endObject, .ok (.offset table)) ∈ events) :
    ∃ vtable slots length entry, TableAt b.order b'.arena.written table vtable slots length entry ∧
      ∀ p ∈ tablePath b.order table vtable slots length entry, b.Placed events p := by
  obtain ⟨before, b1, b2, hmoment⟩ := hrun.moment he
  obtain ⟨o, T, vtable, held, hreply, hclosed, htracks, hplaced⟩ := hmoment.closes_placed hb hreset
  obtain rfl := Reply.offset.inj hreply
  have hat := hclosed.tableAt (hmoment.sound hb.sound) htracks
  rw [hmoment.order_eq hreset] at hat
  exact ⟨vtable, _, _, _, hat.mono (hmoment.grows_after hreset hrun).written, hplaced⟩

section Root

variable {w : List UInt8} (hbears : b.Bears events b'.arena.written p w)
  (hroot : (.endObject, .ok (.offset root)) ∈ events)

include hbears hroot

theorem Bears.root_eq (hframe : b.Placed events ⟨.frame, 4, b'.offset, b.order.encode 4 (b'.offset - root)⟩) :
    (Image.ofList b.order w).root = .ok ⟨Image.ofList b.order w, w.length - root⟩ := by
  obtain ⟨vtable, slots, length, entry, hat, hpath⟩ := hrun.table_placed hb hreset hroot
  have htable := hbears.tableAt hat hpath
  have hreference := hbears.fixed hframe rfl
  have hlen : b'.offset = w.length := hbears.length_eq.symm
  rw [hlen] at hreference
  exact root_of_referenceAt ⟨htable.distance.offset_le, hreference⟩ hbears.size_le
    (htable.checkedTable hbears.size_le)

theorem Bears.sizePrefixedRoot_eq
    (hsize : b.Placed events ⟨.frame, 4, b'.offset, b.order.encode 4 (b'.offset - 4)⟩)
    (hframe : b.Placed events ⟨.frame, 4, b'.offset - 4, b.order.encode 4 (b'.offset - 4 - root)⟩) :
    (Image.ofList b.order w).sizePrefixedRoot =
      .ok ⟨Image.ofList b.order (w.drop 4), w.length - 4 - root⟩ := by
  obtain ⟨vtable, slots, length, entry, hat, hpath⟩ := hrun.table_placed hb hreset hroot
  have hlen : b'.offset = w.length := hbears.length_eq.symm
  rw [hlen] at hsize hframe
  have hlength := hbears.fixed hsize rfl
  have hbody : (w.drop 4).length = w.length - 4 := List.length_drop ..
  -- The length takes the first four bytes, so all else stands behind it.
  have hbehind : ∀ p, b.Placed events p → p.role.holdsItems = false → p.role ≠ .frame → 0 < p.bytes.length →
      StandsAt (w.drop 4) p.offset p.bytes := by
    intro p hp hrole hne hpos
    have hstands := hbears.fixed hp hrole
    have hle := hstands.offset_le
    refine hstands.of_suffix (List.drop_suffix ..) ?_
    rw [hbody]
    rcases hp.apart hb hreset hsize (fun h => hne (h ▸ rfl)) with hfront | hfront
    · change p.offset + (b.order.encode 4 _).length ≤ w.length at hfront
      rw [ByteOrder.length_encode] at hfront
      omega
    · change w.length + p.bytes.length ≤ p.offset at hfront
      omega
  have htable : TableAt b.order (w.drop 4) root vtable slots length entry := by
    refine hat.of_path fun p hp => ?_
    have hplaced := hpath p hp
    rcases List.mem_pair.1 hp with rfl | rfl
    · exact hbehind _ hplaced rfl nofun (by rw [ScalarType.length_encode]; decide)
    · refine hbehind _ hplaced rfl nofun ?_
      rw [VTable.length_encode, VTable.entryPosition, VTable.headerWords]
      omega
  have hmax : (w.drop 4).length ≤ maxBufferSize := Nat.le_trans (hbody ▸ Nat.sub_le ..) hbears.size_le
  have hreference : StandsAt (w.drop 4) (w.drop 4).length (b.order.encode 4 ((w.drop 4).length - root)) := by
    rw [hbody]
    exact (hbears.fixed hframe rfl).of_suffix (List.drop_suffix ..) (Nat.le_of_eq hbody.symm)
  have hwhole : framed b.order true (w.drop 4) = w := framed_of_standsAt hlength
  have hroot := sizePrefixedRoot_framed ⟨htable.distance.offset_le, hreference⟩
    (hwhole.symm ▸ hbears.size_le) (htable.checkedTable hmax)
  rwa [hwhole, hbody] at hroot

theorem Bears.rootAs_eq {earlier : List Event}
    (hlast : events = earlier ++ [(finishing sizePrefixed root identifier, .ok reply)]) :
    ∃ t, (Image.ofList b.order w).rootAs sizePrefixed = .ok t ∧
      t.position = w.length - (if sizePrefixed then 4 else 0) - root := by
  subst hlast
  obtain ⟨b1, -, hmoment⟩ := hrun.last_moment
  have hplaced : ∀ p ∈ (finishing sizePrefixed root identifier).placements b1 b',
      b.Placed (earlier ++ [(finishing sizePrefixed root identifier, .ok reply)]) p :=
    fun p hp => ⟨earlier, _, b1, reply, b', hmoment, hp⟩
  cases sizePrefixed with
  | false =>
    have hframe := List.forall_mem_singleton.1 hplaced
    rw [hmoment.order_eq hreset] at hframe
    exact ⟨_, hbears.root_eq hb hrun hreset hroot hframe, rfl⟩
  | true =>
    obtain ⟨hsize, hframe⟩ := List.forall_mem_cons.1 hplaced
    have hframe := List.forall_mem_singleton.1 hframe
    rw [hmoment.order_eq hreset] at hsize hframe
    exact ⟨_, hbears.sizePrefixedRoot_eq hb hrun hreset hroot hsize hframe, rfl⟩

end Root

section Item

variable (hplaced : b.PlacedBy events before c p) (h : b.Holds events before b'.arena.written c p item o v)

include hplaced h

theorem Holds.fits : o ≤ b'.arena.written.length ∧ item.type.size ≤ o ∧
    StandsAt b'.arena.written o (item.type.encode b.order v) := by
  obtain ⟨-, -, hstands⟩ := h.inside (Placed.stands hb hreset ⟨_, _, hplaced⟩ hrun)
  have hlen := hstands.length_le
  rw [ScalarType.length_encode] at hlen
  exact ⟨hstands.offset_le, hlen, hstands⟩

/-- What an item held it can be made to hold again. -/
theorem Holds.takes_old : item.Takes (b'.arena.written.length - o) b'.arena.written.length
    (item.ofStored (b'.arena.written.length - o) v) := by
  obtain ⟨hle, -, -⟩ := h.fits hb hrun hreset hplaced
  have hmax := hrun.written_le hb
  have hsmall : maxBufferSize < 4294967296 := by decide
  cases h with
  | reference stored closed leads role pos lt bytes =>
    rename_i table slot target
    have hword : (BitVec.ofNat 32 (p.offset - target)).toNat = p.offset - target := by
      rw [BitVec.toNat_ofNat]
      exact Nat.mod_eq_of_lt (by omega)
    show b'.arena.written.length - p.offset < b'.arena.written.length - p.offset +
        (BitVec.ofNat 32 (p.offset - target)).toNat ∧
      b'.arena.written.length - p.offset + (BitVec.ofNat 32 (p.offset - target)).toNat <
        b'.arena.written.length
    rw [hword]
    omega
  | scalar | data | element | member => trivial

variable {new : List UInt8} (hnew : new.length = item.type.size)

include hnew

/-- Writing over an item spares all that the run placed but for what holds the item. -/
theorem Holds.bears : b.Bears events b'.arena.written p (overwritten b'.arena.written o new) := by
  have hp : b.Placed events p := ⟨_, _, hplaced⟩
  obtain ⟨hinside, hroom, -⟩ := h.inside (hp.stands hb hreset hrun)
  obtain ⟨hle, hsize, -⟩ := h.fits hb hrun hreset hplaced
  have hlen := length_overwritten hle (hnew ▸ hsize)
  refine ⟨hlen, hlen ▸ hrun.written_le hb, h.role, fun q hq hne => ?_⟩
  refine (hq.stands hb hreset hrun).overwritten hle (hnew ▸ hsize) ?_
  rcases hq.apart hb hreset hp hne with hfront | hfront <;> omega

/-- Another item stands as it did. -/
theorem Holds.stands_other (h' : b.Holds events before' b'.arena.written c' q other o' v')
    (hplaced' : b.PlacedBy events before' c' q) (hne : item ≠ other) :
    StandsAt (overwritten b'.arena.written o new) o' (other.type.encode b.order v') := by
  obtain ⟨hle, hsize, -⟩ := h.fits hb hrun hreset hplaced
  obtain ⟨-, -, hstands⟩ := h'.fits hb hrun hreset hplaced'
  refine hstands.overwritten hle (hnew ▸ hsize) ?_
  have hapart := h.apart hb hrun hreset h' hplaced hplaced' hne
  rw [hnew, ScalarType.length_encode]
  exact hapart.symm

/-- Through a slot that was not made to lead elsewhere any item is found where it was. -/
theorem Holds.foundAt_both (h' : b.Holds events before' b'.arena.written c' q other o' v')
    (hplaced' : b.PlacedBy events before' c' q) (hreached : other.ReachedBy b events table slot)
    (hroute : other ≠ .reference table slot → item ≠ .reference table slot) :
    other.FoundAt (Image.ofList b.order b'.arena.written) (b'.arena.written.length - table) slot
        (b'.arena.written.length - o') ∧
      other.FoundAt (Image.ofList b.order (overwritten b'.arena.written o new))
        (b'.arena.written.length - table) slot (b'.arena.written.length - o') := by
  have hafter := h.bears hb hrun hreset hplaced hnew
  have hroute' : ∀ {before c r o v}, b.PlacedBy events before c r →
      b.Holds events before b'.arena.written c r (.reference table slot) o v → other ≠ .reference table slot →
      r ≠ p := fun hplacedr hr hne => h.ne_reference hb hrun hreset hr hplaced hplacedr (hroute hne)
  have hfound' := h'.foundAt hb hrun hreset hplaced' hreached hafter hroute'
  rw [hafter.length_eq] at hfound'
  exact ⟨h'.foundAt hb hrun hreset hplaced' hreached (hrun.bears hb hreset h.role) hroute', hfound'⟩

/-- Only the item that is written over is changed. -/
theorem Holds.changedAt {earlier : List Event}
    (hlast : events = earlier ++ [(finishing sizePrefixed root identifier, .ok reply)])
    (hroot : (.endObject, .ok (.offset root)) ∈ events) :
    (Image.ofList b.order b'.arena.written).ChangedAt
      (Image.ofList b.order (overwritten b'.arena.written o new)) b events sizePrefixed item
      (b'.arena.written.length - o) := by
  have hbefore := hrun.bears hb hreset h.role
  have hafter := h.bears hb hrun hreset hplaced hnew
  have hlen := hafter.length_eq
  obtain ⟨hle, hsize, -⟩ := h.fits hb hrun hreset hplaced
  constructor
  case size_eq => rw [size_ofList, size_ofList, hlen]
  case order_eq => rfl
  case outside =>
    intro i hi
    show (overwritten b'.arena.written o new).toArray[i]? = b'.arena.written.toArray[i]?
    rw [List.getElem?_toArray, List.getElem?_toArray, getElem?_overwritten hle (hnew ▸ hsize), if_neg]
    omega
  case placed =>
    intro q hq
    rw [size_ofList]
    by_cases hsame : q = p
    · subst hsame
      have hstands := hq.stands hb hreset hrun
      obtain ⟨hinside, hroom, -⟩ := h.inside hstands
      have hqle := hstands.offset_le
      exact .inl ⟨h.role, by omega, by omega⟩
    · have hslice := slice_of_standsAt b.order (hafter.stands q hq hsame)
      rw [hlen] at hslice
      exact .inr hslice
  case items =>
    intro other table slot hwritten hreached hne hroute
    obtain ⟨before', c', q, o', v', hplaced', h'⟩ := hrun.holds hb hreset hwritten
    obtain ⟨hfound, hfound'⟩ :=
      h.foundAt_both hb hrun hreset hplaced hnew h' hplaced' hreached fun _ => hroute
    obtain ⟨-, -, hstands⟩ := h'.fits hb hrun hreset hplaced'
    have hstands' := h.stands_other hb hrun hreset hplaced hnew h' hplaced' hne.symm
    have hget := hfound.get_of_standsAt rfl hstands
    have hget' := hfound'.get_of_standsAt (congrArg (· - o') hlen.symm) hstands'
    rw [size_ofList]
    exact ⟨hfound'.position?_eq.trans hfound.position?_eq.symm, hget'.trans hget.symm⟩
  case structs =>
    intro table slot struct layout r hstored he hne
    obtain ⟨before', b1, c', reply, b2, offset, -, -, -, hslot, hoffset⟩ := hrun.stored hb hreset hstored
    obtain rfl : struct = offset := hoffset
    obtain ⟨before'', hstruct⟩ := hrun.struct_placed hreset he
    have hread := hslot.record?_eq hbefore (hbefore.stands _ ⟨_, _, hstruct⟩ (h.ne_struct hne))
    have hread' := hslot.record?_eq hafter (hafter.stands _ ⟨_, _, hstruct⟩ (h.ne_struct hne))
    rw [hlen] at hread'
    exact hread'.trans hread.symm
  case tables =>
    intro table he
    obtain ⟨vtable, slots, length, entry, hat, hpath⟩ := hrun.table_placed hb hreset he
    have hat' := hafter.tableAt hat hpath
    have hcheck := hat'.checkedTable hafter.size_le
    rw [size_ofList, ← hlen]
    refine ⟨hcheck, fun slot => ?_⟩
    rw [hat'.fieldOffset hafter.size_le, hlen, hat.fieldOffset hbefore.size_le]
  case root =>
    obtain ⟨t, ht, hposition⟩ := hbefore.rootAs_eq hb hrun hreset hroot hlast
    obtain ⟨t', ht', hposition'⟩ := hafter.rootAs_eq hb hrun hreset hroot hlast
    rw [hlen] at hposition'
    exact ⟨t, t', ht, ht', hposition'.trans hposition.symm⟩

end Item

/-- Different items that are no references are changed in either order with one result. -/
theorem Holds.commute (h : b.Holds events before b'.arena.written c p item o v)
    (hplaced : b.PlacedBy events before c p) (h' : b.Holds events before' b'.arena.written c' q other o' v')
    (hplaced' : b.PlacedBy events before' c' q) (hreached : item.ReachedBy b events table slot)
    (hreached' : other.ReachedBy b events table' slot') (hne : item ≠ other)
    (hitem : item.isReference = false) (hother : other.isReference = false) :
    item.Commute (Image.ofList b.order b'.arena.written) table slot table' slot' other := by
  intro x y
  have hroute : ∀ {item : Item}, item.isReference = false → ∀ table slot, item ≠ .reference table slot := by
    rintro item hitem table slot rfl
    cases hitem
  obtain ⟨hle, hsize, -⟩ := h.fits hb hrun hreset hplaced
  obtain ⟨hle', hsize', -⟩ := h'.fits hb hrun hreset hplaced'
  have hx := ScalarType.length_encode b.order item.type (item.toStored (b'.arena.written.length - o) x)
  have hy := ScalarType.length_encode b.order other.type (other.toStored (b'.arena.written.length - o') y)
  have hlen := (h.bears hb hrun hreset hplaced hx).length_eq
  have hlen' := (h'.bears hb hrun hreset hplaced' hy).length_eq
  obtain ⟨hfound, -⟩ := h.foundAt_both hb hrun hreset hplaced hx h hplaced hreached id
  obtain ⟨hfound', hsecond'⟩ :=
    h.foundAt_both hb hrun hreset hplaced hx h' hplaced' hreached' fun _ => hroute hitem _ _
  obtain ⟨-, hsecond⟩ :=
    h'.foundAt_both hb hrun hreset hplaced' hy h hplaced hreached fun _ => hroute hother _ _
  have hfirst := hfound.set_ofList rfl hle hsize (Item.takes_of_not_reference hitem x)
  have hfirst' := hfound'.set_ofList rfl hle' hsize' (Item.takes_of_not_reference hother y)
  have hset' := hsecond'.set_ofList (congrArg (· - o') hlen.symm)
    (Nat.le_trans hle' (Nat.le_of_eq hlen.symm)) hsize' (Item.takes_of_not_reference hother y)
  have hset := hsecond.set_ofList (congrArg (· - o) hlen'.symm)
    (Nat.le_trans hle (Nat.le_of_eq hlen'.symm)) hsize (Item.takes_of_not_reference hitem x)
  have happart := h.apart hb hrun hreset h' hplaced hplaced' hne
  have hswap := overwritten_comm hle (hx ▸ hsize) hle' (hy ▸ hsize') (by rwa [hx, hy])
  rw [← hswap] at hset
  have hsame := (size_ofList b.order _).trans hlen
  have hsame' := (size_ofList b.order _).trans hlen'
  exact ⟨_, _, _, hfirst, hfirst', (congrArg (fun n => other.set ⟨_, n - table'⟩ slot' y) hsame).trans hset',
    (congrArg (fun n => item.set ⟨_, n - table⟩ slot x) hsame').trans hset⟩

/-- An item can be changed, and changed back, and nothing else is. -/
theorem Holds.isolated {earlier : List Event} (h : b.Holds events before b'.arena.written c p item o v)
    (hplaced : b.PlacedBy events before c p) (hreached : item.ReachedBy b events table slot)
    (hlast : events = earlier ++ [(finishing sizePrefixed root identifier, .ok reply)])
    (hroot : (.endObject, .ok (.offset root)) ∈ events) :
    item.Isolated (Image.ofList b.order b'.arena.written) b events sizePrefixed table slot := by
  obtain ⟨hle, hsize, hstands⟩ := h.fits hb hrun hreset hplaced
  have hmax := hrun.written_le hb
  have hnew := fun x =>
    ScalarType.length_encode b.order item.type (item.toStored (b'.arena.written.length - o) x)
  obtain ⟨hfound, -⟩ := h.foundAt_both hb hrun hreset hplaced (ScalarType.length_encode b.order item.type v) h
    hplaced hreached id
  refine ⟨_, _, hfound.position?_eq, hfound.get_of_standsAt rfl hstands, fun x hx => ?_⟩
  rw [size_ofList] at hx
  have hlen := (h.bears hb hrun hreset hplaced (hnew x)).length_eq
  have hposition := congrArg (· - o) hlen.symm
  refine ⟨_, hfound.set_ofList rfl hle hsize hx, fun table' slot' hreached' => ?_,
    h.changedAt hb hrun hreset hplaced (hnew x) hlast hroot, ?_⟩
  · obtain ⟨-, hfound'⟩ := h.foundAt_both hb hrun hreset hplaced (hnew x) h hplaced hreached' id
    have hget := hfound'.get_of_standsAt hposition (standsAt_overwritten hle (hnew x ▸ hsize))
    rwa [Item.ofStored_toStored hx hmax] at hget
  · obtain ⟨-, hfound'⟩ := h.foundAt_both hb hrun hreset hplaced (hnew x) h hplaced hreached id
    have hold := h.takes_old hb hrun hreset hplaced
    have hset := hfound'.set_ofList hposition (Nat.le_trans hle (Nat.le_of_eq hlen.symm)) hsize
      (by rwa [hlen])
    have hback := overwritten_back hle (hnew x ▸ hsize) hstands
      ((ScalarType.length_encode ..).trans (hnew x).symm)
    rwa [Item.toStored_ofStored, hback] at hset

end

/-- In a finished buffer every item that the run wrote can be changed through each slot that reaches it, and
changed back. The new value is read then and nothing else is other than it was: no other item, no string, no
vtable, no first word of a table, and not the way to the root. Items that are no references are changed in
either order with one result. -/
theorem mutation_isolated {earlier : List Event} (hb : b.Fresh) (hrun : b.Runs events b')
    (hreset : ∀ e ∈ events, e.1 ≠ .reset)
    (hlast : events = earlier ++ [(finishing sizePrefixed root identifier, .ok reply)])
    (hroot : (.endObject, .ok (.offset root)) ∈ events) :
    ∃ bytes, b'.finishedData = .ok bytes ∧
      let m := Image.ofList b.order bytes
      (∀ (item : Item) table slot, item.WrittenBy b events → item.ReachedBy b events table slot →
        item.Isolated m b events sizePrefixed table slot) ∧
      ∀ (item other : Item) table slot table' slot', item.WrittenBy b events → other.WrittenBy b events →
        item.ReachedBy b events table slot → other.ReachedBy b events table' slot' → item ≠ other →
        item.isReference = false → other.isReference = false →
        item.Commute m table slot table' slot' other := by
  obtain ⟨b1, -, hmoment⟩ := Runs.last_moment (hlast ▸ hrun)
  have hfin := (finishing_call_ends b1 sizePrefixed root identifier).of_call_ok hmoment.call
  obtain ⟨body, -, hdata, -⟩ := hfin.body
  refine ⟨_, hdata, fun item table slot hwritten hreached => ?_,
    fun item other table slot table' slot' hwritten hwritten' hreached hreached' hne hitem hother => ?_⟩
  · obtain ⟨before, c, p, o, v, hplaced, h⟩ := hrun.holds hb hreset hwritten
    exact h.isolated hb hrun hreset hplaced hreached hlast hroot
  · obtain ⟨before, c, p, o, v, hplaced, h⟩ := hrun.holds hb hreset hwritten
    obtain ⟨before', c', q, o', v', hplaced', h'⟩ := hrun.holds hb hreset hwritten'
    exact h.commute hb hrun hreset hplaced h' hplaced' hreached hreached' hne hitem hother

/-- An element of a vector that was filled, the reference to a vector, and a scalar of a struct. -/
theorem smallRun_isolated :
    let run := smallRun ++ [(finishing false 68 none, .ok .done)]
    ∃ bytes, ((new .little).run (run.map Prod.fst)).2.finishedData = .ok bytes ∧
      let m := Image.ofList .little bytes
      (Item.element 36 1 .u16).Isolated m (new .little) run false 68 5 ∧
        (Item.reference 68 2).Isolated m (new .little) run false 68 2 ∧
        (Item.element 36 1 .u16).Commute m 68 5 68 1 (.member 48 ⟨4, .u32⟩) := by
  intro run
  have hruns : (new .little).Runs run ((new .little).run (run.map Prod.fst)).2 :=
    runs_of_outcomes (by decide +kernel) (by simp [run, smallRun, smallFields])
  have hspan : TableSpan run 6 smallFields 68 :=
    ⟨smallRun.take 9, [(finishing false 68 none, .ok .done)], rfl, by simp [smallFields]⟩
  have hfilled : Filled run 2 2 [.push .u16 (4 : BitVec 16), .push .u16 (3 : BitVec 16)] 36 :=
    ⟨smallRun.take 5, 2, (smallRun.drop 6).take 2, run.drop 9, rfl, rfl, by simp [smallRun]⟩
  have hstored : ∀ {slot content}, (slot, content) ∈ storedBy .standard smallFields →
      (new .little).Stored run 68 slot content := fun h => ⟨6, smallFields, hspan, h⟩
  have helement : (Item.element 36 1 .u16).WrittenBy (new .little) run :=
    ⟨[(3 : BitVec 16), (4 : BitVec 16)], .filled hfilled, by decide⟩
  have hreference : (new .little).Stored run 68 2 (.reference 28) :=
    hstored (List.mem_of_getElem? (i := 0) rfl)
  have hvector : (new .little).Stored run 68 5 (.reference 36) := hstored (List.mem_of_getElem? (i := 4) rfl)
  have hstruct : (new .little).Stored run 68 1 (.struct 48) := hstored (List.mem_of_getElem? (i := 1) rfl)
  have hmember : (Item.member 48 ⟨4, .u32⟩).WrittenBy (new .little) run :=
    ⟨pairLayout, ((1 : BitVec 8), (2 : BitVec 32), ()), List.mem_of_getElem? (i := 11) rfl, by decide,
      by decide⟩
  obtain ⟨bytes, hdata, hisolated, hcommute⟩ := mutation_isolated (fresh_new .little) hruns
    (by simp [run, smallRun, smallFields, finishing]) rfl (List.mem_of_getElem? (i := 16) rfl)
  exact ⟨bytes, hdata, hisolated _ 68 5 helement hvector, hisolated _ 68 2 ⟨28, hreference⟩ ⟨rfl, rfl⟩,
    hcommute _ _ 68 5 68 1 helement hmember hvector hstruct (by decide) rfl rfl⟩

/-- A struct that is added to two slots, one right after the other. -/
def twiceAdded : List Event :=
  [(.startObject 2, .ok .done),
    (.createStruct pairLayout ((1 : BitVec 8), (2 : BitVec 32), ()), .ok (.offset 8)),
    (.addStruct 0 8, .ok .done), (.addStruct 1 8, .ok .done), (.endObject, .ok (.offset 12)),
    (.finish 12 none, .ok .done)]

/-- Changing the struct in one slot changes what the other slot reads. -/
theorem twiceAdded_changes_both :
    (new .little).Runs twiceAdded ((new .little).run (twiceAdded.map Prod.fst)).2 ∧
      ∃ bytes m', ((new .little).run (twiceAdded.map Prod.fst)).2.finishedData = .ok bytes ∧
        let m := Image.ofList .little bytes
        (Item.member 8 ⟨4, .u32⟩).set ⟨m, m.size - 12⟩ 0 (3 : BitVec 32) = .ok (some m') ∧
          Table.record? ⟨m, m.size - 12⟩ pairLayout 1 = .ok (some ((1 : BitVec 8), (2 : BitVec 32), ())) ∧
          Table.record? ⟨m', m.size - 12⟩ pairLayout 1 = .ok (some ((1 : BitVec 8), (3 : BitVec 32), ())) := by
  refine ⟨runs_of_outcomes (by decide +kernel) (by simp [twiceAdded]),
    [12, 0, 0, 0, 8, 0, 12, 0, 4, 0, 4, 0, 8, 0, 0, 0, 1, 0, 0, 0, 2, 0, 0, 0],
    Image.ofList .little [12, 0, 0, 0, 8, 0, 12, 0, 4, 0, 4, 0, 8, 0, 0, 0, 1, 0, 0, 0, 3, 0, 0, 0],
    ?_, ?_, ?_, ?_⟩
  · decide +kernel
  · decide +kernel
  · rfl
  · rfl

end Builder

end TableBuffer
