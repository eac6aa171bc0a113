import TableBuffer.Proofs.Changing
import TableBuffer.Proofs.RoundTrip
import TableBuffer.Proofs.Slots

/-!
# Where the items of a run stand

An item that a run wrote is all or part of what one call placed, and no two items share a byte: what is part
of different placements lies apart, and two parts of one placement are different elements of a vector or
different scalars of a struct.
-/

namespace TableBuffer

/-- Whether such bytes hold items. All others are left alone by every change. -/
def Role.holdsItems : Role → Bool
  | field | reference | element | struct | data => true
  | count | text | tableStart | vtable | frame => false

/-- What the bytes of a field are. -/
def Content.role : Content → Role
  | scalar .. => .field
  | reference _ => .reference
  | struct _ => .struct

/-- Of each kind a call stores one content at most. -/
theorem Call.stored_unique {options : Options} {c : Call} {s s' : Nat × Content} (h : s ∈ c.stored options)
    (h' : s' ∈ c.stored options) (hrole : s.2.role = s'.2.role) : s = s' := by
  have hsingle : ∀ {t}, c.stored options = [t] → s = s' := by
    intro t ht
    rw [ht] at h h'
    exact (List.mem_singleton.1 h).trans (List.mem_singleton.1 h').symm
  cases c with
  | addScalar slot ty v default =>
    by_cases helided : Build.Elided options ty v default
    · rw [stored, if_pos helided] at h
      cases h
    · exact hsingle (if_neg helided)
  | addScalarAlways => exact hsingle rfl
  | addOffset => exact hsingle rfl
  | addStruct => exact hsingle rfl
  | addUnion typeSlot valueSlot union =>
    cases union with
    | none => cases h
    | some tag payload htag =>
      rcases List.mem_pair.1 h with rfl | rfl <;> rcases List.mem_pair.1 h' with rfl | rfl
      · rfl
      · cases hrole
      · cases hrole
      · rfl
  | _ => cases h

/-- The scalars that a call writes as the data of one vector. -/
def Call.scalars? : Call → Option ((ty : ScalarType) × List ty.Value)
  | createVector ty items => some ⟨ty, items⟩
  | createByteVector bytes | createByteVectorAligned bytes _ | createNestedBuffer bytes =>
    some ⟨.u8, bytes.map UInt8.toBitVec⟩
  | _ => none

theorem ScalarType.length_flatMap_encode (ty : ScalarType) (order : ByteOrder) (items : List ty.Value) :
    (items.flatMap (ty.encode order)).length = items.length * ty.size :=
  (Build.length_flatMap_encode (ty.length_encode order) items).trans (Nat.mul_comm ..)

/-- After the events `before` come only elements until the vector at the offset is closed. -/
def FilledAfter (events before : List Event) (vector : Nat) : Prop :=
  ∃ rest after, events = before ++ (rest ++ (.endVector, .ok (.offset vector)) :: after) ∧
    ∀ e ∈ rest, ∃ ty v, e.1 = .push ty v

theorem FilledAfter.unique {events before : List Event} {vector vector' : Nat}
    (h : FilledAfter events before vector) (h' : FilledAfter events before vector') : vector = vector' := by
  have hfirst : ∀ {rest rest' : List Event} {vector : Nat}, (∀ e ∈ rest, ∃ ty v, e.1 = .push ty v) →
      ∀ zs, rest ≠ rest' ++ (.endVector, .ok (.offset vector)) :: zs := by
    rintro _ rest' vector hrest zs rfl
    obtain ⟨ty, v, hpush⟩ := hrest _ (List.mem_append_right _ (List.mem_cons_self ..))
    cases hpush
  obtain ⟨rest, after, hevents, hrest⟩ := h
  obtain ⟨rest', after', hevents', hrest'⟩ := h'
  have he := eq_of_splits (List.append_cancel_left (hevents.symm.trans hevents')) (hfirst hrest)
    (hfirst hrest')
  exact Reply.offset.inj (Except.ok.inj (Prod.mk.inj he).2)

/-- What stands at an offset is determined by its length. -/
theorem StandsAt.eq_of_length {written xs ys : List UInt8} {offset : Nat} (h : StandsAt written offset xs)
    (h' : StandsAt written offset ys) (hlen : xs.length = ys.length) : xs = ys := by
  rw [← (standsAt_iff.1 h).2.2, ← (standsAt_iff.1 h').2.2, hlen]

/-- Of scalars that stand in a row each takes its own bytes. -/
theorem elements_apart {i j count size offset : Nat} (hi : i < count) (hj : j < count) (hne : i ≠ j)
    (hroom : count * size ≤ offset) :
    offset - i * size + size ≤ offset - j * size ∨ offset - j * size + size ≤ offset - i * size := by
  have hbehind : ∀ {i j}, j < count → i < j → i * size + size ≤ j * size ∧ j * size ≤ offset := by
    intro i j hj hlt
    rw [← Nat.succ_mul]
    exact ⟨Nat.mul_le_mul_right _ hlt, Nat.le_trans (Nat.mul_le_mul_right _ (Nat.le_of_lt hj)) hroom⟩
  rcases Nat.lt_or_gt_of_ne hne with hlt | hlt
  · have hstep := hbehind hj hlt
    omega
  · have hstep := hbehind hi hlt
    omega

/-- A scalar of a struct that no other overlaps is stored as it is on its own. -/
theorem Record.exists_take_drop_write (order : ByteOrder) {fs : List StructField} (r : Record fs)
    {bytes : List UInt8} {f : StructField} (hf : f ∈ fs)
    (hfits : ∀ g ∈ fs, g.position + g.type.size ≤ bytes.length)
    (hapart : ∀ g ∈ fs, g ≠ f → g.Apart f) :
    ∃ v, ((write order fs r bytes).drop f.position).take f.type.size = f.type.encode order v := by
  induction fs generalizing bytes with
  | nil => cases hf
  | cons g fs ih =>
    obtain ⟨v, rest⟩ := r
    obtain ⟨hfit, hfits⟩ := List.forall_mem_cons.1 hfits
    have hlen := ScalarType.length_encode order g.type v
    rw [← hlen] at hfit
    have hrest : ∀ g' ∈ fs, g'.position + g'.type.size ≤
        (splice g.position (g.type.encode order v) bytes).length := by
      rwa [length_splice hfit]
    rw [write]
    by_cases hlater : f ∈ fs
    · exact ih rest hlater hrest fun g' hg' => hapart g' (List.mem_cons_of_mem _ hg')
    · obtain rfl : f = g := (List.mem_cons.1 hf).resolve_right hlater
      refine ⟨v, ?_⟩
      rw [take_drop_write order rest hrest fun g' hg' => ?_, ← hlen, take_drop_splice hfit]
      exact (hapart g' (List.mem_cons_of_mem _ hg') fun h => hlater (h ▸ hg')).symm

namespace Builder

variable {b b' : Builder} {events before before' : List Event} {written : List UInt8} {c c' : Call}
  {p q : Placement} {item other : Item} {o o' table slot : Nat}

/-- In front of the vector stands a count greater than the index. -/
def Counts (b : Builder) (events : List Event) (vector index : Nat) : Prop :=
  ∃ count, index < count ∧ count < valueCount 4 ∧
    b.Placed events ⟨.count, 4, vector, b.order.encode 4 count⟩

/-- The item stands at the offset, all or part of what the call placed as `p` after the events `before`, and
`v` is stored for it. -/
inductive Holds (b : Builder) (events before : List Event) (written : List UInt8) (c : Call) (p : Placement) :
    (item : Item) → Nat → item.type.Value → Prop
  | scalar {table slot : Nat} {ty : ScalarType} {v : ty.Value}
    (stored : (slot, .scalar ty v) ∈ c.stored b.options) (closed : ClosedAfter events before table)
    (leads : b.SlotAt events written table slot p.offset) (role : p.role = .field)
    (bytes : p.bytes = ty.encode b.order v) :
    Holds b events before written c p (.scalar table slot ty) p.offset v
  | reference {table slot target : Nat} (stored : (slot, .reference target) ∈ c.stored b.options)
    (closed : ClosedAfter events before table) (leads : b.SlotAt events written table slot p.offset)
    (role : p.role = .reference) (pos : 0 < target) (lt : target < p.offset)
    (bytes : p.bytes = ScalarType.u32.encode b.order (BitVec.ofNat 32 (p.offset - target))) :
    Holds b events before written c p (.reference table slot) p.offset (BitVec.ofNat 32 (p.offset - target))
  | data {vector index : Nat} {ty : ScalarType} {items : List ty.Value} {v : ty.Value}
    (data : c.scalars? = some ⟨ty, items⟩) (counts : b.Counts events vector index) (role : p.role = .data)
    (behind : vector = p.offset + 4) (bytes : p.bytes = items.flatMap (ty.encode b.order))
    (mem : items[index]? = some v) :
    Holds b events before written c p (.element vector index ty) (p.offset - index * ty.size) v
  | element {vector index : Nat} {ty : ScalarType} {v : ty.Value} (push : c = .push ty v)
    (counts : b.Counts events vector index) (filled : FilledAfter events before vector)
    (role : p.role = .element) (behind : vector = p.offset + index * ty.size + 4)
    (bytes : p.bytes = ty.encode b.order v) :
    Holds b events before written c p (.element vector index ty) p.offset v
  | member {layout : StructLayout} {r : layout.Value} {f : StructField} {v : f.type.Value}
    (struct : c = .createStruct layout r) (role : p.role = .struct)
    (bytes : p.bytes = layout.encode b.order r)
    (mem : f ∈ layout.fields) (apart : ∀ g ∈ layout.fields, g ≠ f → g.Apart f)
    (window : (p.bytes.drop f.position).take f.type.size = f.type.encode b.order v) :
    Holds b events before written c p (.member p.offset f) (p.offset - f.position) v

section

variable {v : item.type.Value} {v' : other.type.Value}

theorem Holds.role (h : b.Holds events before written c p item o v) : p.role.holdsItems = true := by
  cases h <;> simp only [*, Role.holdsItems]

/-- The item lies inside what was placed, and its bytes are those of the scalar. -/
theorem Holds.inside (h : b.Holds events before written c p item o v)
    (hstands : StandsAt written p.offset p.bytes) :
    o ≤ p.offset ∧ p.offset + item.type.size ≤ o + p.bytes.length ∧
      StandsAt written o (item.type.encode b.order v) := by
  have hlen := hstands.length_le
  cases h with
  | scalar stored closed leads role bytes | reference stored closed leads role pos lt bytes
  | element push counts filled role behind bytes =>
    rw [bytes] at hstands ⊢
    rw [ScalarType.length_encode]
    exact ⟨Nat.le_refl _, Nat.le_refl _, hstands⟩
  | data data counts role behind bytes mem =>
    rename_i vector index ty items v
    obtain ⟨hindex, -⟩ := List.getElem?_eq_some_iff.1 mem
    have hroom : (index + 1) * ty.size ≤ items.length * ty.size := Nat.mul_le_mul_right _ hindex
    rw [Nat.succ_mul] at hroom
    rw [bytes] at hstands hlen ⊢
    rw [ty.length_flatMap_encode] at hlen ⊢
    refine ⟨Nat.sub_le .., ?_, hstands.item (ty.length_encode b.order) mem⟩
    show p.offset + ty.size ≤ p.offset - index * ty.size + items.length * ty.size
    omega
  | member struct role bytes mem apart window =>
    rename_i layout r f v
    have hfits := layout.fits f mem
    rw [← layout.length_encode b.order r, ← bytes] at hfits
    have hwindow := hstands.window hfits
    rw [window] at hwindow
    refine ⟨Nat.sub_le .., ?_, hwindow⟩
    show p.offset + f.type.size ≤ p.offset - f.position + p.bytes.length
    omega

end

section Apart

variable (hb : b.Fresh) (hrun : b.Runs events b') (hreset : ∀ e ∈ events, e.1 ≠ .reset)

include hrun hreset

/-- Different items in one placement lie apart. -/
theorem Holds.apart_in {v : item.type.Value} {v' : other.type.Value}
    (h : b.Holds events before written c p item o v) (h' : b.Holds events before written c p other o' v')
    (hstands : StandsAt written p.offset p.bytes) (hne : item ≠ other) :
    o + other.type.size ≤ o' ∨ o' + item.type.size ≤ o := by
  have hrole : ∀ {r r' : Role}, p.role = r → p.role = r' → r = r' := fun h h' => h.symm.trans h'
  have hlen := hstands.length_le
  cases h with
  | scalar stored closed leads role bytes =>
    cases h' with
    | scalar stored' closed' leads' role' bytes' =>
      obtain rfl := hrun.closedAfter_unique hreset closed closed'
      cases Call.stored_unique stored stored' rfl
      exact absurd rfl hne
    | reference _ _ _ role' | data _ _ role' | element _ _ _ role' | member _ role' => cases hrole role role'
  | reference stored closed leads role pos lt bytes =>
    cases h' with
    | reference stored' closed' leads' role' pos' lt' bytes' =>
      obtain rfl := hrun.closedAfter_unique hreset closed closed'
      cases Call.stored_unique stored stored' rfl
      exact absurd rfl hne
    | scalar _ _ _ role' | data _ _ role' | element _ _ _ role' | member _ role' => cases hrole role role'
  | data data counts role behind bytes mem =>
    cases h' with
    | data data' counts' role' behind' bytes' mem' =>
      obtain rfl := behind.trans behind'.symm
      cases data.symm.trans data'
      rename_i vector index ty items v index' v'
      rw [bytes, ty.length_flatMap_encode] at hlen
      obtain ⟨hindex, -⟩ := List.getElem?_eq_some_iff.1 mem
      obtain ⟨hindex', -⟩ := List.getElem?_eq_some_iff.1 mem'
      exact elements_apart hindex hindex' (fun h => hne (h ▸ rfl)) hlen
    | scalar _ _ _ role' | reference _ _ _ role' | element _ _ _ role' | member _ role' =>
      cases hrole role role'
  | element push counts filled role behind bytes =>
    cases h' with
    | element push' counts' filled' role' behind' bytes' =>
      obtain rfl := filled.unique filled'
      cases push.symm.trans push'
      rename_i vector index ty v index'
      have hmul : index * ty.size = index' * ty.size := by omega
      cases Nat.eq_of_mul_eq_mul_right ty.size_pos hmul
      exact absurd rfl hne
    | scalar _ _ _ role' | reference _ _ _ role' | data _ _ role' | member _ role' => cases hrole role role'
  | member struct role bytes mem apart window =>
    cases h' with
    | member struct' role' bytes' mem' apart' window' =>
      cases struct.symm.trans struct'
      rename_i layout r f v f' v'
      have hfield : f ≠ f' := fun h => hne (h ▸ rfl)
      have hfits := layout.fits f mem
      have hfits' := layout.fits f' mem'
      rw [bytes, StructLayout.length_encode] at hlen
      show p.offset - f.position + f'.type.size ≤ p.offset - f'.position ∨
        p.offset - f'.position + f.type.size ≤ p.offset - f.position
      rcases apart' f mem hfield with hbefore | hbefore <;> omega
    | scalar _ _ _ role' | reference _ _ _ role' | data _ _ role' | element _ _ _ role' =>
      cases hrole role role'

include hb

/-- Different items share no byte. -/
theorem Holds.apart {v : item.type.Value} {v' : other.type.Value}
    (h : b.Holds events before b'.arena.written c p item o v)
    (h' : b.Holds events before' b'.arena.written c' q other o' v')
    (hplaced : b.PlacedBy events before c p) (hplaced' : b.PlacedBy events before' c' q)
    (hne : item ≠ other) :
    o + other.type.size ≤ o' ∨ o' + item.type.size ≤ o := by
  have hp : b.Placed events p := ⟨before, c, hplaced⟩
  have hq : b.Placed events q := ⟨before', c', hplaced'⟩
  have hstands := hp.stands hb hreset hrun
  obtain ⟨hle, hroom, -⟩ := h.inside hstands
  obtain ⟨hle', hroom', -⟩ := h'.inside (hq.stands hb hreset hrun)
  have hsize := item.type.size_pos
  by_cases hpq : p = q
  · subst hpq
    obtain ⟨rfl, rfl⟩ := hplaced.unique hb hreset hplaced' (by omega)
    exact h.apart_in hrun hreset h' hstands hne
  · rcases hp.apart hb hreset hq hpq with hfront | hfront <;> omega

end Apart

end Builder

end TableBuffer
