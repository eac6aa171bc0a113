import TableBuffer.Builder.Union
import TableBuffer.Proofs.Distance
import TableBuffer.Proofs.Steps

/-!
# How fields are added

A call that adds a field to the open table checks its slot, puts the field's bytes in front and
records where they stand. A union is two fields: its value is recorded before its tag is written, and
only a full buffer can come between them.
-/

namespace TableBuffer

/-- What a field of a table holds. -/
inductive Content
  | scalar (ty : ScalarType) (v : ty.Value)
  | reference (target : Nat)
  | struct (offset : Nat)

/-- The content stands at an offset. A struct is there already when it is added. -/
def Content.At (order : ByteOrder) (written : List UInt8) (offset : Nat) : Content → Prop
  | scalar ty v => StandsAt written offset (ty.encode order v)
  | reference target => ReferenceAt order written offset target
  | struct o => o = offset

theorem Content.At.mono {order : ByteOrder} {written written' : List UInt8} {offset : Nat}
    {content : Content} (h : content.At order written offset) (hw : written <:+ written') :
    content.At order written' offset := by
  cases content with
  | scalar ty v => exact StandsAt.mono h hw
  | reference target => exact ReferenceAt.mono h hw
  | struct o => exact h

/-- A slot that is declared and has no field yet. -/
structure OpenObject.Takes (o : OpenObject) (slot : Nat) : Prop where
  declared : slot < o.slots
  free : ∀ f ∈ o.fields, f.slot ≠ slot

namespace Builder

/-- What was written last becomes a field of the open table. -/
def store (b : Builder) (o : OpenObject) (slot size : Nat) : Builder :=
  { b with stage := .object { o with fields := ⟨slot, b.offset, size⟩ :: o.fields } }

/-- Bytes were put in front and recorded as the field in a slot. -/
structure Stores (b : Builder) (o : OpenObject) (slot size : Nat) (bytes : List UInt8) (b' : Builder) :
    Prop where
  stage : b.stage = .object o
  takes : o.Takes slot
  puts : ∃ b1, b.Puts bytes b1 ∧ b' = b1.store o slot size

/-- What is put in front stands at the front. -/
theorem Puts.stands {b b' : Builder} {bytes rest : List UInt8} (h : b.Puts (bytes ++ rest) b') :
    StandsAt b'.arena.written b'.offset bytes := by
  have hwritten := h.written
  rw [List.append_assoc] at hwritten
  exact StandsAt.front hwritten

/-- It stands in front of all that was there. -/
theorem Puts.in_front {b b' : Builder} {bytes rest : List UInt8} (h : b.Puts (bytes ++ rest) b') :
    b.offset + bytes.length ≤ b'.offset := by
  have hlen := h.offset
  rw [List.length_append] at hlen
  omega

theorem Stores.stands {b b' : Builder} {o : OpenObject} {slot size : Nat} {bytes rest : List UInt8}
    (h : b.Stores o slot size (bytes ++ rest) b') : StandsAt b'.arena.written b'.offset bytes := by
  obtain ⟨b1, h1, rfl⟩ := h.puts
  exact h1.stands

theorem Stores.in_front {b b' : Builder} {o : OpenObject} {slot size : Nat} {bytes rest : List UInt8}
    (h : b.Stores o slot size (bytes ++ rest) b') : b.offset + bytes.length ≤ b'.offset := by
  obtain ⟨b1, h1, rfl⟩ := h.puts
  exact h1.in_front

theorem Stores.stage_eq {b b' : Builder} {o : OpenObject} {slot size : Nat} {bytes : List UInt8}
    (h : b.Stores o slot size bytes b') :
    b'.stage = .object { o with fields := ⟨slot, b'.offset, size⟩ :: o.fields } := by
  obtain ⟨b1, -, rfl⟩ := h.puts
  rfl

theorem Stores.keeps {b b' : Builder} {o : OpenObject} {slot size : Nat} {bytes : List UInt8}
    (h : b.Stores o slot size bytes b') : b.Keeps b' := by
  obtain ⟨b1, h1, rfl⟩ := h.puts
  exact h1.keeps.setStage _

/-- One field was added to the open table `o`. -/
structure Adds (b : Builder) (o : OpenObject) (slot size : Nat) (content : Content) (b' : Builder) :
    Prop where
  stage : b.stage = .object o
  takes : o.Takes slot
  added : b'.stage = .object { o with fields := ⟨slot, b'.offset, size⟩ :: o.fields }
  size_le : b.structSize ≤ b.offset → size ≤ b'.offset
  keeps : b.Keeps b'
  content : o.start ≤ b.offset → content.At b'.order b'.arena.written b'.offset

theorem Stores.adds_scalar {b b' : Builder} {o : OpenObject} {slot : Nat} {ty : ScalarType}
    {v : ty.Value} {rest : List UInt8}
    (h : b.Stores o slot ty.size (ty.encode b.order v ++ rest) b') :
    b.Adds o slot ty.size (.scalar ty v) b' where
  stage := h.stage
  takes := h.takes
  added := h.stage_eq
  size_le _ := by
    have hlen := h.stands.length_le
    rwa [ScalarType.length_encode] at hlen
  keeps := h.keeps
  content _ := by
    have hstands := h.stands
    rw [← h.keeps.order] at hstands
    exact hstands

theorem Stores.adds_reference {b b' : Builder} {o : OpenObject} {slot target : Nat} {rest : List UInt8}
    (hle : target ≤ o.start)
    (h : b.Stores o slot 4 (b.order.encode 4 (b'.offset - 4 - target + 4) ++ rest) b') :
    b.Adds o slot 4 (.reference target) b' where
  stage := h.stage
  takes := h.takes
  added := h.stage_eq
  size_le _ := by
    have hlen := h.stands.length_le
    rwa [ByteOrder.length_encode] at hlen
  keeps := h.keeps
  content hstart := by
    have hstands := h.stands
    have hgrow : b.offset + 4 ≤ b'.offset := by
      have hfront := h.in_front
      rwa [ByteOrder.length_encode] at hfront
    have hword : b'.offset - 4 - target + 4 = b'.offset - target := by omega
    rw [hword, ← h.keeps.order] at hstands
    exact ⟨by omega, hstands⟩

/-- There is no room for another byte. -/
def Full (b : Builder) : Prop := b.arena.limit ≤ b.offset

end Builder

namespace Build

variable (b : Builder)

theorem startObject_ends (slots : Nat) :
    Ends (startObject slots) b
      (fun _ b' => b.stage = .idle ∧ slots ≤ VTable.maxSlots ∧
        b' = { b with stage := .object ⟨b.offset, slots, []⟩ })
      (fun _ b' => b' = b) := by
  unfold startObject
  rw [ends_bind]
  refine (requireIdle_ends b _).mono ?_ fun _ _ h => h.1
  intro _ b h
  obtain ⟨rfl, hidle⟩ := h
  dsimp only
  rw [ends_ite, ends_bind, ends_reject, ends_bind, ends_offset, ends_setStage]
  exact ⟨fun _ => rfl, fun h => ⟨hidle, Nat.le_of_not_lt h, rfl⟩⟩

theorem requireFree_ends (op : Operation) (o : OpenObject) (slot : Nat) :
    Ends (requireFree op o slot) b (fun _ b' => b' = b ∧ o.Takes slot)
      (fun _ b' => b' = b ∧ ¬ o.Takes slot) := by
  unfold requireFree
  dsimp only
  rw [ends_ite, ends_bind, ends_reject, ends_ite, ends_misuse, List.any_eq_true]
  refine ⟨fun h => ⟨rfl, fun ht => ?_⟩, fun h => ⟨?_, fun hn => ⟨rfl, ?_⟩⟩⟩
  · exact absurd ht.declared (Nat.not_lt.2 h)
  · rintro ⟨f, hf, hs⟩
    exact ⟨rfl, fun ht => ht.free f hf (beq_iff_eq.1 hs)⟩
  · exact ⟨Nat.lt_of_not_le h, fun f hf hs => hn ⟨f, hf, beq_iff_eq.2 hs⟩⟩

theorem openSlot_ends (op : Operation) (slot : Nat) :
    Ends (openSlot op slot) b (fun o b' => b' = b ∧ b.stage = .object o ∧ o.Takes slot)
      (fun _ b' => b' = b ∧ ∀ o, b.stage = .object o → ¬ o.Takes slot) := by
  unfold openSlot
  rw [ends_bind]
  apply (openObject_ends b op).mono
  · intro o b h
    obtain ⟨rfl, ho⟩ := h
    rw [ends_bind]
    apply (requireFree_ends _ op o slot).mono
    · intro _ b h
      obtain ⟨rfl, ht⟩ := h
      exact ⟨rfl, ho, ht⟩
    · intro f b h
      obtain ⟨rfl, ht⟩ := h
      refine ⟨rfl, fun o' ho' => ?_⟩
      obtain rfl : o = o' := by rw [ho] at ho'; injection ho'
      exact ht
  · intro f b h
    obtain ⟨rfl, hn⟩ := h
    exact ⟨rfl, fun o ho => absurd ho (hn o)⟩

/-- A scalar that is to be stored comes to stand in its slot. -/
theorem store_push_ends {o : OpenObject} {slot : Nat} (ho : b.stage = .object o) (ht : o.Takes slot)
    (ty : ScalarType) (v : ty.Value) :
    Ends (do let _ ← push ty v; storeField o slot ty.size) b
      (fun _ b' => b.Stores o slot ty.size
        (ty.encode b.order v ++ zeros (padding b.offset ty.size)) b' ∧ b'.Rests ty.size b'.offset)
      (fun f b' => b.Puts [] b' ∧ f.isConstruction = false ∧
        b.NoRoom (padding b.offset ty.size + ty.size) f) := by
  have hb : b.isFinished = false := by rw [Builder.isFinished, ho]; rfl
  rw [ends_bind]
  apply (push_ends b ty v).mono
  · intro _ b1 h
    obtain ⟨h1, -, -, hrests⟩ := h
    exact ⟨⟨ho, ht, b1, h1, rfl⟩, hrests.mono (Nat.le_refl _)⟩
  · intro f b1 h
    obtain ⟨h1, hc, hl⟩ := h
    exact ⟨h1, Builder.not_construction hc hb, hl hb⟩

theorem addScalarAlways_ends (slot : Nat) (ty : ScalarType) (v : ty.Value) :
    Ends (addScalarAlways slot ty v) b
      (fun _ b' => ∃ o, b.Stores o slot ty.size
        (ty.encode b.order v ++ zeros (padding b.offset ty.size)) b' ∧ b'.Rests ty.size b'.offset)
      (fun f b' => b.Puts [] b' ∧ ∀ o, b.stage = .object o → o.Takes slot →
        f.isConstruction = false ∧ b.NoRoom (padding b.offset ty.size + ty.size) f) := by
  unfold addScalarAlways
  rw [ends_bind]
  apply (openSlot_ends b _ slot).mono
  · intro o b h
    obtain ⟨rfl, ho, ht⟩ := h
    refine (store_push_ends b ho ht ty v).mono (fun _ _ h => ⟨o, h⟩) ?_
    intro f b' h
    obtain ⟨h, hf⟩ := h
    exact ⟨h, fun _ _ _ => hf⟩
  · intro f b h
    obtain ⟨rfl, hn⟩ := h
    exact ⟨.refl _, fun o ho ht => absurd ht (hn o ho)⟩

/-- Whether a scalar is left out because it equals its default. -/
def Elided (options : Options) (ty : ScalarType) (v default : ty.Value) : Prop :=
  ty.equal v default = true ∧ options.forceDefaults = false

instance (options : Options) (ty : ScalarType) (v default : ty.Value) :
    Decidable (Elided options ty v default) := inferInstanceAs (Decidable (_ ∧ _))

/-- A scalar equal to its default leaves no trace; any other comes to stand in its slot. -/
theorem addScalar_ends (slot : Nat) (ty : ScalarType) (v default : ty.Value) :
    Ends (addScalar slot ty v default) b
      (fun _ b' => ∃ o, b.stage = .object o ∧ o.Takes slot ∧
        if Elided b.options ty v default then b' = b
        else b.Stores o slot ty.size (ty.encode b.order v ++ zeros (padding b.offset ty.size)) b' ∧
          b'.Rests ty.size b'.offset)
      (fun _ b' => b.Puts [] b') := by
  unfold addScalar
  rw [ends_bind]
  apply (openSlot_ends b _ slot).mono
  · intro o b h
    obtain ⟨rfl, ho, ht⟩ := h
    rw [ends_bind, ends_get, ends_ite]
    refine ⟨fun hc => ⟨o, ho, ht, ?_⟩, fun hc => ?_⟩
    · rw [if_pos (by simpa [Elided] using hc)]
    · refine (store_push_ends b ho ht ty v).mono (fun _ b' h => ⟨o, ho, ht, ?_⟩) fun f b' h => h.1
      rwa [if_neg (by simpa [Elided] using hc)]
  · intro f b h
    obtain ⟨rfl, -⟩ := h
    exact .refl _

/-- A reference comes to stand in its slot. Its target was written before the table was opened. -/
theorem addOffset_ends {kind : OffsetKind} (slot : Nat) (target : Offset kind) :
    Ends (addOffset slot target) b
      (fun _ b' => ∃ o, 0 < target.value ∧ target.value ≤ o.start ∧ b.Stores o slot 4
        (b.order.encode 4 (b'.offset - 4 - target.value + 4) ++ zeros (padding b.offset 4)) b' ∧
        b'.Rests 4 b'.offset)
      (fun _ b' => b.Puts [] b') := by
  unfold addOffset
  rw [ends_bind]
  apply (openSlot_ends b _ slot).mono
  · intro o b h
    obtain ⟨rfl, ho, ht⟩ := h
    rw [ends_bind]
    apply (requireWritten_ends b _ _ _).mono
    · intro _ b h
      obtain ⟨rfl, hpos, hle⟩ := h
      rw [ends_bind]
      refine (pushReference_ends b target.value).mono ?_ fun f b' h => h.1
      intro _ b1 h
      obtain ⟨h1, -, hrests, -⟩ := h
      exact ⟨o, hpos, hle, ⟨ho, ht, b1, h1, rfl⟩, hrests.mono (Nat.le_refl _)⟩
    · rintro f b rfl
      exact .refl _
  · intro f b h
    obtain ⟨rfl, -⟩ := h
    exact .refl _

/-- A struct comes to stand in front, and its size is kept in mind. -/
theorem createStruct_ends (layout : StructLayout) (v : layout.Value) :
    Ends (createStruct layout v) b
      (fun o b' => o.value = b'.offset ∧ b'.Rests layout.align b'.offset ∧
        ∃ k b1, b.Puts (layout.encode b.order v ++ zeros k) b1 ∧
          b' = { b1 with structSize := layout.size })
      (fun f b' => b.Puts [] b' ∧ (f.isConstruction = true → b.isFinished = true)) := by
  unfold createStruct
  rw [ends_bind]
  refine (prep_ends b layout.align layout.size).mono ?_ fun f b' h => ⟨h.1, h.2.1⟩
  intro _ b1 h
  obtain ⟨h1, -, hroom, -, hrests⟩ := h
  rw [ends_bind, ends_get, ends_bind]
  refine (put_ends_of_room b1 (by rw [StructLayout.length_encode]; omega)).mono ?_
    fun _ _ h => h.elim
  intro _ b2 h
  obtain ⟨h2, -⟩ := h
  rw [← layout.length_encode b1.order v] at hrests
  have hrests2 := hrests.put h2
  rw [h1.order] at h2
  exact ⟨rfl, hrests2.mono (Nat.le_refl _), _, b2, h1.trans h2, rfl⟩

/-- The struct that stands at the front becomes a field without a byte being written. -/
theorem addStruct_ends (slot : Nat) (struct : Offset .struct) :
    Ends (addStruct slot struct) b
      (fun _ b' => ∃ o, struct.value = b.offset ∧ o.start < b.offset ∧
        b.Stores o slot b.structSize [] b')
      (fun _ b' => b' = b) := by
  unfold addStruct
  rw [ends_bind]
  apply (openSlot_ends b _ slot).mono
  · intro o b h
    obtain ⟨rfl, ho, ht⟩ := h
    rw [ends_bind, ends_offset]
    dsimp only
    rw [ends_ite, ends_bind, ends_misuse, ends_bind, ends_get]
    refine ⟨fun _ => rfl, fun hn => ?_⟩
    have hs : struct.value = b.offset := Decidable.not_not.1 (not_or.1 hn).1
    have hlt : ¬ struct.value ≤ o.start := (not_or.1 hn).2
    exact ⟨o, hs, by omega, ho, ht, b, .refl _, rfl⟩
  · intro f b h
    obtain ⟨rfl, -⟩ := h
    rfl

theorem padding_one (n : Nat) : padding n 1 = 0 := by rw [padding, Nat.mod_one]

/-- Both halves come to stand in their slots, the value first. A failure that leaves the value behind
without its tag leaves no room either. -/
theorem addUnion_ends (typeSlot valueSlot : Nat) (union : UnionOffset) :
    Ends (addUnion typeSlot valueSlot union) b
      (fun _ b' => match union with
        | .none => b' = b
        | .some tag payload _ => ∃ o b1, typeSlot ≠ valueSlot ∧ o.Takes typeSlot ∧
          0 < payload.value ∧ payload.value ≤ o.start ∧
          b.Stores o valueSlot 4 (b.order.encode 4 (b1.offset - 4 - payload.value + 4) ++
            zeros (padding b.offset 4)) b1 ∧
          b1.Stores { o with fields := ⟨valueSlot, b1.offset, 4⟩ :: o.fields } typeSlot 1
            (ScalarType.u8.encode b.order (BitVec.ofNat 8 tag.toNat)) b' ∧
          b'.Rests 4 b1.offset ∧ b'.Rests 1 b'.offset)
      (fun f b' => b.Puts [] b' ∨ b.Keeps b' ∧ (∃ o field, b.stage = .object o ∧
        b'.stage = .object { o with fields := field :: o.fields }) ∧
        f.isConstruction = false ∧ (f ≠ .fault → b'.Full)) := by
  unfold addUnion
  dsimp only
  rw [ends_ite, ends_bind, ends_reject, ends_bind]
  refine ⟨fun _ => Or.inl (.refl _), fun hne => ?_⟩
  refine (openSlot_ends b _ typeSlot).mono ?_ fun _ _ h => Or.inl (h.1 ▸ .refl _)
  intro o b h
  obtain ⟨rfl, ho, htype⟩ := h
  rw [ends_bind]
  refine (openSlot_ends b _ valueSlot).mono ?_ fun _ _ h => Or.inl (h.1 ▸ .refl _)
  intro o' b h
  obtain ⟨rfl, ho', -⟩ := h
  cases union with
  | none => rfl
  | some tag payload htag =>
    dsimp only
    rw [ends_bind]
    refine (addOffset_ends b valueSlot payload).mono ?_ fun _ _ h => Or.inl h
    intro _ b1 h
    obtain ⟨o2, hpos, hle, hvalue, hrests⟩ := h
    obtain rfl : o = o2 := Stage.object.inj (ho.symm.trans hvalue.stage)
    have htype' : OpenObject.Takes { o with fields := ⟨valueSlot, b1.offset, 4⟩ :: o.fields } typeSlot := by
      refine ⟨htype.declared, fun f hf => ?_⟩
      rcases List.mem_cons.1 hf with rfl | hf
      · exact hne
      · exact htype.free f hf
    -- The value is stored by now; without room for the tag it stays, and the builder is full.
    apply (addScalarAlways_ends b1 typeSlot .u8 _).mono
    · intro _ b2 h
      obtain ⟨o2, htag, hrests2⟩ := h
      obtain rfl := Stage.object.inj (hvalue.stage_eq.symm.trans htag.stage)
      rw [padding_one, hvalue.keeps.order, zeros, List.replicate_zero, List.append_nil] at htag
      exact ⟨o, b1, fun h => hne h.symm, htype, hpos, hle, hvalue, htag,
        hrests.mono htag.keeps.minAlign.le, hrests2⟩
    · intro f b2 h
      obtain ⟨h2, hf⟩ := h
      obtain ⟨hc, hl⟩ := hf _ hvalue.stage_eq htype'
      refine Or.inr ⟨hvalue.keeps.trans h2.keeps, ⟨o, _, ho, h2.stage.trans hvalue.stage_eq⟩, hc,
        fun hfault => ?_⟩
      have hroom := hl.1 hfault
      rw [padding_one] at hroom
      change b1.arena.limit < b1.offset + (0 + 1) at hroom
      rw [Builder.Full, h2.limit, h2.offset]
      exact Nat.le_trans (Nat.le_of_lt_succ hroom) (Nat.le_add_left ..)

end Build

end TableBuffer
