import TableBuffer.Builder.Vector
import TableBuffer.Proofs.Steps

/-!
# How vectors and strings are written

A vector written at once is its count, its elements and some padding, put in front of what was there.
The four calls that write one share `fill_ends`; they differ in what they fill it with. A call that
fails may leave padding or elements behind, but then it failed for want of room or for a bad argument,
not because calls came out of order.
-/

namespace TableBuffer

namespace Builder

/-- What a failed call leaves behind: all that was written, and nothing new if calls came out of order. -/
structure Leaves (b : Builder) (f : Failure) (b' : Builder) : Prop where
  keeps : b.Keeps b'
  quiet : f.isConstruction = true → b'.arena.written = b.arena.written

/-- A failed call that leaves an open table as it was and opens none, and no vector either. -/
structure Fails (b : Builder) (f : Failure) (b' : Builder) : Prop extends Leaves b f b' where
  object : ∀ o, b'.stage = .object o ↔ b.stage = .object o
  vector : ∀ v, b'.stage = .vector v → b.stage = .vector v

theorem Puts.fails {b b' : Builder} (h : b.Puts [] b') (f : Failure) : b.Fails f b' where
  keeps := h.keeps
  quiet _ := h.written
  object o := by rw [h.stage]
  vector v hv := h.stage.symm.trans hv

theorem Fails.refl (b : Builder) (f : Failure) : b.Fails f b := (Puts.refl b).fails f

/-- A failure that is no matter of order. -/
theorem Keeps.leaves {b b' : Builder} {f : Failure} (h : b.Keeps b') (hf : f.isConstruction = false) :
    b.Leaves f b' where
  keeps := h
  quiet hc := by rw [hf] at hc; cases hc

/-- A failure that is no matter of order, in a call that found nothing under construction. -/
theorem Keeps.fails {b b' : Builder} {f : Failure} (h : b.Keeps b') (hf : f.isConstruction = false)
    (hb : b.stage = .idle) (hb' : b'.stage = .idle) : b.Fails f b' where
  toLeaves := h.leaves hf
  object o := by rw [hb, hb']
  vector v hv := by
    rw [hb'] at hv
    cases hv

theorem not_object_of_idle {b : Builder} (h : b.stage = .idle) (o : OpenObject) : b.stage ≠ .object o := by
  rw [h]
  exact Stage.noConfusion

theorem isFinished_of_idle {b : Builder} (h : b.stage = .idle) : b.isFinished = false := by
  rw [isFinished, h]
  rfl

end Builder

namespace Build

variable (b : Builder)

theorem startVector_ends (elementSize count alignment : Nat) :
    Ends (startVector elementSize count alignment) b
      (fun _ b' => b.stage = .idle ∧ b'.Rests 4 (b'.offset + elementSize * count) ∧
        b'.Rests alignment (b'.offset + elementSize * count) ∧ ∃ k b1, b.Puts (zeros k) b1 ∧
          elementSize * count ≤ b1.arena.headroom ∧
          b' = { b1 with stage := .vector ⟨count, b1.offset, elementSize * count⟩ })
      (fun f b' => b.Fails f b') := by
  unfold startVector
  rw [ends_bind]
  apply (requireIdle_ends b _).mono
  · intro _ b h
    obtain ⟨rfl, hidle⟩ := h
    have hfin := Builder.isFinished_of_idle hidle
    dsimp only
    rw [ends_ite, ends_bind, ends_reject]
    refine ⟨fun _ => .refl _ _, fun _ => ?_⟩
    rw [ends_bind]
    refine (prep_ends b 4 (elementSize * count)).mono ?_ fun f b' h => h.1.fails f
    intro _ b1 h
    obtain ⟨h1, -, -, -, hcount⟩ := h
    rw [ends_bind]
    apply (prep_ends b1 alignment (elementSize * count)).mono
    · intro _ b2 h
      obtain ⟨h2, -, hroom, -, hdata⟩ := h
      have h12 := h1.trans h2
      rw [List.replicate_append_replicate] at h12
      have hcount2 := hcount.of_padded hdata h2
      exact ⟨hidle, hcount2.mono (Nat.le_refl _), hdata.mono (Nat.le_refl _), _, b2, h12, by omega, rfl⟩
    · intro f b2 h
      obtain ⟨h2, hc, -⟩ := h
      have hfin1 : b1.isFinished = false := h1.isFinished.trans hfin
      have hidle2 : b2.stage = .idle := (h1.trans h2).stage.trans hidle
      exact (h1.keeps.trans h2.keeps).fails (Builder.not_construction hc hfin1) hidle hidle2
  · intro f b h
    obtain ⟨rfl, -⟩ := h
    exact .refl _ _

theorem endVector_ends :
    Ends endVector b
      (fun o b' => ∃ v, b.stage = .vector v ∧ b.offset - v.start = v.dataLength ∧
        o.value = b'.offset ∧
        Builder.Puts { b with stage := .idle } (b.order.encode 4 v.count) b')
      (fun f b' => b.Fails f b' ∧ ∀ v, b.stage = .vector v → b'.stage = .idle ∧
        (b.offset - v.start = v.dataLength → f.isConstruction = false)) := by
  unfold endVector takeVector
  rw [ends_bind, ends_bind]
  apply (requireUnfinished_ends b).mono
  · intro _ b h
    obtain ⟨rfl, -⟩ := h
    rw [ends_bind, ends_get]
    cases hs : b.stage with
    | vector v =>
      let closed : Builder := { b with stage := .idle }
      have hclosed : b.Keeps closed := (Builder.Keeps.refl b).setStage .idle
      have hquiet (f : Failure) : b.Leaves f closed := ⟨hclosed, fun _ => rfl⟩
      have hno : ∀ o, closed.stage = .object o ↔ b.stage = .object o := by
        intro o
        rw [hs]
        exact ⟨Stage.noConfusion, Stage.noConfusion⟩
      dsimp only
      rw [ends_bind, ends_setStage, ends_pure, ends_bind, ends_offset]
      rw [ends_ite, ends_bind, ends_misuse, ends_bind]
      refine ⟨fun hsize => ⟨⟨hquiet _, hno, nofun⟩, ?_⟩, fun hsize => ?_⟩
      · intro v' hv
        obtain rfl := Stage.vector.inj hv
        exact ⟨rfl, fun hsize' => absurd hsize' hsize⟩
      · apply (reserve_ends closed 4).mono
        · intro _ b1 h
          obtain ⟨h1, hroom, -⟩ := h
          unfold putWord
          rw [ends_bind, ends_bind, ends_get]
          refine (put_ends_of_room b1 (by simpa using hroom)).mono ?_ fun _ _ h => h.elim
          intro _ b2 h
          obtain ⟨h2, -⟩ := h
          rw [h1.order] at h2
          have h12 := h1.trans h2
          rw [List.append_nil] at h12
          exact ⟨v, rfl, Decidable.not_not.1 hsize, rfl, h12⟩
        · intro f b1 h
          obtain ⟨rfl, hf, -⟩ := h
          exact ⟨⟨hquiet f, hno, nofun⟩, fun _ _ => ⟨rfl, fun _ => hf⟩⟩
    | idle => exact ⟨.refl _ _, fun _ h => Stage.noConfusion h⟩
    | object o => exact ⟨.refl _ _, fun _ h => Stage.noConfusion h⟩
    | finished => exact ⟨.refl _ _, fun _ h => Stage.noConfusion h⟩
  · intro f b h
    obtain ⟨rfl, hfin, -⟩ := h
    refine ⟨.refl _ _, fun v hv => ?_⟩
    rw [Builder.isFinished, hv] at hfin
    cases hfin

/-- A vector is opened, filled and closed. Filling it must put the announced number of bytes in the
room that was made, as a function of what was written before them. -/
theorem fill_ends {elementSize count alignment : Nat} {fill : Build Unit} (bytes : Nat → List UInt8)
    (hlen : ∀ start, (bytes start).length = elementSize * count)
    (hfill : ∀ c : Builder, c.order = b.order → elementSize * count ≤ c.arena.headroom →
      Ends fill c (fun _ c' => c.Puts (bytes c.offset) c') (fun _ _ => False)) :
    Ends (do startVector elementSize count alignment; fill; endVector) b
      (fun o b' => b.stage = .idle ∧ o.value = b'.offset ∧
        (b'.Rests 4 (o.value - 4) ∧ b'.Rests alignment (o.value - 4)) ∧
        ∃ k, b.Puts (b.order.encode 4 count ++ bytes (k + b.offset) ++ zeros k) b')
      (fun f b' => b.Fails f b') := by
  rw [ends_bind]
  refine (startVector_ends b elementSize count alignment).mono ?_ fun f b' h => h
  intro _ b1 h
  obtain ⟨hidle, hcount, hdata, k, b0, h0, hroom, rfl⟩ := h
  rw [ends_bind]
  let v : OpenVector := ⟨count, b0.offset, elementSize * count⟩
  let opened : Builder := { b0 with stage := .vector v }
  have hopened : b.Keeps opened := h0.keeps.setStage _
  have hk : b0.offset = k + b.offset := by simpa using h0.offset
  refine (hfill opened h0.order hroom).mono ?_ fun _ _ h => h.elim
  intro _ b2 h2
  have hsize : b2.offset - v.start = v.dataLength := by
    rw [h2.offset, hlen]
    show elementSize * count + b0.offset - b0.offset = elementSize * count
    omega
  apply (endVector_ends b2).mono
  · intro o b3 h
    obtain ⟨v', hv, -, ho, h3⟩ := h
    obtain rfl : v = v' := Stage.vector.inj (h2.stage.symm.trans hv)
    have hfilled : opened.offset + elementSize * count = o.value - 4 := by
      rw [ho, h3.offset, ByteOrder.length_encode, ← hlen b0.offset, Nat.add_comm]
      exact h2.offset.symm.trans (Nat.add_sub_cancel_left ..).symm
    have hmin : opened.minAlign ≤ b3.minAlign := Nat.le_trans h2.minAlign.le h3.minAlign.le
    refine ⟨hidle, ho, hfilled ▸ ⟨hcount.mono hmin, hdata.mono hmin⟩, k, ?_⟩
    have horder : b2.order = b.order := h2.order.trans h0.order
    have hclosed : Builder.Puts b0 (bytes b0.offset) { b2 with stage := .idle } :=
      { h2 with stage := hidle.symm.trans h0.stage.symm }
    rw [← hk, List.append_assoc, ← horder]
    exact (h0.trans hclosed).trans h3
  · intro f b3 h
    obtain ⟨h3, hf⟩ := h
    obtain ⟨hidle3, hother⟩ := hf v h2.stage
    exact ((hopened.trans h2.keeps).trans h3.keeps).fails (hother hsize) hidle hidle3

/-- Bytes of the announced length are put in front at once. -/
theorem fill_put_ends {elementSize count alignment : Nat} (bytes : ByteOrder → List UInt8)
    (hlen : ∀ order, (bytes order).length = elementSize * count) :
    Ends (do
        startVector elementSize count alignment
        let order := (← get).order
        put (bytes order)
        endVector) b
      (fun o b' => b.stage = .idle ∧ o.value = b'.offset ∧
        (b'.Rests 4 (o.value - 4) ∧ b'.Rests alignment (o.value - 4)) ∧
        ∃ k, b.Puts (b.order.encode 4 count ++ bytes b.order ++ zeros k) b')
      (fun f b' => b.Fails f b') := by
  have hfill : ∀ c : Builder, c.order = b.order → elementSize * count ≤ c.arena.headroom →
      Ends (do put (bytes (← get).order)) c (fun _ c' => c.Puts (bytes b.order) c')
        (fun _ _ => False) := by
    intro c hc hroom
    rw [ends_bind, ends_get, hc]
    exact (put_ends_of_room c (by rw [hlen]; exact hroom)).mono (fun _ _ h => h.1) fun _ _ h => h
  have h : Ends (do
      startVector elementSize count alignment
      (do put (bytes (← get).order))
      endVector) b _ _ := fill_ends b (fun _ => bytes b.order) (fun _ => hlen b.order) hfill
  simpa only [bind_assoc] using h

theorem length_flatMap_encode {α : Type} {encode : α → List UInt8} {size : Nat}
    (h : ∀ a, (encode a).length = size) (items : List α) :
    (items.flatMap encode).length = size * items.length := by
  induction items with
  | nil => rfl
  | cons a items ih =>
    rw [List.flatMap_cons, List.length_append, h, ih, List.length_cons, Nat.mul_succ, Nat.add_comm]

theorem createVector_ends (ty : ScalarType) (items : List ty.Value) :
    Ends (createVector ty items) b
      (fun o b' => b.stage = .idle ∧ o.value = b'.offset ∧
        (b'.Rests 4 (o.value - 4) ∧ b'.Rests ty.size (o.value - 4)) ∧
        ∃ k, b.Puts (b.order.encode 4 items.length ++ items.flatMap (ty.encode b.order) ++ zeros k) b')
      (fun f b' => b.Fails f b') :=
  fill_put_ends b (fun order => items.flatMap (ty.encode order)) fun order =>
    length_flatMap_encode (ty.length_encode order) items

theorem createByteVectorAligned_ends (bytes : List UInt8) (alignment : Nat) :
    Ends (createByteVectorAligned bytes alignment) b
      (fun o b' => b.stage = .idle ∧ o.value = b'.offset ∧
        (b'.Rests 4 (o.value - 4) ∧ b'.Rests alignment (o.value - 4)) ∧
        ∃ k, b.Puts (b.order.encode 4 bytes.length ++ bytes ++ zeros k) b')
      (fun f b' => b.Fails f b') := by
  unfold createByteVectorAligned
  dsimp only
  rw [ends_ite, ends_bind, ends_reject]
  refine ⟨fun _ => .refl _ _, fun _ => ?_⟩
  exact fill_put_ends b (fun _ => bytes) fun _ => (Nat.one_mul _).symm

theorem createVectorOfStructs_ends (layout : StructLayout) (items : List layout.Value) :
    Ends (createVectorOfStructs layout items) b
      (fun o b' => 0 < layout.size ∧ b.stage = .idle ∧ o.value = b'.offset ∧
        (b'.Rests 4 (o.value - 4) ∧ b'.Rests layout.align (o.value - 4)) ∧ ∃ k, b.Puts
          (b.order.encode 4 items.length ++ items.flatMap (layout.encode b.order) ++ zeros k) b')
      (fun f b' => b.Fails f b') := by
  unfold createVectorOfStructs
  dsimp only
  rw [ends_ite, ends_bind, ends_reject]
  refine ⟨fun _ => .refl _ _, fun hsize => ?_⟩
  refine Ends.mono (fill_put_ends b (fun order => items.flatMap (layout.encode order))
    fun order => length_flatMap_encode (layout.length_encode order) items) ?_ fun f b' h => h
  intro o b' h
  exact ⟨Nat.pos_of_ne_zero hsize, h⟩

/-- The bytes of references to the targets when `start` bytes were written before the last one. Each
holds the distance of its target. -/
def references (order : ByteOrder) (start : Nat) : List Nat → List UInt8
  | [] => []
  | target :: rest =>
    order.encode 4 (start + 4 * rest.length - target + 4) ++ references order start rest

@[simp] theorem length_references (order : ByteOrder) (start : Nat) (targets : List Nat) :
    (references order start targets).length = 4 * targets.length := by
  induction targets with
  | nil => rfl
  | cons t ts ih =>
    rw [references, List.length_append, ByteOrder.length_encode, ih, List.length_cons]
    omega

/-- References are written from the last to the first. -/
theorem putReferences_ends {kind : OffsetKind} (items : List (Offset kind))
    (hroom : 4 * items.length ≤ b.arena.headroom) :
    Ends (items.reverse.forM fun item => do putWord ((← offset) - item.value + 4)) b
      (fun _ b' => b.Puts (references b.order b.offset (items.map (·.value))) b' ∧
        b'.arena.headroom = b.arena.headroom - 4 * items.length)
      (fun _ _ => False) := by
  induction items with
  | nil => exact ⟨.refl b, rfl⟩
  | cons item items ih =>
    rw [List.length_cons] at hroom
    rw [List.reverse_cons, List.forM_eq_forM, List.forM_append, ends_bind]
    refine (ih (by omega)).mono ?_ fun _ _ h => h
    intro _ b1 h
    obtain ⟨h1, hr⟩ := h
    rw [List.forM_cons, ends_bind, ends_bind, ends_offset]
    unfold putWord
    rw [ends_bind, ends_get]
    refine (put_ends_of_room b1 ?_).mono ?_ fun _ _ h => h
    · rw [ByteOrder.length_encode]
      omega
    · intro _ b2 h
      obtain ⟨h2, hr2, -⟩ := h
      have ho : b1.offset = b.offset + 4 * (items.map (·.value)).length := by
        rw [h1.offset, length_references, Nat.add_comm]
      rw [List.map_cons, references, ← ho, ← h1.order]
      refine ⟨?_, ?_⟩
      · have h12 := h1.trans h2
        rwa [h1.order] at h12 ⊢
      · rw [hr2, hr, ByteOrder.length_encode, List.length_cons]
        omega

theorem requireAllWritten_ends {kind : OffsetKind} (op : Operation) (bound : Nat)
    (items : List (Offset kind)) :
    Ends (items.forM fun item => requireWritten op item.value bound) b
      (fun _ b' => b' = b ∧ ∀ item ∈ items, 0 < item.value ∧ item.value ≤ bound)
      (fun _ b' => b' = b) := by
  induction items with
  | nil => exact ⟨rfl, fun _ h => nomatch h⟩
  | cons item items ih =>
    rw [List.forM_eq_forM, List.forM_cons, ends_bind]
    refine (requireWritten_ends b op item.value bound).mono ?_ fun _ _ h => h
    intro _ b h
    obtain ⟨rfl, hitem⟩ := h
    refine ih.mono ?_ fun _ _ h => h
    intro _ b h
    obtain ⟨rfl, hitems⟩ := h
    exact ⟨rfl, fun i hi => (List.mem_cons.1 hi).elim (fun h => h ▸ hitem) (hitems i)⟩

theorem createVectorOfOffsets_ends {kind : OffsetKind} (items : List (Offset kind)) :
    Ends (createVectorOfOffsets items) b
      (fun o b' => b.stage = .idle ∧ o.value = b'.offset ∧
        (b'.Rests 4 (o.value - 4) ∧ b'.Rests 4 (o.value - 4)) ∧
        (∀ item ∈ items, 0 < item.value ∧ item.value ≤ b.offset) ∧ ∃ k, b.Puts
          (b.order.encode 4 items.length ++
            references b.order (k + b.offset) (items.map (·.value)) ++ zeros k) b')
      (fun f b' => b.Fails f b') := by
  unfold createVectorOfOffsets
  rw [ends_bind]
  apply (requireIdle_ends b _).mono
  · intro _ b h
    obtain ⟨rfl, hidle⟩ := h
    rw [ends_bind, ends_offset]
    rw [ends_bind]
    apply (requireAllWritten_ends b _ b.offset items).mono
    · intro _ b h
      obtain ⟨rfl, hitems⟩ := h
      refine Ends.mono (fill_ends b (fun start => references b.order start
        (items.map (·.value))) (fun start => by simp) fun c hc hroom => ?_) ?_ fun f b' h => h
      · rw [← hc]
        exact (putReferences_ends c items hroom).mono (fun _ _ h => h.1) fun _ _ h => h
      · intro o b' h
        obtain ⟨-, ho, hrests, hk⟩ := h
        exact ⟨hidle, ho, hrests, hitems, hk⟩
    · intro f b h
      obtain rfl := h
      exact .refl _ _
  · intro f b h
    obtain ⟨rfl, -⟩ := h
    exact .refl _ _

/-- A string is the number of its bytes, the bytes and a zero byte. -/
theorem createByteString_ends (bytes : List UInt8) :
    Ends (createByteString bytes) b
      (fun o b' => b.stage = .idle ∧ o.value = b'.offset ∧ b'.Rests 4 b'.offset ∧ ∃ k, b.Puts
        (b.order.encode 4 bytes.length ++ bytes ++ 0 :: zeros k) b')
      (fun f b' => b.Fails f b') := by
  unfold createByteString
  rw [ends_bind]
  apply (requireIdle_ends b _).mono
  · intro _ b h
    obtain ⟨rfl, hidle⟩ := h
    rw [ends_bind]
    refine (prep_ends b 4 (bytes.length + 1)).mono ?_ fun f b' h => h.1.fails f
    intro _ b1 h
    obtain ⟨h1, -, hroom, -, hrests⟩ := h
    rw [ends_bind]
    refine (put_ends_of_room b1 (by simp; omega)).mono ?_ fun _ _ h => h.elim
    intro _ b2 h
    obtain ⟨h2, hr2, -⟩ := h
    rw [List.length_singleton] at hr2
    rw [ends_bind]
    refine (put_ends_of_room b2 (by omega)).mono ?_ fun _ _ h => h.elim
    intro _ b3 h
    obtain ⟨h3, -⟩ := h
    rw [ends_bind]
    apply (reserve_ends b3 4).mono
    · intro _ b4 h
      obtain ⟨h4, hr4, -⟩ := h
      unfold putWord
      rw [ends_bind, ends_bind, ends_get]
      refine (put_ends_of_room b4 (by simpa using hr4)).mono ?_ fun _ _ h => h.elim
      intro _ b5 h
      obtain ⟨h5, -⟩ := h
      have horder : b4.order = b.order := ((h1.trans h2).trans (h3.trans h4)).order
      have hfront : b1.Puts (b4.order.encode 4 bytes.length ++ ([] ++ (bytes ++ [0]))) b5 :=
        ((h2.trans h3).trans h4).trans h5
      have hrests5 : b5.Rests 4 b5.offset := by
        have hsum : b5.offset = b1.offset + (bytes.length + 1) + 4 := by
          simp only [hfront.offset, List.length_append, ByteOrder.length_encode, List.length_nil,
            List.length_singleton]
          omega
        rw [hsum]
        exact (hrests.add (Nat.dvd_refl 4)).mono hfront.minAlign.le
      have h := (((h1.trans h2).trans h3).trans h4).trans h5
      rw [horder, List.nil_append, List.singleton_append] at h
      exact ⟨hidle, rfl, hrests5, _, by rwa [List.append_assoc]⟩
    · intro f b4 h
      obtain ⟨rfl, hf, -⟩ := h
      have h123 := (h1.trans h2).trans h3
      exact h123.keeps.fails hf hidle (h123.stage.trans hidle)
  · intro f b h
    obtain ⟨rfl, -⟩ := h
    exact .refl _ _

end Build

end TableBuffer
