import TableBuffer.Proofs.Runs

/-!
# What calls leave at the offsets they answer

Strings, structs and vectors stand at the offset that their call answered, from that call to the end of
the run. A vector is written at once, or opened, filled from its last element to its first and closed; if
it could be closed, its elements stand in a row all the same.
-/

namespace TableBuffer

/-- A vector stands at `offset`: a count, and behind it items of `size` bytes, each with `stands`. -/
structure VectorAt {α : Type} (order : ByteOrder) (written : List UInt8) (offset size : Nat)
    (items : List α) (stands : List UInt8 → Nat → α → Prop) : Prop where
  count : StandsAt written offset (order.encode 4 items.length)
  room : 4 + items.length * size ≤ offset
  item : ∀ i a, items[i]? = some a → stands written (offset - 4 - i * size) a

theorem VectorAt.mono {α : Type} {order : ByteOrder} {written written' : List UInt8} {offset size : Nat}
    {items : List α} {stands : List UInt8 → Nat → α → Prop} (h : VectorAt order written offset size items stands)
    (hstands : ∀ o a, stands written o a → stands written' o a) (hw : written <:+ written') :
    VectorAt order written' offset size items stands where
  count := h.count.mono hw
  room := h.room
  item i a hi := hstands _ _ (h.item i a hi)

/-- Items that are nothing but their bytes. -/
theorem vectorAt_flatMap {α : Type} {order : ByteOrder} {written : List UInt8} {offset size : Nat}
    {items : List α} {encode : α → List UInt8} (hsize : ∀ a, (encode a).length = size)
    (h : StandsAt written offset (order.encode 4 items.length ++ items.flatMap encode)) :
    VectorAt order written offset size items fun w o a => StandsAt w o (encode a) where
  count := h.left
  room := by
    have hlen := h.length_le
    rwa [List.length_append, ByteOrder.length_encode, Build.length_flatMap_encode hsize,
      Nat.mul_comm] at hlen
  item i a hi := by
    have hitems := h.right
    rw [ByteOrder.length_encode] at hitems
    exact hitems.item hsize hi

/-- The references of a vector lead to their targets if these were written before it. -/
theorem referenceAt_of_references {order : ByteOrder} {written : List UInt8} {start : Nat}
    {targets : List Nat} (hle : ∀ t ∈ targets, t ≤ start)
    (h : StandsAt written (start + 4 * targets.length) (Build.references order start targets))
    {i target : Nat} (hi : targets[i]? = some target) :
    ReferenceAt order written (start + 4 * targets.length - i * 4) target := by
  induction targets generalizing i with
  | nil => cases hi
  | cons t targets ih =>
    rw [Build.references] at h
    rw [List.length_cons] at h ⊢
    have hrest := h.right
    rw [ByteOrder.length_encode] at hrest
    cases i with
    | zero =>
      obtain rfl : t = target := by simpa using hi
      have ht : t ≤ start := hle t (List.mem_cons_self ..)
      have hword : start + 4 * targets.length - t + 4 = start + 4 * (targets.length + 1) - 0 * 4 - t := by
        omega
      refine ⟨by omega, ?_⟩
      rw [← hword, Nat.zero_mul, Nat.sub_zero]
      exact h.left
    | succ i =>
      have hplace : start + 4 * (targets.length + 1) - 4 = start + 4 * targets.length := by omega
      have hnext : start + 4 * (targets.length + 1) - (i + 1) * 4 =
          start + 4 * targets.length - i * 4 := by
        omega
      rw [hplace] at hrest
      rw [hnext]
      exact ih (fun t ht => hle t (List.mem_cons_of_mem _ ht)) hrest (by simpa using hi)

/-- A vector of `count` items of `size` bytes was opened, filled by the given calls, each of which
succeeded, and closed at `offset`. -/
def Filled (events : List Event) (size count : Nat) (calls : List Call) (offset : Nat) : Prop :=
  ∃ before alignment pushes after,
    events = before ++ (.startVector size count alignment, .ok .done) ::
      (pushes ++ (.endVector, .ok (.offset offset)) :: after) ∧
    pushes.map Prod.fst = calls ∧ ∀ e ∈ pushes, ∃ reply, e.2 = .ok reply

namespace Builder

variable {b b' : Builder} {events : List Event} {o : Nat}

/-- Around the call of an event: what it left written is written at the end of the run. -/
theorem Runs.around {c : Call} {reply : Reply} (hrun : b.Runs events b')
    (hreset : ∀ e ∈ events, e.1 ≠ .reset) (he : (c, .ok reply) ∈ events) :
    ∃ b1 b2 : Builder, b1.order = b.order ∧ b1.call c = (.ok reply, b2) ∧ b2.arena.written <:+ b'.arena.written := by
  obtain ⟨before, b1, b2, after, rfl, hbefore, hcall, hafter⟩ := hrun.of_mem he
  have hgrows : b.Grows b1 := hbefore.grows fun e he => hreset e (List.mem_append_left _ he)
  have hgrows' : b2.Grows b' :=
    hafter.grows fun e he => hreset e (List.mem_append_right _ (List.mem_cons_of_mem _ he))
  exact ⟨b1, b2, hgrows.order, hcall, hgrows'.written⟩

section Filling

variable {α : Type} {size : Nat} {stands : List UInt8 → Nat → α → Prop}

/-- A call puts an item in front, perhaps with padding behind it. -/
def PutsItem (order : ByteOrder) (size : Nat) (stands : List UInt8 → Nat → α → Prop) (a : α) (c : Call) :
    Prop :=
  ∀ b : Builder, b.order = order → Build.Ends c.step b
    (fun _ b' => b'.stage = b.stage ∧ b.offset + size ≤ b'.offset ∧ stands b'.arena.written b'.offset a)
    (fun _ _ => True)

variable {push : α → Call} (hpush : ∀ a, PutsItem b.order size stands a (push a))

include hpush

/-- Items that are put in front one after the other, the last one first, take at least their own bytes. If
they take no more, they stand in a row. -/
theorem Runs.putItems {pushes : List Event} {items : List α} (hrun : b.Runs pushes b')
    (hreset : ∀ e ∈ pushes, e.1 ≠ .reset) (hcalls : pushes.map Prod.fst = (items.map push).reverse)
    (hok : ∀ e ∈ pushes, ∃ r, e.2 = .ok r) :
    b'.stage = b.stage ∧ b.offset + items.length * size ≤ b'.offset ∧
      (b'.offset = b.offset + items.length * size → ∀ i a, items[i]? = some a →
        ∃ before c1 r c2, b.Moment pushes before c1 (push a, .ok r) c2 ∧ c2.offset = b'.offset - i * size) := by
  -- The first item is put last, so its call is the last of the run and the others come before it.
  induction items generalizing pushes b' with
  | nil =>
    rw [List.map_nil, List.reverse_nil, List.map_eq_nil_iff] at hcalls
    rw [hcalls] at hrun
    rw [runs_nil.1 hrun, List.length_nil, Nat.zero_mul]
    exact ⟨rfl, Nat.le_refl _, fun _ i a hi => nomatch hi⟩
  | cons a items ih =>
    rw [List.map_cons, List.reverse_cons, List.map_eq_append_iff] at hcalls
    obtain ⟨earlier, last, rfl, hearlier, hlast⟩ := hcalls
    obtain ⟨e, rfl, hcall⟩ := List.map_eq_singleton_iff.1 hlast
    obtain ⟨r, hr⟩ := hok e (List.mem_append_right _ (List.mem_singleton.2 rfl))
    obtain rfl : e = (push a, .ok r) := Prod.ext hcall hr
    obtain ⟨b1, hrun1, hmoment⟩ := hrun.last_moment
    obtain ⟨hstage1, hle1, hitems⟩ := ih hrun1 (fun e he => hreset e (List.mem_append_left _ he)) hearlier
      fun e he => hok e (List.mem_append_left _ he)
    obtain ⟨hstage2, hle2, -⟩ := (hpush a b1 (hmoment.order_eq hreset)).of_call_ok hmoment.call
    have hmul : (a :: items).length * size = items.length * size + size := Nat.succ_mul ..
    refine ⟨hstage2.trans hstage1, by omega, fun hexact i x hi => ?_⟩
    cases i with
    | zero =>
      obtain rfl : a = x := by simpa using hi
      exact ⟨_, _, _, _, hmoment, by rw [Nat.zero_mul, Nat.sub_zero]⟩
    | succ i =>
      obtain ⟨before, c1, r', c2, hmoment', hplace⟩ := hitems (by omega) i x (by simpa using hi)
      refine ⟨before, c1, r', c2, hmoment'.mono (List.prefix_append ..), ?_⟩
      rw [hplace, Nat.succ_mul]
      omega

section Closed

variable {items : List α} {before pushes after : List Event} {alignment : Nat} (hrun : b.Runs events b')
  (hreset : ∀ e ∈ events, e.1 ≠ .reset)
  (hevents : events = before ++ (.startVector size items.length alignment, .ok .done) ::
    (pushes ++ (.endVector, .ok (.offset o)) :: after))
  (hcalls : pushes.map Prod.fst = (items.map push).reverse) (hok : ∀ e ∈ pushes, ∃ reply, e.2 = .ok reply)

include hrun hreset hevents hcalls hok

/-- A vector that could be closed has its count in front and its items in a row, each where its call left
off. -/
theorem Runs.filled_moments :
    StandsAt b'.arena.written o (b.order.encode 4 items.length) ∧ 4 + items.length * size ≤ o ∧
      ∀ i a, items[i]? = some a → ∃ earlier c1 r c2,
        b.Moment events (before ++ (.startVector size items.length alignment, .ok .done) :: earlier) c1
          (push a, .ok r) c2 ∧ earlier.length < pushes.length ∧ c2.offset = o - 4 - i * size := by
  subst hevents
  obtain ⟨b1, hbefore, hrun1⟩ := runs_append.1 hrun
  obtain ⟨hfault, b2, hstart, hrun2⟩ := runs_cons.1 hrun1
  obtain ⟨b3, hpushes, hrun3⟩ := runs_append.1 hrun2
  obtain ⟨-, b4, hend, hafter⟩ := runs_cons.1 hrun3
  have horder1 : b1.order = b.order :=
    (hbefore.grows fun e he => hreset e (List.mem_append_left _ he)).order
  have hgrows4 : b4.Grows b' := hafter.grows fun e he => hreset e <| List.mem_append_right _ <|
    List.mem_cons_of_mem _ <| List.mem_append_right _ <| List.mem_cons_of_mem _ he
  have hreset3 : ∀ e ∈ pushes, e.1 ≠ .reset := fun e he => hreset e <| List.mem_append_right _ <|
    List.mem_cons_of_mem _ <| List.mem_append_left _ he
  have hgrows3 : b2.Grows b3 := hpushes.grows hreset3
  obtain ⟨-, -, -, k, c1, h1, hsame⟩ := (startVector_call_ends b1 size items.length alignment).of_call_ok hstart
  have horder2 : b2.order = b1.order := by
    rw [hsame]
    exact h1.order
  have hstage2 : b2.stage = .vector ⟨items.length, b2.offset, size * items.length⟩ := by
    rw [hsame]
    rfl
  have hpush2 : ∀ a, PutsItem b2.order size stands a (push a) := by
    rw [horder2, horder1]
    exact hpush
  obtain ⟨hstage3, hle3, hitems⟩ := hpushes.putItems hpush2 hreset3 hcalls hok
  obtain ⟨v, hv, hsize, hr, h4⟩ := (endVector_call_ends b3).of_call_ok hend
  obtain rfl := Stage.vector.inj (hstage2.symm.trans (hstage3.symm.trans hv))
  change b3.offset - b2.offset = size * items.length at hsize
  have ho : o = b4.offset := Reply.offset.inj hr
  have hoffset4 : b4.offset = 4 + b3.offset := by
    rw [h4.offset, ByteOrder.length_encode]
    rfl
  have hcount : StandsAt b4.arena.written b4.offset (b3.order.encode 4 items.length) := .front h4.written
  -- That the vector could be closed means that no padding lies between the items.
  have hexact : b3.offset = b2.offset + items.length * size := by
    rw [Nat.mul_comm]
    omega
  refine ⟨?_, by omega, fun i a hi => ?_⟩
  · rw [ho, ← horder1, ← horder2, ← hgrows3.order]
    exact hcount.mono hgrows4.written
  · obtain ⟨earlier, c1, r, c2, hmoment, hplace⟩ := hitems hexact i a hi
    refine ⟨earlier, c1, r, c2, ?_, ?_, by omega⟩
    · have hopened : b.Runs (before ++ [(.startVector size items.length alignment, .ok .done)]) b2 :=
        runs_append.2 ⟨b1, hbefore, runs_cons.2 ⟨hfault, b2, hstart, runs_nil.2 rfl⟩⟩
      have hlater := hmoment.later hopened
      rw [List.append_assoc, List.append_assoc, List.singleton_append, List.singleton_append] at hlater
      refine hlater.mono ((List.prefix_append_right_inj _).2 ?_)
      exact (List.prefix_cons_inj _).2 (List.prefix_append ..)
    · have hlen := hmoment.among.length_le
      rw [List.length_append, List.length_singleton] at hlen
      exact hlen

end Closed

theorem Runs.filled {items : List α} (hmono : ∀ w w' o a, stands w o a → w <:+ w' → stands w' o a)
    (hrun : b.Runs events b') (hreset : ∀ e ∈ events, e.1 ≠ .reset)
    (h : Filled events size items.length (items.map push).reverse o) :
    VectorAt b.order b'.arena.written o size items stands := by
  obtain ⟨before, alignment, pushes, after, hevents, hcalls, hok⟩ := h
  obtain ⟨hcount, hroom, hitems⟩ := hrun.filled_moments hpush hreset hevents hcalls hok
  refine ⟨hcount, hroom, fun i a hi => ?_⟩
  obtain ⟨earlier, c1, r, c2, hmoment, -, hplace⟩ := hitems i a hi
  obtain ⟨-, -, hstands⟩ := (hpush a c1 (hmoment.order_eq hreset)).of_call_ok hmoment.call
  rw [← hplace]
  exact hmono _ _ _ _ hstands (hmoment.grows_after hreset hrun).written

end Filling

theorem putsItem_push (order : ByteOrder) (ty : ScalarType) (v : ty.Value) :
    PutsItem order ty.size (fun w o (v : ty.Value) => StandsAt w o (ty.encode order v)) v
      (.push ty v) := by
  intro b horder
  rw [Call.step, Build.ends_placed]
  refine (Build.push_ends b ty v).mono ?_ fun _ _ _ => trivial
  intro _ b' h
  obtain ⟨h, -, -⟩ := h
  rw [horder] at h
  have hfront := h.in_front
  rw [ScalarType.length_encode] at hfront
  exact ⟨h.stage, hfront, h.stands⟩

theorem putsItem_createStruct (order : ByteOrder) (layout : StructLayout) (v : layout.Value) :
    PutsItem order layout.size (fun w o (v : layout.Value) => StandsAt w o (layout.encode order v)) v
      (.createStruct layout v) := by
  intro b horder
  rw [Call.step, Build.ends_located]
  refine (Build.createStruct_ends b layout v).mono ?_ fun _ _ _ => trivial
  intro _ b' h
  obtain ⟨-, -, k, b1, h, rfl⟩ := h
  rw [horder] at h
  have hfront := h.in_front
  rw [StructLayout.length_encode] at hfront
  exact ⟨h.stage, hfront, h.stands⟩

theorem putsItem_pushOffset (order : ByteOrder) (target : Nat) :
    PutsItem order 4 (ReferenceAt order) target (.pushOffset target) := by
  intro b horder
  rw [Call.step, Build.ends_placed]
  refine (Build.pushOffset_ends b _).mono ?_ fun _ _ _ => trivial
  intro _ b' h
  obtain ⟨h, -, hbound, -⟩ := h
  have hle : target ≤ b.offset := hbound
  have hlen := h.offset
  rw [List.length_append, ByteOrder.length_encode] at hlen
  have hword : b'.offset - 4 - target + 4 = b'.offset - target := by omega
  rw [horder, hword] at h
  exact ⟨h.stage, by omega, by omega, h.stands⟩

/-- The references of a vector that was just written lead to their targets. -/
theorem createVectorOfOffsets_ends_at (b : Builder) (targets : List Nat) :
    Build.Ends (Build.createVectorOfOffsets (targets.map fun t => (⟨t⟩ : Offset .table))) b
      (fun r b' => r.value = b'.offset ∧ b'.Rests 4 (r.value - 4) ∧
        b.offset + (4 + targets.length * 4) ≤ b'.offset ∧
        VectorAt b.order b'.arena.written b'.offset 4 targets (ReferenceAt b.order)) (fun _ _ => True) := by
  have hvalues : (targets.map fun t => (⟨t⟩ : Offset .table)).map (·.value) = targets := by
    rw [List.map_map]
    exact List.map_id targets
  refine (Build.createVectorOfOffsets_ends b _).mono ?_ fun _ _ _ => trivial
  intro r b' h
  obtain ⟨-, hr, hrests, hbound, k, h⟩ := h
  rw [hvalues, List.length_map] at h
  have hlen := h.offset
  simp only [List.length_append, ByteOrder.length_encode, Build.length_references,
    List.length_replicate] at hlen
  have hle : ∀ t ∈ targets, t ≤ k + b.offset := fun t ht =>
    Nat.le_trans (hbound ⟨t⟩ (List.mem_map_of_mem ht)).2 (Nat.le_add_left ..)
  have hplace : b'.offset - 4 = k + b.offset + 4 * targets.length := by omega
  refine ⟨hr, hrests.1, by omega, h.stands.left, by omega, fun i target hi => ?_⟩
  have hrefs := h.stands.right
  rw [ByteOrder.length_encode, hplace] at hrefs
  rw [hplace]
  exact referenceAt_of_references hle hrefs hi

section Written

variable (hrun : b.Runs events b') (hreset : ∀ e ∈ events, e.1 ≠ .reset)

include hrun hreset

/-- What holds after a call that answers an offset held once in the run. -/
theorem Runs.located {kind : OffsetKind} {c : Call} {step : Build (Offset kind)}
    (holds : Nat → Builder → Prop) (hc : c.step = Build.located step) (he : (c, .ok (.offset o)) ∈ events)
    (hstep : ∀ b1, b1.order = b.order →
      Build.Ends step b1 (fun r b2 => holds r.value b2) (fun _ _ => True)) :
    ∃ b2, holds o b2 ∧ b2.arena.written <:+ b'.arena.written := by
  obtain ⟨b1, b2, horder, hcall, hwritten⟩ := hrun.around hreset he
  have hends : Build.Ends c.step b1 (fun r b2 => ∃ p, r = .offset p ∧ holds p b2) (fun _ _ => True) := by
    rw [hc, Build.ends_located]
    exact (hstep b1 horder).mono (fun r _ h => ⟨r.value, rfl, h⟩) fun _ _ _ => trivial
  obtain ⟨p, hp, h⟩ := hends.of_call_ok hcall
  obtain rfl := Reply.offset.inj hp
  exact ⟨b2, h, hwritten⟩

theorem Runs.stands {kind : OffsetKind} {c : Call} {step : Build (Offset kind)} {bytes : List UInt8}
    (hc : c.step = Build.located step) (he : (c, .ok (.offset o)) ∈ events)
    (hstep : ∀ b1, b1.order = b.order → Build.Ends step b1
      (fun r b2 => StandsAt b2.arena.written r.value bytes) (fun _ _ => True)) :
    StandsAt b'.arena.written o bytes := by
  obtain ⟨b2, h, hwritten⟩ :=
    hrun.located hreset (fun p b2 => StandsAt b2.arena.written p bytes) hc he hstep
  exact h.mono hwritten

theorem Runs.createStruct {layout : StructLayout} {v : layout.Value}
    (he : (.createStruct layout v, .ok (.offset o)) ∈ events) :
    StandsAt b'.arena.written o (layout.encode b.order v) := by
  refine hrun.stands hreset rfl he fun b1 horder => ?_
  refine (Build.createStruct_ends b1 layout v).mono ?_ fun _ _ _ => trivial
  intro r b2 h
  obtain ⟨hr, -, k, b3, h3, rfl⟩ := h
  rw [hr, ← horder]
  exact h3.stands

/-- A zero byte follows the bytes of a string. -/
theorem Runs.createByteString_stands {c : Call} {bytes : List UInt8}
    (hc : c.step = Build.located (Build.createByteString bytes)) (he : (c, .ok (.offset o)) ∈ events) :
    StandsAt b'.arena.written o (b.order.encode 4 bytes.length ++ bytes ++ [0]) := by
  refine hrun.stands hreset hc he fun b1 horder => ?_
  refine (Build.createByteString_ends b1 bytes).mono ?_ fun _ _ _ => trivial
  intro r b2 h
  obtain ⟨-, hr, -, k, h⟩ := h
  rw [List.append_cons] at h
  rw [hr, ← horder]
  exact h.stands

theorem Runs.createByteString {c : Call} {bytes : List UInt8}
    (hc : c.step = Build.located (Build.createByteString bytes)) (he : (c, .ok (.offset o)) ∈ events) :
    StandsAt b'.arena.written o (b.order.encode 4 bytes.length ++ bytes) :=
  (hrun.createByteString_stands hreset hc he).left

theorem Runs.createByteVectorAligned {c : Call} {bytes : List UInt8} {alignment : Nat}
    (hc : c.step = Build.located (Build.createByteVectorAligned bytes alignment))
    (he : (c, .ok (.offset o)) ∈ events) :
    StandsAt b'.arena.written o (b.order.encode 4 bytes.length ++ bytes) := by
  refine hrun.stands hreset hc he fun b1 horder => ?_
  refine (Build.createByteVectorAligned_ends b1 bytes alignment).mono ?_ fun _ _ _ => trivial
  intro r b2 h
  obtain ⟨-, hr, -, k, h⟩ := h
  rw [hr, ← horder]
  exact h.stands

theorem Runs.createVector_stands {ty : ScalarType} {items : List ty.Value}
    (he : (.createVector ty items, .ok (.offset o)) ∈ events) : StandsAt b'.arena.written o
      (b.order.encode 4 items.length ++ items.flatMap (ty.encode b.order)) := by
  refine hrun.stands hreset rfl he fun b1 horder => ?_
  refine (Build.createVector_ends b1 ty items).mono ?_ fun _ _ _ => trivial
  intro r b2 h
  obtain ⟨-, hr, -, k, h⟩ := h
  rw [hr, ← horder]
  exact h.stands

theorem Runs.createVector {ty : ScalarType} {items : List ty.Value}
    (he : (.createVector ty items, .ok (.offset o)) ∈ events) :
    VectorAt b.order b'.arena.written o ty.size items
      fun w o v => StandsAt w o (ty.encode b.order v) :=
  vectorAt_flatMap (ty.length_encode b.order) (hrun.createVector_stands hreset he)

theorem Runs.createVectorOfStructs {layout : StructLayout} {items : List layout.Value}
    (he : (.createVectorOfStructs layout items, .ok (.offset o)) ∈ events) :
    0 < layout.size ∧ VectorAt b.order b'.arena.written o layout.size items
      fun w o v => StandsAt w o (layout.encode b.order v) := by
  obtain ⟨b2, ⟨hpos, h⟩, hwritten⟩ := hrun.located hreset
    (fun p b2 => 0 < layout.size ∧
      StandsAt b2.arena.written p (b.order.encode 4 items.length ++ items.flatMap (layout.encode b.order)))
    rfl he fun b1 horder => by
      refine (Build.createVectorOfStructs_ends b1 layout items).mono ?_ fun _ _ _ => trivial
      intro r b2 h
      obtain ⟨hpos, -, hr, -, k, h⟩ := h
      rw [hr, ← horder]
      exact ⟨hpos, h.stands⟩
  exact ⟨hpos, vectorAt_flatMap (layout.length_encode b.order) (h.mono hwritten)⟩

theorem Runs.createVectorOfOffsets {targets : List Nat}
    (he : (.createVectorOfOffsets targets, .ok (.offset o)) ∈ events) :
    VectorAt b.order b'.arena.written o 4 targets (ReferenceAt b.order) := by
  obtain ⟨b2, h, hwritten⟩ := hrun.located hreset
    (fun p b2 => VectorAt b.order b2.arena.written p 4 targets (ReferenceAt b.order)) rfl he
    fun b1 horder => by
      refine (createVectorOfOffsets_ends_at b1 targets).mono ?_ fun _ _ _ => trivial
      intro r b2 h
      obtain ⟨hr, -, -, h⟩ := h
      rw [hr, ← horder]
      exact h
  exact h.mono (fun _ _ ht => ht.mono hwritten) hwritten

end Written

end Builder

end TableBuffer
