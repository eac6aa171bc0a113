import TableBuffer.Proofs.NumberChecks
import TableBuffer.Proofs.Room
import TableBuffer.Proofs.TableContents

/-!
# Steps that lose no number

`Regular` is what calls of moderate size keep of a builder: its room keeps to the limit that its options set,
and whatever it remembers lies in what is written. `Exact` says of a step that in such a builder it does what it
does with every number checked, and that this is no fault. A step is exact if its parts are, each in the builder
that the parts before it leave; what they have to tell of that builder is the last argument.
-/

namespace TableBuffer

/-- The sizes that calls ask for stay below this. -/
def sizeLimit : Nat := 0x1000000000000000

theorem ScalarType.size_lt (ty : ScalarType) : ty.size < sizeLimit := by
  have hcases := ty.size_cases
  rw [sizeLimit]
  omega

/-- The fields have slots of their own, and their bytes came after the table was opened. -/
structure OpenObject.Regular (o : OpenObject) (written : Nat) : Prop where
  slots_le : o.slots ≤ VTable.maxSlots
  start_le : o.start ≤ written
  distinct : (o.fields.map (·.slot)).Nodup
  declared : ∀ f ∈ o.fields, f.slot < o.slots
  start_lt : ∀ f ∈ o.fields, o.start < f.offset
  offset_le : ∀ f ∈ o.fields, f.offset ≤ written
  size_le : ∀ f ∈ o.fields, f.size ≤ f.offset

/-- What is under construction was begun in what is written. -/
def Stage.Regular (written : Nat) : Stage → Prop
  | .object o => o.Regular written
  | .vector v => v.start ≤ written
  | .idle | .finished => True

/-- What a builder remembers agrees with what is written. Each vtable that was written or found again came with
bytes of its own, so their numbers are bounded by the bytes. -/
structure Builder.Regular (b : Builder) : Prop where
  arena : b.arena.KeepsTo b.options.maxSize
  maxSize_le : b.options.maxSize ≤ maxBufferSize
  stage : b.stage.Regular b.offset
  minAlign : isPowerOfTwo b.minAlign = true
  minAlign_lt : b.minAlign < sizeLimit
  structSize_le : b.structSize ≤ b.offset
  vtables_le : ∀ v position, b.vtables.get? v = some position → position ≤ b.offset
  hits_le : b.vtables.hits ≤ b.offset
  vtablesWritten_le : b.vtablesWritten ≤ b.offset

theorem OpenObject.Regular.mono {o : OpenObject} {m n : Nat} (h : o.Regular m) (hle : m ≤ n) : o.Regular n :=
  { h with
    start_le := Nat.le_trans h.start_le hle
    offset_le := fun f hf => Nat.le_trans (h.offset_le f hf) hle }

theorem Stage.Regular.mono {s : Stage} {m n : Nat} (h : s.Regular m) (hle : m ≤ n) : s.Regular n := by
  cases s with
  | object o => exact OpenObject.Regular.mono h hle
  | vector v => exact Nat.le_trans h hle
  | idle => trivial
  | finished => trivial

/-- A field that was written last takes a free slot. -/
theorem OpenObject.Regular.store {o : OpenObject} {written slot size : Nat} (h : o.Regular written)
    (ht : o.Takes slot) (hlt : o.start < written) (hsize : size ≤ written) :
    OpenObject.Regular { o with fields := ⟨slot, written, size⟩ :: o.fields } written where
  slots_le := h.slots_le
  start_le := h.start_le
  distinct := by
    rw [List.map_cons, List.nodup_cons]
    refine ⟨fun hmem => ?_, h.distinct⟩
    obtain ⟨f, hf, hslot⟩ := List.mem_map.1 hmem
    exact ht.free f hf hslot
  declared := List.forall_mem_cons.2 ⟨ht.declared, h.declared⟩
  start_lt := List.forall_mem_cons.2 ⟨hlt, h.start_lt⟩
  offset_le := List.forall_mem_cons.2 ⟨Nat.le_refl _, h.offset_le⟩
  size_le := List.forall_mem_cons.2 ⟨hsize, h.size_le⟩

theorem Builder.offset_le_capacity (b : Builder) : b.offset ≤ b.arena.capacity := Nat.le_add_left ..

namespace Builder.Regular

variable {b b' : Builder} (h : b.Regular)

include h

theorem capacity_le : b.arena.capacity ≤ b.options.maxSize := by
  rw [← h.arena.limit_eq]
  exact h.arena.fits

theorem offset_le_limit : b.offset ≤ b.arena.limit := Nat.le_trans b.offset_le_capacity h.arena.fits

theorem limit_le : b.arena.limit ≤ 2147483647 := by
  rw [h.arena.limit_eq]
  exact h.maxSize_le

theorem offset_le : b.offset ≤ 2147483647 := Nat.le_trans h.offset_le_limit h.limit_le

theorem offset_lt_word : b.offset < valueCount 4 := Nat.lt_of_le_of_lt h.offset_le (by decide)

/-- Bytes in front leave a builder regular if the alignment that comes with them is moderate. -/
theorem puts {bytes : List UInt8} (hputs : b.Puts bytes b') (hmin : b'.minAlign < sizeLimit) : b'.Regular := by
  have hle : b.offset ≤ b'.offset := hputs.keeps.offset_le
  refine
    { arena := ?_, maxSize_le := ?_, stage := ?_, minAlign := hputs.minAlign.power h.minAlign,
      minAlign_lt := hmin, structSize_le := ?_, vtables_le := ?_, hits_le := ?_, vtablesWritten_le := ?_ }
  · rw [hputs.options]
    exact ⟨hputs.limit.trans h.arena.limit_eq, hputs.fits h.arena.fits⟩
  · rw [hputs.options]
    exact h.maxSize_le
  · rw [hputs.stage]
    exact h.stage.mono hle
  · rw [hputs.structSize]
    exact Nat.le_trans h.structSize_le hle
  · rw [hputs.vtables]
    exact fun v position hv => Nat.le_trans (h.vtables_le v position hv) hle
  · rw [hputs.vtables]
    exact Nat.le_trans h.hits_le hle
  · rw [hputs.vtablesWritten]
    exact Nat.le_trans h.vtablesWritten_le hle

theorem setStage {stage : Stage} (hstage : stage.Regular b.offset) : Builder.Regular { b with stage := stage } :=
  { h with stage := hstage }

/-- Written bytes can be replaced by as many others. -/
theorem overwritten {written : List UInt8} (hsize : written.length = b.arena.written.length) :
    Builder.Regular { b with arena := { b.arena with written := written } } := by
  have hoffset : Builder.offset { b with arena := { b.arena with written := written } } = b.offset := hsize
  refine { h with
    arena := ⟨h.arena.limit_eq, ?_⟩, stage := ?_, structSize_le := ?_, vtables_le := ?_, hits_le := ?_,
    vtablesWritten_le := ?_ }
  · rw [Arena.Fits, Arena.capacity, Arena.size, hsize]
    exact h.arena.fits
  all_goals rw [hoffset]
  · exact h.stage
  · exact h.structSize_le
  · exact h.vtables_le
  · exact h.hits_le
  · exact h.vtablesWritten_le

theorem object {o : OpenObject} (ho : b.stage = .object o) : o.Regular b.offset := by
  have hstage := h.stage
  rwa [ho] at hstage

theorem vector {v : OpenVector} (hv : b.stage = .vector v) : v.start ≤ b.offset := by
  have hstage := h.stage
  rwa [hv] at hstage

end Builder.Regular

namespace Build

variable {α β : Type} {b : Builder}

/-- Run from `b`, the checked step `y` and the step `x` do the same, and it is no fault. Whatever comes of it, the
builder is regular, and an answer comes with `good`. -/
structure Exact (y x : Build α) (b : Builder) (good : α → Builder → Prop) : Prop where
  same : y b = x b
  ends : Ends x b (fun a b' => b'.Regular ∧ good a b') (fun f b' => b'.Regular ∧ f ≠ .fault)

section Rules

variable {y x y' x' : Build α} {good good' : α → Builder → Prop}

theorem Exact.bind {z w : Build β} {k' k : β → Build α} {mid : β → Builder → Prop} (h : Exact z w b mid)
    (hk : ∀ a b', b'.Regular → mid a b' → Exact (k' a) (k a) b' good) : Exact (z >>= k') (w >>= k) b good := by
  obtain ⟨hsame, hends⟩ := h
  cases hw : w b with
  | ok a b' =>
    obtain ⟨hb', hmid⟩ := hends.of_ok hw
    obtain ⟨hsame', hends'⟩ := hk a b' hb' hmid
    refine ⟨?_, ?_⟩
    · rw [bind_of_ok (hsame.trans hw), bind_of_ok hw, hsame']
    · rw [Ends, bind_of_ok hw]
      exact hends'
  | error f b' =>
    rw [Ends, hw] at hends
    refine ⟨?_, ?_⟩
    · rw [bind_of_error (hsame.trans hw), bind_of_error hw]
    · rw [Ends, bind_of_error hw]
      exact hends

theorem Exact.mono (h : Exact y x b good) (hgood : ∀ a b', good a b' → good' a b') : Exact y x b good' :=
  ⟨h.same, h.ends.mono (fun a b' h => ⟨h.1, hgood a b' h.2⟩) fun _ _ h => h⟩

theorem Exact.forget (h : Exact y x b good) : Exact y x b fun _ _ => True := h.mono fun _ _ _ => trivial

/-- What is known of the end of a step is known of its exact end. -/
theorem Exact.and {bad : Failure → Builder → Prop} (h : Exact y x b good) (hx : Ends x b good' bad) :
    Exact y x b (fun a b' => good a b' ∧ good' a b') :=
  ⟨h.same, (h.ends.and hx).mono (fun _ _ h => ⟨h.1.1, h.1.2, h.2⟩) fun _ _ h => h.1⟩

theorem Exact.ite {c : Prop} [Decidable c] (h : c → Exact y x b good) (h' : ¬ c → Exact y' x' b good) :
    Exact (if c then y else y') (if c then x else x') b good := by
  by_cases hc : c
  · rw [if_pos hc, if_pos hc]
    exact h hc
  · rw [if_neg hc, if_neg hc]
    exact h' hc

theorem exact_of_ends (h : Ends x b (fun a b' => b'.Regular ∧ good a b') (fun f b' => b'.Regular ∧ f ≠ .fault)) :
    Exact x x b good := ⟨rfl, h⟩

/-- A check is exact: it changes nothing and reports what it finds. -/
theorem exact_of_check {p : α → Prop} (hb : b.Regular)
    (h : Ends x b (fun a b' => b' = b ∧ p a) (fun f b' => b' = b ∧ f ≠ .fault)) :
    Exact x x b (fun a b' => b' = b ∧ p a) :=
  exact_of_ends (h.mono (fun _ _ h => ⟨h.1 ▸ hb, h⟩) fun _ _ h => ⟨h.1 ▸ hb, h.2⟩)

theorem pure_exact {a : α} (hb : b.Regular) (h : good a b) : Exact (pure a) (pure a) b good :=
  exact_of_ends ⟨hb, h⟩

theorem fail_exact (hb : b.Regular) (e : Error) : Exact (fail e) (fail e) b good :=
  exact_of_ends ⟨hb, nofun⟩

theorem setStage_exact (hb : b.Regular) {stage : Stage} (hstage : stage.Regular b.offset) :
    Exact (setStage stage) (setStage stage) b fun _ _ => True :=
  exact_of_ends ⟨hb.setStage hstage, trivial⟩

theorem Exact.get_bind {y x : Builder → Build α} (h : Exact (y b) (x b) b good) :
    Exact (get >>= y) (get >>= x) b good := ⟨h.same, h.ends⟩

theorem Exact.offset_bind {y x : Nat → Build α} (h : Exact (y b.offset) (x b.offset) b good) :
    Exact (offset >>= y) (offset >>= x) b good := ⟨h.same, h.ends⟩

theorem Exact.modify_bind {y x : Unit → Build α} {g : Builder → Builder} (h : Exact (y ()) (x ()) (g b) good) :
    Exact (modify g >>= y) (modify g >>= x) b good := ⟨h.same, h.ends⟩

theorem Exact.setStage_bind {y x : Unit → Build α} {stage : Stage}
    (h : Exact (y ()) (x ()) { b with stage := stage } good) :
    Exact (setStage stage >>= y) (setStage stage >>= x) b good := ⟨h.same, h.ends⟩

theorem demand_bind {p : Prop} [Decidable p] (hp : p) (k : Unit → Build α) : (demand p >>= k) = k () := by
  rw [demand, if_pos hp]
  rfl

/-- A check that the builder passes leaves no trace. -/
theorem Exact.check_bind {p : Builder → Prop} [DecidablePred p] {y : Unit → Build α} (hp : p b)
    (h : Exact (y ()) x b good) : Exact (get >>= fun c => demand (p c) >>= y) x b good := by
  refine ⟨?_, h.ends⟩
  rw [Build.get_bind, demand_bind hp]
  exact h.same

theorem sumInWords_bind {m n : Nat} (h : m + n < wordLimit) (k : Nat → Build α) :
    (sumInWords m n >>= k) = k (m + n) := by
  rw [sumInWords, demand_bind h]
  rfl

theorem differenceInWords_bind {m n : Nat} (h : n ≤ m) (k : Nat → Build α) :
    (differenceInWords m n >>= k) = k (m - n) := by
  rw [differenceInWords, demand_bind h]
  rfl

end Rules

section Checks

variable (hb : b.Regular)

include hb

theorem requireUnfinished_exact :
    Exact requireUnfinished requireUnfinished b (fun _ b' => b' = b ∧ b.isFinished = false) :=
  exact_of_check hb ((requireUnfinished_ends b).mono (fun _ _ h => h) fun _ _ h => ⟨h.1, by rw [h.2.2]; nofun⟩)

theorem requireIdle_exact (op : Operation) :
    Exact (requireIdle op) (requireIdle op) b (fun _ b' => b' = b ∧ b.stage = .idle) := by
  refine exact_of_check hb ?_
  unfold requireIdle
  rw [ends_bind, ends_get]
  cases h : b.stage with
  | idle => exact ⟨rfl, rfl⟩
  | object o => exact ⟨rfl, nofun⟩
  | vector v => exact ⟨rfl, nofun⟩
  | finished => exact ⟨rfl, nofun⟩

theorem openObject_exact (op : Operation) :
    Exact (openObject op) (openObject op) b (fun o b' => b' = b ∧ b.stage = .object o) := by
  refine exact_of_check hb ?_
  unfold openObject
  rw [ends_bind, ends_get]
  cases h : b.stage with
  | object o => exact ⟨rfl, rfl⟩
  | idle => exact ⟨rfl, nofun⟩
  | vector v => exact ⟨rfl, nofun⟩
  | finished => exact ⟨rfl, nofun⟩

theorem requireWritten_exact (op : Operation) (target bound : Nat) :
    Exact (requireWritten op target bound) (requireWritten op target bound) b
      (fun _ b' => b' = b ∧ target ≤ bound) := by
  refine exact_of_check hb ?_
  unfold requireWritten
  rw [ends_ite]
  exact ⟨fun _ => ⟨rfl, nofun⟩, fun _ => ⟨rfl, by omega⟩⟩

theorem requireAllWritten_exact {kind : OffsetKind} (op : Operation) (bound : Nat) (items : List (Offset kind)) :
    Exact (items.forM fun item => requireWritten op item.value bound)
      (items.forM fun item => requireWritten op item.value bound) b
      (fun _ b' => b' = b ∧ ∀ item ∈ items, item.value ≤ bound) := by
  induction items with
  | nil => exact pure_exact hb ⟨rfl, fun _ h => nomatch h⟩
  | cons item items ih =>
    simp only [List.forM_eq_forM, List.forM_cons]
    refine (requireWritten_exact hb op item.value bound).bind fun _ b' _ h => ?_
    obtain ⟨rfl, hitem⟩ := h
    exact ih.mono fun _ _ h => ⟨h.1, List.forall_mem_cons.2 ⟨hitem, h.2⟩⟩

theorem openSlot_exact (op : Operation) (slot : Nat) :
    Exact (openSlot op slot) (openSlot op slot) b
      (fun o b' => b' = b ∧ b.stage = .object o ∧ o.Takes slot) := by
  have hopen : Exact (openSlot op slot) (openSlot op slot) b fun _ _ => True := by
    refine (openObject_exact hb op).bind fun o b' hb' _ => ?_
    have hfree : Exact (requireFree op o slot) (requireFree op o slot) b' fun _ _ => True :=
      .ite (fun _ => fail_exact hb' _) fun _ => .ite (fun _ => fail_exact hb' _) fun _ => pure_exact hb' trivial
    exact hfree.bind fun _ _ hb' _ => pure_exact hb' trivial
  exact (hopen.and (openSlot_ends b op slot)).mono fun _ _ h => h.2

end Checks

section Bytes

variable (hb : b.Regular)

include hb

theorem offset_exact : Exact offsetInWords offset b (fun n b' => n = b.offset ∧ b' = b) := by
  refine ⟨?_, hb, rfl, rfl⟩
  rw [offsetInWords, offset_bind, demand_bind hb.offset_lt_word]
  rfl

theorem Exact.offsetInWords_bind {y x : Nat → Build α} {good : α → Builder → Prop}
    (h : Exact (y b.offset) (x b.offset) b good) : Exact (offsetInWords >>= y) (offset >>= x) b good := by
  refine (offset_exact hb).bind fun n b' _ hn => ?_
  obtain ⟨rfl, rfl⟩ := hn
  exact h

theorem reserve_exact {n : Nat} (hn : b.offset + n < wordLimit) :
    Exact (reserveInWords n) (reserve n) b
      (fun _ b' => b.Puts [] b' ∧ n ≤ b'.arena.headroom ∧ b'.minAlign = b.minAlign) := by
  have hoffset := hb.offset_le
  have hroom : b.arena.size ≤ b.arena.grownCapacity n := by
    have hcapacity := b.offset_le_capacity
    have hlimit := hb.offset_le_limit
    rw [Builder.offset] at hoffset hcapacity hlimit
    rw [Arena.grownCapacity, wordMax, wordLimit]
    omega
  refine .check_bind hroom (exact_of_ends ((reserve_ends b n).mono ?_ ?_))
  · exact fun _ b' h => ⟨hb.puts h.1 (h.2.2 ▸ hb.minAlign_lt), h⟩
  · intro f b' h
    obtain ⟨rfl, -, hroom⟩ := h
    have hlimit := hb.limit_le
    exact ⟨hb, hroom.2 hb.offset_le_limit (by rw [Arena.allocationLimit]; omega) hn⟩

theorem put_exact {bytes : List UInt8} (hroom : bytes.length ≤ b.arena.headroom) :
    Exact (put bytes) (put bytes) b
      (fun _ b' => b.Puts bytes b' ∧ b'.arena.headroom = b.arena.headroom - bytes.length ∧
        b'.minAlign = b.minAlign) :=
  exact_of_ends ((put_ends_of_room b hroom).mono (fun _ _ h => ⟨hb.puts h.1 (h.2.2 ▸ hb.minAlign_lt), h⟩)
    fun _ _ h => h.elim)

/-- A word is put in front whether it holds the number itself or not. -/
theorem putWord_exact {n : Nat} (hroom : 4 ≤ b.arena.headroom) :
    Exact (putWord n) (putWord n) b
      (fun _ b' => b.Puts (b.order.encode 4 n) b' ∧ b'.arena.headroom = b.arena.headroom - 4) := by
  have hlen : (b.order.encode 4 n).length = 4 := ByteOrder.length_encode ..
  refine .get_bind ((put_exact hb (by omega)).mono fun _ b' h => ⟨h.1, ?_⟩)
  rw [h.2.1, hlen]

theorem putWordInWords_exact {n : Nat} (hn : n < valueCount 4) (hroom : 4 ≤ b.arena.headroom) :
    Exact (putWordInWords n) (putWord n) b
      (fun _ b' => b.Puts (b.order.encode 4 n) b' ∧ b'.arena.headroom = b.arena.headroom - 4) :=
  .check_bind (b.order.holds_of_lt hn) (putWord_exact hb hroom)

/-- No sum on the way to a piece of moderate size leaves the machine word. -/
theorem prep_exact {size additional : Nat} (hsize : size < sizeLimit) (hadditional : additional ≤ sizeLimit) :
    Exact (prepInWords size additional) (prep size additional) b
      (fun _ b' => b.Puts (zeros (padding (b.offset + additional) size)) b' ∧
        size + additional ≤ b'.arena.headroom) := by
  have hprep : Exact (prepInWords size additional) (prep size additional) b fun _ _ => True := by
    unfold prepInWords prep
    refine (requireUnfinished_exact hb).bind fun _ b' _ h => ?_
    obtain ⟨rfl, -⟩ := h
    refine .ite (fun _ => fail_exact hb _) fun hsized => ?_
    have hpower : isPowerOfTwo size = true := by simpa using hsized
    -- The alignment is raised first, and stays raised if there is no room.
    have hraised : Builder.Regular { b' with minAlign := max b'.minAlign size } :=
      { hb with
        minAlign := isPowerOfTwo_max hb.minAlign hpower
        minAlign_lt := Nat.max_lt.2 ⟨hb.minAlign_lt, hsize⟩ }
    refine .modify_bind (.offset_bind ?_)
    generalize ({ b' with minAlign := max b'.minAlign size } : Builder) = c at hraised ⊢
    have hoffset := hraised.offset_le
    have hpad := padding_lt (c.offset + additional) (pos_of_isPowerOfTwo hpower)
    have hword : wordLimit = 18446744073709551616 := rfl
    rw [sizeLimit] at hsize hadditional
    rw [sumInWords_bind (by omega), sumInWords_bind (by omega), sumInWords_bind (by omega)]
    dsimp only
    rw [if_neg (by omega)]
    refine (reserve_exact hraised (by omega)).bind fun _ b1 hb1 h => ?_
    obtain ⟨-, hroom, -⟩ := h
    refine (put_exact hb1 ?_).forget
    rw [List.length_replicate]
    omega
  exact (hprep.and (prep_ends b size additional)).mono fun _ _ h => ⟨h.2.1, h.2.2.2.1⟩

theorem pad_exact {n : Nat} (hn : n < sizeLimit) : Exact (padInWords n) (pad n) b fun _ _ => True := by
  unfold padInWords pad
  refine (requireUnfinished_exact hb).bind fun _ b' _ h => ?_
  obtain ⟨rfl, -⟩ := h
  have hoffset := hb.offset_le
  rw [sizeLimit] at hn
  refine (reserve_exact hb (by rw [wordLimit]; omega)).bind fun _ b1 hb1 h => ?_
  exact (put_exact hb1 (by simpa using h.2.1)).forget

theorem push_exact (ty : ScalarType) (v : ty.Value) :
    Exact (pushInWords ty v) (push ty v) b
      (fun position b' => position = b'.offset ∧
        b.Puts (ty.encode b.order v ++ zeros (padding b.offset ty.size)) b') := by
  have hpush : Exact (pushInWords ty v) (push ty v) b fun _ _ => True := by
    refine (prep_exact hb ty.size_lt (Nat.zero_le _)).bind fun _ b1 hb1 h => .get_bind ?_
    refine (put_exact hb1 (by simpa using h.2)).bind fun _ b2 hb2 _ => ?_
    exact (offset_exact hb2).forget
  exact (hpush.and (push_ends b ty v)).mono fun _ _ h => ⟨h.2.2.2.1, h.2.1⟩

/-- A reference holds the distance itself when its target is written. -/
theorem putReference_exact {target : Nat} (htarget : target ≤ b.offset) (hroom : 4 ≤ b.arena.headroom) :
    Exact (putReferenceInWords target) (do putWord ((← offset) - target + 4)) b
      (fun _ b' => b.Puts (b.order.encode 4 (b.offset - target + 4)) b' ∧
        b'.arena.headroom = b.arena.headroom - 4) := by
  have hoffset := hb.offset_le
  have hword : valueCount 4 = 4294967296 := rfl
  refine .offsetInWords_bind hb ?_
  rw [differenceInWords_bind htarget]
  exact putWordInWords_exact hb (by omega) hroom

theorem pushReference_exact {target : Nat} (htarget : target ≤ b.offset) :
    Exact (pushReferenceInWords target) (pushReference target) b
      (fun _ b' => ∃ bytes, 4 ≤ bytes.length ∧ b.Puts bytes b') := by
  unfold pushReferenceInWords pushReference
  refine (prep_exact hb (by decide) (Nat.zero_le _)).bind fun _ b1 hb1 h => ?_
  obtain ⟨h1, hroom⟩ := h
  have hgrown := h1.keeps.offset_le
  refine (putReference_exact hb1 (Nat.le_trans htarget hgrown) hroom).mono fun _ b2 h => ⟨_, ?_, h1.trans h.1⟩
  rw [List.length_append, ByteOrder.length_encode]
  omega

theorem pushOffset_exact {kind : OffsetKind} (target : Offset kind) :
    Exact (pushOffsetInWords target) (pushOffset target) b fun _ _ => True := by
  refine .offsetInWords_bind hb ((requireWritten_exact hb _ _ _).bind fun _ b' _ h => ?_)
  obtain ⟨rfl, htarget⟩ := h
  refine (pushReference_exact hb htarget).bind fun _ b1 hb1 _ => ?_
  exact (offset_exact hb1).forget

end Bytes

end Build

end TableBuffer
