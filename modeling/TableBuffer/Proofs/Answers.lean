import TableBuffer.Proofs.AlikeCalls
import TableBuffer.Proofs.Runs

/-!
# What answers depend on

The answers of a builder depend on its options and on the calls since it was made or reset, and on nothing
else: not on what was done before the reset, and not on the room it has. A higher limit shows only where the
lower one is in the way.
-/

namespace TableBuffer

namespace Builder

/-- What can be asked of a builder between two calls. -/
structure View where
  offset : Nat
  vtablesWritten : Nat
  isFinished : Bool
  finishedData : Except Error (List UInt8)
  intoFinished : Except Error (List UInt8)

def view (b : Builder) : View :=
  ⟨b.offset, b.vtablesWritten, b.isFinished, b.finishedData, b.intoFinished⟩

/-- No difference between the builders shows while both are given the same calls. -/
structure SameAnswers (b b' : Builder) (calls : List Call) : Prop where
  /-- Each call ends in the same reply or the same failure. -/
  outcomes : (b'.run calls).1 = (b.run calls).1
  /-- The same can be seen before the first call and after each of them. -/
  views : ∀ before, before <+: calls → (b'.run before).2.view = (b.run before).2.view
  /-- The same bytes are written in the end, whether the buffer is finished or not. -/
  written : (b'.run calls).2.arena.written = (b.run calls).2.arena.written

/-- Nothing is written, and nothing but the options is known. -/
structure Blank (order : ByteOrder) (options : Options) (b : Builder) : Prop where
  arena : b.arena.KeepsTo options.maxSize
  written : b.arena.written = []
  order : b.order = order
  options : b.options = options
  minAlign : b.minAlign = 1
  stage : b.stage = .idle
  vtables : b.vtables = .empty
  vtablesWritten : b.vtablesWritten = 0
  structSize : b.structSize = 0

/-- What calls leave as it is, even one that ends in a fault. -/
structure MadeWith (order : ByteOrder) (options : Options) (b : Builder) : Prop where
  arena : b.arena.KeepsTo options.maxSize
  order : b.order = order
  options : b.options = options

section Blank

variable {order : ByteOrder} {options : Options} {b : Builder}

theorem blank_withOptions (h : withOptions order options = .ok b) : b.Blank order options := by
  have hsound := sound_withOptions h
  obtain ⟨-, rfl⟩ := withOptions_eq_ok_iff.1 h
  exact ⟨⟨rfl, hsound.fits⟩, rfl, rfl, rfl, rfl, rfl, rfl, rfl, rfl⟩

theorem Blank.madeWith (h : b.Blank order options) : b.MadeWith order options :=
  ⟨h.arena, h.order, h.options⟩

/-- Whatever was done before, a reset leaves nothing but the room. -/
theorem MadeWith.reset (h : b.MadeWith order options) : b.reset.Blank order options :=
  ⟨h.arena.clear, rfl, h.order, h.options, rfl, rfl, rfl, rfl, rfl⟩

theorem MadeWith.call (h : b.MadeWith order options) (c : Call) : (b.call c).2.MadeWith order options := by
  by_cases hc : c = .reset
  · rw [hc]
    exact h.reset.madeWith
  · have hgrows := (call_extends b hc).toGrows
    exact ⟨⟨hgrows.limit.trans h.arena.limit_eq, hgrows.fits h.arena.fits⟩, hgrows.order.trans h.order,
      hgrows.options.trans h.options⟩

theorem MadeWith.run (h : b.MadeWith order options) (calls : List Call) :
    (b.run calls).2.MadeWith order options :=
  run_keeps (fun c _ _ h => h.call c) h

/-- Builders with nothing written differ in their room at most, apart from what their orders and options
differ in. -/
theorem Blank.alike {order' : ByteOrder} {options' : Options} {b' : Builder} (h : b.Blank order options)
    (h' : b'.Blank order' options') (hmax : options.maxSize ≤ options'.maxSize)
    (hlimit : options'.maxSize ≤ maxBufferSize) (hforce : options'.forceDefaults = options.forceDefaults)
    (hdedup : options'.dedupVTables = options.dedupVTables) :
    Alike ⟨options.maxSize, options'.maxSize, order, order'⟩ b b' where
  limit_le := hmax
  limit_lt := Nat.lt_of_le_of_lt hlimit (by decide)
  arena := h.arena
  arena' := h'.arena
  order := h.order
  order' := h'.order
  offset := by rw [offset, offset, Arena.size, Arena.size, h.written, h'.written]
  written := fun _ => h'.written.trans h.written.symm
  forceDefaults := by rw [h.options, h'.options, hforce]
  dedupVTables := by rw [h.options, h'.options, hdedup]
  minAlign := h'.minAlign.trans h.minAlign.symm
  stage := h'.stage.trans h.stage.symm
  vtables := by
    rw [h.vtables, h'.vtables]
    rfl
  vtablesWritten := h'.vtablesWritten.trans h.vtablesWritten.symm
  structSize := h'.structSize.trans h.structSize.symm

end Blank

section Alike

variable {p : Pairing} {b b' : Builder} {calls : List Call}

theorem Alike.view (h : Alike p b b') (ho : p.order = p.order') : b'.view = b.view := by
  rw [Builder.view, Builder.view, h.offset, h.vtablesWritten, h.isFinished, finishedData, finishedData,
    intoFinished, intoFinished, h.finishedBytes (h.written ho), h.finishedBytes (h.written ho)]

/-- A call ends alike, unless the lower limit refuses it room. -/
theorem Alike.call (h : Alike p b b') (c : Call) (hread : b.ReadsAlike b' c) :
    (b'.call c).1 = (b.call c).1 ∧ Alike p (b.call c).2 (b'.call c).2 ∨
      p.limit < p.limit' ∧ ∃ f : Failure, f.IsTooLarge ∧ (b.call c).1 = .error f := by
  have hagree := Build.step_agree h c hread
  unfold Builder.call
  generalize c.step b = r at hagree ⊢
  generalize c.step b' = r' at hagree ⊢
  cases hagree with
  | ok h => exact .inl ⟨rfl, h⟩
  | error h => exact .inl ⟨rfl, h⟩
  | @refused f b1 _ hlt hf => exact .inr ⟨hlt, f, hf, rfl⟩

/-- Calls in a row end alike, up to the first that the lower limit refuses room. -/
theorem Alike.run (h : Alike p b b') (ho : p.order = p.order')
    (hroom : p.limit = p.limit' ∨ ∀ f : Failure, f.IsTooLarge → .error f ∉ (b.run calls).1) :
    (b'.run calls).1 = (b.run calls).1 ∧ Alike p (b.run calls).2 (b'.run calls).2 := by
  -- The builders stay alike from call to call; only a refusal could part them, and none comes.
  induction calls generalizing b b' with
  | nil => exact ⟨rfl, h⟩
  | cons c calls ih =>
    have hcall := h.call c (h.readsAlike ho c)
    rcases hb : b.call c with ⟨outcome, b1⟩
    rcases hb' : b'.call c with ⟨outcome', b1'⟩
    rw [hb, hb'] at hcall
    by_cases hf : outcome = .error .fault
    · rw [hf] at hb hcall
      obtain ⟨rfl, halike⟩ | ⟨-, f, hlarge, heq⟩ := hcall
      · rw [run_fault hb, run_fault hb']
        exact ⟨rfl, halike⟩
      · obtain ⟨requested, limit, rfl⟩ := hlarge
        cases heq
    · rw [run_cons hb hf] at hroom ⊢
      obtain ⟨rfl, halike⟩ | ⟨hlt, f, hlarge, heq⟩ := hcall
      · rw [run_cons hb' hf]
        have hrest := ih halike (hroom.imp_right fun hroom f hlarge hmem =>
          hroom f hlarge (List.mem_cons_of_mem _ hmem))
        exact ⟨congrArg (List.cons _) hrest.1, hrest.2⟩
      · rcases hroom with heq | hroom
        · exact absurd heq (Nat.ne_of_lt hlt)
        · exact absurd (heq ▸ List.mem_cons_self) (hroom f hlarge)

/-- The first calls of a run end as they do in the run. -/
theorem outcomes_append (b : Builder) (before after : List Call) :
    (b.run before).1 <+: (b.run (before ++ after)).1 := by
  induction before generalizing b with
  | nil => exact List.nil_prefix
  | cons c before ih =>
    cases hb : b.call c with
    | mk outcome b1 =>
      rw [List.cons_append]
      by_cases hf : outcome = .error .fault
      · rw [hf] at hb
        have hsame : b.run (c :: (before ++ after)) = b.run (c :: before) := by
          rw [run_fault hb, run_fault hb]
        exact hsame ▸ List.prefix_refl _
      · rw [run_cons hb hf, run_cons hb hf]
        exact List.cons_prefix_cons.2 ⟨rfl, ih b1⟩

theorem Alike.sameAnswers (h : Alike p b b') (ho : p.order = p.order')
    (hroom : p.limit = p.limit' ∨ ∀ f : Failure, f.IsTooLarge → .error f ∉ (b.run calls).1) :
    SameAnswers b b' calls where
  outcomes := (h.run ho hroom).1
  views before hbefore := by
    obtain ⟨after, rfl⟩ := hbefore
    have hmem := (outcomes_append b before after).subset
    exact (h.run ho (hroom.imp_right fun hroom f hlarge hf => hroom f hlarge (hmem hf))).2.view ho
  written := (h.run ho hroom).2.written ho

end Alike

variable {order : ByteOrder} {options : Options} {b b' : Builder}

/-- A builder that was reset acts as one that was just made, whatever was called before: calls may have
failed, even in a fault, and a table or a vector may have been left open. -/
theorem reset_acts_as_new (h : withOptions order options = .ok b) (history calls : List Call) :
    SameAnswers b (b.run history).2.reset calls := by
  have hvalid := (withOptions_eq_ok_iff.1 h).1
  have hblank := blank_withOptions h
  have hreset := (hblank.madeWith.run history).reset
  have halike := hblank.alike hreset (Nat.le_refl _) hvalid.maxSize_le rfl rfl
  exact halike.sameAnswers rfl (.inl rfl)

/-- Writes a table with one field and finishes the buffer with it. -/
def oneTable (root : Nat) : List Call :=
  [.startObject 1, .addScalarAlways 0 .u32 7, .endObject, .finish root none, .finishedData]

/-- Leaves a table open, and a call out of order besides. -/
def interrupted : List Call :=
  [.createString "stale", .startObject 1, .addScalarAlways 0 .u32 0xFFFFFFFF, .startVector 4 1 4]

theorem interrupted_acts_as_new :
    let b := ofOptions .little { initialCapacity := 8, maxSize := 64 }
    let c := (b.run interrupted).2
    c.stage = .object ⟨12, 1, [⟨0, 16, 4⟩]⟩ ∧
      c.reset.arena.stale = [0, 0, 0, 101, 108, 97, 116, 115, 0, 0, 0, 5, 255, 255, 255, 255] ∧
      SameAnswers b c.reset (oneTable 8) ∧
      (c.reset.run (oneTable 8)).1 = [.ok .done, .ok .done, .ok (.offset 8), .ok .done,
        .ok (.bytes [12, 0, 0, 0, 0, 0, 6, 0, 8, 0, 4, 0, 6, 0, 0, 0, 7, 0, 0, 0])] := by
  intro b c
  have hb : withOptions .little { initialCapacity := 8, maxSize := 64 } = .ok b := rfl
  have hsame : SameAnswers b c.reset (oneTable 8) := reset_acts_as_new hb interrupted (oneTable 8)
  exact ⟨by decide +kernel, by decide +kernel, hsame, hsame.outcomes.trans (by decide +kernel)⟩

/-- How much room a builder starts with is never seen. How much it may take is seen only by who is refused
room. -/
theorem room_is_unseen {capacity maxSize : Nat} (h : withOptions order options = .ok b)
    (h' : withOptions order { options with initialCapacity := capacity, maxSize := maxSize } = .ok b')
    (calls : List Call) :
    (maxSize = options.maxSize → SameAnswers b b' calls) ∧
      (options.maxSize ≤ maxSize →
        (∀ requested limit, .error (.error (.bufferTooLarge requested limit)) ∉ (b.run calls).1) →
        SameAnswers b b' calls) := by
  have hvalid := (withOptions_eq_ok_iff.1 h').1
  have halike (hmax : options.maxSize ≤ maxSize) : Alike ⟨options.maxSize, maxSize, order, order⟩ b b' :=
    (blank_withOptions h).alike (blank_withOptions h') hmax hvalid.maxSize_le rfl rfl
  constructor
  · intro heq
    exact (halike (Nat.le_of_eq heq.symm)).sameAnswers rfl (.inl heq.symm)
  · intro hmax hroom
    refine (halike hmax).sameAnswers rfl (.inr ?_)
    rintro f ⟨requested, limit, rfl⟩
    exact hroom requested limit

theorem oneTable_in_any_room :
    let start := fun capacity maxSize =>
      ofOptions .little { initialCapacity := capacity, maxSize := maxSize }
    let bytes : List UInt8 :=
      [12, 0, 0, 0, 0, 0, 6, 0, 8, 0, 4, 0, 6, 0, 0, 0, 7, 0, 0, 0, 0, 0, 0, 0, 0, 0, 0, 0]
    ((start 64 64).run (.pad 8 :: .pad 60 :: oneTable 16)).1 =
        [.ok .done, .error (.error (.bufferTooLarge 68 64)), .ok .done, .ok .done, .ok (.offset 16),
          .ok .done, .ok (.bytes bytes)] ∧
      ((start 5 100).run (.pad 8 :: oneTable 16)).1 =
        [.ok .done, .ok .done, .ok .done, .ok (.offset 16), .ok .done, .ok (.bytes bytes)] := by
  intro start bytes
  have hsmall : withOptions .little { initialCapacity := 0, maxSize := 64 } = .ok (start 0 64) := rfl
  have hwide : withOptions .little { initialCapacity := 64, maxSize := 64 } = .ok (start 64 64) := rfl
  have hlarge : withOptions .little { initialCapacity := 5, maxSize := 100 } = .ok (start 5 100) := rfl
  have hrun : ((start 0 64).run (.pad 8 :: oneTable 16)).1 =
      [.ok .done, .ok .done, .ok .done, .ok (.offset 16), .ok .done, .ok (.bytes bytes)] := by
    decide +kernel
  have hroom : ∀ requested limit, .error (.error (.bufferTooLarge requested limit)) ∉
      ((start 0 64).run (.pad 8 :: oneTable 16)).1 := by
    rw [hrun]
    simp
  constructor
  · exact ((room_is_unseen hsmall hwide _).1 rfl).outcomes.trans (by decide +kernel)
  · exact ((room_is_unseen hsmall hlarge _).2 (by decide) hroom).outcomes.trans hrun

end Builder

end TableBuffer
