import TableBuffer.Proofs.Runs

/-!
# The strictest alignment is a machine word

A builder raises its alignment before it knows whether there is room, so a call that fails can leave it raised. But
what a piece asks for includes its alignment, and a sum that is no machine word is a fault. So no reachable builder
has an alignment past the machine words. `KeepsWord` says so of a step, and the calls are put together from their
steps.
-/

namespace TableBuffer

namespace Build

variable {α β : Type}

/-- Run where the strictest alignment is a machine word, the step leaves one again, unless it faults. -/
def KeepsWord (x : Build α) : Prop :=
  ∀ b : Builder, b.minAlign < wordLimit →
    Ends x b (fun _ b' => b'.minAlign < wordLimit) (fun f b' => f ≠ .fault → b'.minAlign < wordLimit)

section Rules

variable {x y : Build α}

theorem keepsWord_of_same
    (h : ∀ b, Ends x b (fun _ b' => b'.minAlign = b.minAlign) (fun _ b' => b'.minAlign = b.minAlign)) : KeepsWord x :=
  fun b hb => (h b).mono (fun _ _ h => h ▸ hb) fun _ _ h _ => h ▸ hb

theorem KeepsWord.bind {f : α → Build β} (hx : KeepsWord x) (hf : ∀ a, KeepsWord (f a)) : KeepsWord (x >>= f) :=
  fun b hb => ends_bind.2 ((hx b hb).mono (fun a b' h => hf a b' h) fun _ _ h => h)

theorem KeepsWord.ite {c : Prop} [Decidable c] (hx : KeepsWord x) (hy : KeepsWord y) :
    KeepsWord (if c then x else y) := fun b hb => ends_ite.2 ⟨fun _ => hx b hb, fun _ => hy b hb⟩

theorem pure_keepsWord (a : α) : KeepsWord (pure a) := fun _ hb => hb

theorem fail_keepsWord (e : Error) : KeepsWord (fail e : Build α) := fun _ hb _ => hb

theorem get_keepsWord : KeepsWord get := fun _ hb => hb

theorem offset_keepsWord : KeepsWord offset := fun _ hb => hb

theorem setStage_keepsWord (stage : Stage) : KeepsWord (setStage stage) := fun _ hb => hb

theorem forM_keepsWord {items : List α} {f : α → Build Unit} (hf : ∀ a, KeepsWord (f a)) :
    KeepsWord (items.forM f) := by
  induction items with
  | nil => exact pure_keepsWord ()
  | cons a items ih => exact (hf a).bind fun _ => ih

end Rules

theorem requireUnfinished_keepsWord : KeepsWord requireUnfinished :=
  get_keepsWord.bind fun _ => .ite (fail_keepsWord _) (pure_keepsWord _)

theorem requireIdle_keepsWord (op : Operation) : KeepsWord (requireIdle op) :=
  get_keepsWord.bind fun b => by
    split
    · exact pure_keepsWord _
    all_goals exact fail_keepsWord _

theorem openObject_keepsWord (op : Operation) : KeepsWord (openObject op) :=
  get_keepsWord.bind fun b => by
    split
    · exact pure_keepsWord _
    all_goals exact fail_keepsWord _

theorem requireWritten_keepsWord (op : Operation) (target bound : Nat) : KeepsWord (requireWritten op target bound) :=
  .ite (fail_keepsWord _) (pure_keepsWord _)

theorem reserve_keepsWord (n : Nat) : KeepsWord (reserve n) :=
  keepsWord_of_same fun b => (reserve_ends b n).mono (fun _ _ h => h.2.2) fun _ _ h => congrArg _ h.1

theorem put_keepsWord (bytes : List UInt8) : KeepsWord (put bytes) :=
  keepsWord_of_same fun b => (put_ends b bytes).mono (fun _ _ h => h.2.2) fun _ _ h => congrArg _ h.1

theorem putWord_keepsWord (n : Nat) : KeepsWord (putWord n) := get_keepsWord.bind fun _ => put_keepsWord _

/-- The alignment is one of the summands of the room that is asked for. -/
theorem prep_keepsWord (size additional : Nat) : KeepsWord (prep size additional) := by
  unfold prep
  refine requireUnfinished_keepsWord.bind fun _ => .ite (fail_keepsWord _) fun b hb => ?_
  simp only [ends_ite, ends_bind, ends_modify, ends_offset, ends_fault]
  refine ⟨fun _ hfault => absurd rfl hfault, fun hwords => ?_⟩
  refine ends_bind.1 ((reserve_keepsWord _).bind (fun _ => put_keepsWord _) _ ?_)
  show max b.minAlign size < wordLimit
  omega

theorem pad_keepsWord (n : Nat) : KeepsWord (pad n) :=
  requireUnfinished_keepsWord.bind fun _ => (reserve_keepsWord n).bind fun _ => put_keepsWord _

theorem push_keepsWord (ty : ScalarType) (v : ty.Value) : KeepsWord (push ty v) :=
  (prep_keepsWord _ _).bind fun _ => get_keepsWord.bind fun _ => (put_keepsWord _).bind fun _ => offset_keepsWord

theorem pushReference_keepsWord (target : Nat) : KeepsWord (pushReference target) :=
  (prep_keepsWord _ _).bind fun _ => offset_keepsWord.bind fun _ => putWord_keepsWord _

theorem pushOffset_keepsWord {kind : OffsetKind} (target : Offset kind) : KeepsWord (pushOffset target) :=
  offset_keepsWord.bind fun _ => (requireWritten_keepsWord _ _ _).bind fun _ =>
    (pushReference_keepsWord _).bind fun _ => offset_keepsWord

section Tables

theorem startObject_keepsWord (slots : Nat) : KeepsWord (startObject slots) :=
  (requireIdle_keepsWord _).bind fun _ => .ite (fail_keepsWord _) (offset_keepsWord.bind fun _ => setStage_keepsWord _)

theorem openSlot_keepsWord (op : Operation) (slot : Nat) : KeepsWord (openSlot op slot) :=
  (openObject_keepsWord op).bind fun _ => .bind
    (.ite (fail_keepsWord _) (.ite (fail_keepsWord _) (pure_keepsWord _))) fun _ => pure_keepsWord _

theorem storeField_keepsWord (o : OpenObject) (slot size : Nat) : KeepsWord (storeField o slot size) :=
  offset_keepsWord.bind fun _ => setStage_keepsWord _

theorem addScalar_keepsWord (slot : Nat) (ty : ScalarType) (v default : ty.Value) :
    KeepsWord (addScalar slot ty v default) :=
  (openSlot_keepsWord _ slot).bind fun _ => get_keepsWord.bind fun _ => .ite (pure_keepsWord _)
    ((push_keepsWord ty v).bind fun _ => storeField_keepsWord _ _ _)

theorem addScalarAlways_keepsWord (slot : Nat) (ty : ScalarType) (v : ty.Value) :
    KeepsWord (addScalarAlways slot ty v) :=
  (openSlot_keepsWord _ slot).bind fun _ => (push_keepsWord ty v).bind fun _ => storeField_keepsWord _ _ _

theorem addOffset_keepsWord {kind : OffsetKind} (slot : Nat) (target : Offset kind) :
    KeepsWord (addOffset slot target) :=
  (openSlot_keepsWord _ slot).bind fun _ => (requireWritten_keepsWord _ _ _).bind fun _ =>
    (pushReference_keepsWord _).bind fun _ => storeField_keepsWord _ _ _

theorem createStruct_keepsWord (layout : StructLayout) (v : layout.Value) : KeepsWord (createStruct layout v) :=
  (prep_keepsWord _ _).bind fun _ => get_keepsWord.bind fun _ => (put_keepsWord _).bind fun _ => fun _ hb => hb

theorem addStruct_keepsWord (slot : Nat) (struct : Offset .struct) : KeepsWord (addStruct slot struct) :=
  (openSlot_keepsWord _ slot).bind fun _ => offset_keepsWord.bind fun _ => .ite (fail_keepsWord _)
    (get_keepsWord.bind fun _ => storeField_keepsWord _ _ _)

theorem addUnion_keepsWord (typeSlot valueSlot : Nat) (union : UnionOffset) :
    KeepsWord (addUnion typeSlot valueSlot union) := by
  unfold addUnion
  refine .ite (fail_keepsWord _) ?_
  refine (openSlot_keepsWord _ _).bind fun _ => (openSlot_keepsWord _ _).bind fun _ => ?_
  cases union with
  | none => exact pure_keepsWord _
  | some tag payload htag => exact (addOffset_keepsWord _ _).bind fun _ => addScalarAlways_keepsWord _ _ _

theorem sharedVTable?_keepsWord (vtable : List UInt8) : KeepsWord (sharedVTable? vtable) := by
  intro b hb
  unfold sharedVTable?
  rw [ends_bind, ends_get, ends_ite]
  exact ⟨fun _ => hb, fun _ => hb⟩

theorem writeVTable_keepsWord (vtable : List UInt8) : KeepsWord (writeVTable vtable) :=
  (prep_keepsWord _ _).bind fun _ => (put_keepsWord _).bind fun _ => offset_keepsWord.bind fun _ => fun _ hb => hb

theorem patch_keepsWord (position : Nat) (bytes : List UInt8) : KeepsWord (patch position bytes) := by
  intro b hb
  unfold patch
  rw [ends_bind, ends_get]
  split
  · exact hb
  · exact fun _ => hb

theorem endObject_keepsWord : KeepsWord endObject := by
  unfold endObject
  refine (openObject_keepsWord _).bind fun _ => (push_keepsWord _ _).bind fun _ => .ite (fail_keepsWord _) ?_
  refine get_keepsWord.bind fun _ => (setStage_keepsWord _).bind fun _ => ?_
  refine (sharedVTable?_keepsWord _).bind fun found => ?_
  cases found with
  | some position => exact (patch_keepsWord _ _).bind fun _ => pure_keepsWord _
  | none => exact (writeVTable_keepsWord _).bind fun _ => (patch_keepsWord _ _).bind fun _ => pure_keepsWord _

theorem required_keepsWord (table : Offset .table) (slot : Nat) : KeepsWord (required table slot) := by
  intro b hb
  unfold required
  rw [ends_bind, ends_get, ends_ite]
  refine ⟨fun _ _ => hb, fun _ => ?_⟩
  dsimp only
  split
  · exact hb
  all_goals exact fun _ => hb

end Tables

section Vectors

theorem startVector_keepsWord (elementSize count alignment : Nat) :
    KeepsWord (startVector elementSize count alignment) := by
  unfold startVector
  refine (requireIdle_keepsWord _).bind fun _ => .ite (fail_keepsWord _) ?_
  refine (prep_keepsWord _ _).bind fun _ => (prep_keepsWord _ _).bind fun _ => ?_
  exact offset_keepsWord.bind fun _ => setStage_keepsWord _

theorem takeVector_keepsWord : KeepsWord takeVector := by
  unfold takeVector
  refine requireUnfinished_keepsWord.bind fun _ => get_keepsWord.bind fun _ => ?_
  split
  · exact (setStage_keepsWord _).bind fun _ => pure_keepsWord _
  · exact fail_keepsWord _

theorem endVector_keepsWord : KeepsWord endVector := by
  unfold endVector
  refine takeVector_keepsWord.bind fun _ => offset_keepsWord.bind fun _ => .ite (fail_keepsWord _) ?_
  refine (reserve_keepsWord _).bind fun _ => (putWord_keepsWord _).bind fun _ => ?_
  exact offset_keepsWord.bind fun _ => pure_keepsWord _

theorem createVector_keepsWord (ty : ScalarType) (items : List ty.Value) : KeepsWord (createVector ty items) :=
  (startVector_keepsWord _ _ _).bind fun _ => get_keepsWord.bind fun _ => (put_keepsWord _).bind fun _ =>
    endVector_keepsWord

theorem createByteVectorAligned_keepsWord (bytes : List UInt8) (alignment : Nat) :
    KeepsWord (createByteVectorAligned bytes alignment) :=
  .ite (fail_keepsWord _)
    ((startVector_keepsWord _ _ _).bind fun _ => (put_keepsWord _).bind fun _ => endVector_keepsWord)

theorem createVectorOfOffsets_keepsWord {kind : OffsetKind} (items : List (Offset kind)) :
    KeepsWord (createVectorOfOffsets items) := by
  unfold createVectorOfOffsets
  refine (requireIdle_keepsWord _).bind fun _ => offset_keepsWord.bind fun _ => ?_
  refine (forM_keepsWord fun _ => requireWritten_keepsWord _ _ _).bind fun _ => ?_
  refine (startVector_keepsWord _ _ _).bind fun _ => ?_
  exact (forM_keepsWord fun _ => offset_keepsWord.bind fun _ => putWord_keepsWord _).bind fun _ => endVector_keepsWord

theorem createVectorOfStructs_keepsWord (layout : StructLayout) (items : List layout.Value) :
    KeepsWord (createVectorOfStructs layout items) :=
  .ite (fail_keepsWord _)
    ((startVector_keepsWord _ _ _).bind fun _ => get_keepsWord.bind fun _ => (put_keepsWord _).bind fun _ =>
      endVector_keepsWord)

theorem createByteString_keepsWord (bytes : List UInt8) : KeepsWord (createByteString bytes) := by
  unfold createByteString
  refine (requireIdle_keepsWord _).bind fun _ => (prep_keepsWord _ _).bind fun _ => ?_
  refine (put_keepsWord _).bind fun _ => (put_keepsWord _).bind fun _ => (reserve_keepsWord _).bind fun _ => ?_
  exact (putWord_keepsWord _).bind fun _ => offset_keepsWord.bind fun _ => pure_keepsWord _

end Vectors

theorem finishWith_keepsWord (root : Offset .table) (identifier : Option Identifier) (sizePrefixed : Bool) :
    KeepsWord (finishWith root identifier sizePrefixed) := by
  have hseal : KeepsWord (do
      pushReference root.value
      if sizePrefixed then
        let size ← offset
        reserve 4
        putWord size
      setStage .finished) :=
    (pushReference_keepsWord _).bind fun _ => .ite
      (offset_keepsWord.bind fun _ => (reserve_keepsWord _).bind fun _ => (putWord_keepsWord _).bind fun _ =>
        setStage_keepsWord _) (setStage_keepsWord _)
  unfold finishWith
  refine (requireIdle_keepsWord _).bind fun _ => offset_keepsWord.bind fun _ => ?_
  refine (requireWritten_keepsWord _ _ _).bind fun _ => get_keepsWord.bind fun _ => ?_
  refine (prep_keepsWord _ _).bind fun _ => ?_
  cases identifier with
  | none => exact hseal
  | some id => exact (put_keepsWord _).bind fun _ => hseal

theorem KeepsWord.silent {step : Build Unit} (h : KeepsWord step) : KeepsWord (silent step) :=
  h.bind fun _ => pure_keepsWord _

theorem KeepsWord.located {kind : OffsetKind} {step : Build (Offset kind)} (h : KeepsWord step) :
    KeepsWord (located step) :=
  h.bind fun _ => pure_keepsWord _

theorem KeepsWord.placed {step : Build Nat} (h : KeepsWord step) : KeepsWord (placed step) :=
  h.bind fun _ => pure_keepsWord _

end Build

open Build in
/-- No call leaves an alignment that is no machine word, unless it faults. -/
theorem Call.step_keepsWord (c : Call) : KeepsWord c.step := by
  cases c with
  | reset => exact fun _ _ => (by decide : 1 < wordLimit)
  | prep size additional => exact (prep_keepsWord size additional).silent
  | pad n => exact (pad_keepsWord n).silent
  | push ty v => exact (push_keepsWord ty v).placed
  | pushOffset target => exact (pushOffset_keepsWord _).placed
  | startObject slots => exact (startObject_keepsWord slots).silent
  | addScalar slot ty v default => exact (addScalar_keepsWord slot ty v default).silent
  | addScalarAlways slot ty v => exact (addScalarAlways_keepsWord slot ty v).silent
  | addOffset slot target => exact (addOffset_keepsWord slot _).silent
  | createStruct layout v => exact (createStruct_keepsWord layout v).located
  | addStruct slot struct => exact (addStruct_keepsWord slot _).silent
  | addUnion typeSlot valueSlot union => exact (addUnion_keepsWord typeSlot valueSlot union).silent
  | endObject => exact endObject_keepsWord.located
  | required table slot => exact (required_keepsWord _ slot).silent
  | startVector elementSize count alignment => exact (startVector_keepsWord elementSize count alignment).silent
  | endVector => exact endVector_keepsWord.located
  | createVector ty items => exact (createVector_keepsWord ty items).located
  | createByteVector bytes => exact (createByteVectorAligned_keepsWord bytes 1).located
  | createByteVectorAligned bytes alignment => exact (createByteVectorAligned_keepsWord bytes alignment).located
  | createVectorOfOffsets targets => exact (createVectorOfOffsets_keepsWord _).located
  | createVectorOfStructs layout items => exact (createVectorOfStructs_keepsWord layout items).located
  | createString s => exact (createByteString_keepsWord _).located
  | createByteString bytes => exact (createByteString_keepsWord bytes).located
  | createNestedBuffer bytes => exact (createByteVectorAligned_keepsWord bytes 8).located
  | finish root identifier => exact (finishWith_keepsWord _ identifier false).silent
  | finishSizePrefixed root identifier => exact (finishWith_keepsWord _ identifier true).silent
  | finishedData =>
    refine get_keepsWord.bind fun b => ?_
    split
    · exact pure_keepsWord _
    · exact fail_keepsWord _

/-- The strictest alignment of a reachable builder is a machine word. -/
theorem Builder.Reachable.minAlign_lt {b : Builder} (h : b.Reachable) : b.minAlign < wordLimit := by
  induction h with
  | start h =>
    obtain ⟨-, rfl⟩ := withOptions_eq_ok_iff.1 h
    exact (by decide : 1 < wordLimit)
  | @call b b' c outcome hb h hf ih =>
    have hends := c.step_keepsWord b ih
    cases outcome with
    | ok reply => exact hends.of_call_ok h
    | error f => exact hends.of_call_error h fun hfault => hf (congrArg Except.error hfault)

end TableBuffer
