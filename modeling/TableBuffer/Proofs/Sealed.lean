import TableBuffer.Proofs.Mirror

/-!
# A finished builder stays as it is

Every call that writes looks at the stage before it does anything. At most it looks at its own arguments
first. A finished builder therefore refuses all of them, and nothing but a reset changes it.
-/

namespace TableBuffer

/-- The calls that put something into the buffer, or are about to. -/
def Call.Writes : Call → Prop
  | reset | required .. | finishedData => False
  | _ => True

/-- What is wrong with the arguments that a call looks at before it looks at the stage. `offset` is the
number of bytes written. -/
def Call.badArgument? (offset : Nat) : Call → Option Error
  | pushOffset target =>
    if target = 0 ∨ offset < target then some (.invalidOperation (.notWritten .pushOffset target offset))
    else none
  | addUnion typeSlot valueSlot _ =>
    if valueSlot = typeSlot then some (.invalidArgument .sharedSlot) else none
  | createByteVectorAligned _ alignment =>
    if !(isPowerOfTwo alignment && alignment ≤ 8) then some (.invalidArgument .alignment) else none
  | createVectorOfStructs layout _ =>
    if layout.size = 0 then some (.invalidArgument .structSize) else none
  | _ => none

/-- How a finished builder answers a call that writes. -/
def Call.refusal (c : Call) (offset : Nat) : Error := (c.badArgument? offset).getD .alreadyFinished

namespace Build

variable {α β : Type} {b : Builder} {e : Error}

/-- The step fails and leaves the builder as it was. -/
def Refuses (x : Build α) (b : Builder) (e : Error) : Prop := x b = .error (.error e) b

/-- Where the first step refuses, nothing comes after it. -/
theorem Refuses.bind {x : Build α} {k : α → Build β} (h : Refuses x b e) : Refuses (x >>= k) b e := by
  have hx : x b = .error (.error e) b := h
  simp only [Refuses, Bind.bind, EStateM.bind, hx]

/-- A check of the arguments may come before the check of the stage. -/
theorem Refuses.unless {c : Prop} [Decidable c] {x y : Build α} (hx : Refuses x b e)
    (hy : Refuses y b .alreadyFinished) :
    Refuses (if c then x else y) b ((if c then some e else none).getD .alreadyFinished) := by
  split
  · exact hx
  · exact hy

section Finished

variable (hstage : b.stage = .finished)

include hstage

theorem requireUnfinished_refuses : Refuses requireUnfinished b .alreadyFinished := by
  have hfinished : b.isFinished = true := by
    rw [Builder.isFinished, hstage]
    rfl
  unfold Refuses requireUnfinished
  rw [get_bind, hfinished]
  rfl

theorem requireIdle_refuses (op : Operation) : Refuses (requireIdle op) b .alreadyFinished := by
  unfold Refuses requireIdle
  rw [get_bind, hstage]
  rfl

theorem openObject_refuses (op : Operation) : Refuses (openObject op) b .alreadyFinished := by
  unfold Refuses openObject
  rw [get_bind, hstage]
  rfl

theorem prep_refuses (size additional : Nat) : Refuses (prep size additional) b .alreadyFinished :=
  (requireUnfinished_refuses hstage).bind

theorem startVector_refuses (elementSize count alignment : Nat) :
    Refuses (startVector elementSize count alignment) b .alreadyFinished :=
  (requireIdle_refuses hstage _).bind

theorem openSlot_refuses (op : Operation) (slot : Nat) : Refuses (openSlot op slot) b .alreadyFinished :=
  (openObject_refuses hstage op).bind

theorem createByteVectorAligned_refuses (bytes : List UInt8) (alignment : Nat) :
    Refuses (createByteVectorAligned bytes alignment) b
      ((Call.createByteVectorAligned bytes alignment).refusal b.offset) :=
  .unless rfl (startVector_refuses hstage _ _ _).bind

theorem pushOffset_refuses (target : Nat) :
    Refuses (pushOffset (⟨target⟩ : Offset .table)) b ((Call.pushOffset target).refusal b.offset) := by
  change Refuses (requireWritten .pushOffset target b.offset >>= fun _ => do pushReference target; offset) b _
  by_cases hwritten : target = 0 ∨ b.offset < target
  · have herror : (Call.pushOffset target).refusal b.offset =
        .invalidOperation (.notWritten .pushOffset target b.offset) := by
      rw [Call.refusal, Call.badArgument?, if_pos hwritten, Option.getD_some]
    rw [herror, requireWritten, if_pos hwritten]
    rfl
  · have herror : (Call.pushOffset target).refusal b.offset = .alreadyFinished := by
      rw [Call.refusal, Call.badArgument?, if_neg hwritten, Option.getD_none]
    rw [herror, requireWritten, if_neg hwritten]
    exact (prep_refuses hstage _ _).bind.bind

/-- Every call that writes is refused before it has done anything. -/
theorem step_refuses {c : Call} (hc : c.Writes) : Refuses c.step b (c.refusal b.offset) := by
  cases c with
  | reset => cases hc
  | required table slot => cases hc
  | finishedData => cases hc
  | prep size additional => exact (prep_refuses hstage _ _).bind
  | pad n => exact (requireUnfinished_refuses hstage).bind.bind
  | push ty v => exact (prep_refuses hstage _ _).bind.bind
  | pushOffset target => exact (pushOffset_refuses hstage target).bind
  | startObject slots => exact (requireIdle_refuses hstage _).bind.bind
  | addScalar slot ty v default => exact (openSlot_refuses hstage _ _).bind.bind
  | addScalarAlways slot ty v => exact (openSlot_refuses hstage _ _).bind.bind
  | addOffset slot target => exact (openSlot_refuses hstage _ _).bind.bind
  | createStruct layout v => exact (prep_refuses hstage _ _).bind.bind
  | addStruct slot struct => exact (openSlot_refuses hstage _ _).bind.bind
  | addUnion typeSlot valueSlot union =>
    have hunion : Refuses (addUnion typeSlot valueSlot union) b
        ((Call.addUnion typeSlot valueSlot union).refusal b.offset) :=
      .unless rfl (openSlot_refuses hstage _ _).bind
    exact hunion.bind
  | endObject => exact (openObject_refuses hstage _).bind.bind
  | startVector elementSize count alignment => exact (startVector_refuses hstage _ _ _).bind
  | endVector => exact (requireUnfinished_refuses hstage).bind.bind.bind
  | createVector ty items => exact (startVector_refuses hstage _ _ _).bind.bind
  | createByteVector bytes => exact (createByteVectorAligned_refuses hstage bytes 1).bind
  | createByteVectorAligned bytes alignment => exact (createByteVectorAligned_refuses hstage _ _).bind
  | createVectorOfOffsets targets => exact (requireIdle_refuses hstage _).bind.bind
  | createVectorOfStructs layout items =>
    have hstructs : Refuses (createVectorOfStructs layout items) b
        ((Call.createVectorOfStructs layout items).refusal b.offset) :=
      .unless rfl (startVector_refuses hstage _ _ _).bind
    exact hstructs.bind
  | createString s => exact (requireIdle_refuses hstage _).bind.bind
  | createByteString bytes => exact (requireIdle_refuses hstage _).bind.bind
  | createNestedBuffer bytes => exact (createByteVectorAligned_refuses hstage bytes 8).bind
  | finish root identifier => exact (requireIdle_refuses hstage _).bind.bind
  | finishSizePrefixed root identifier => exact (requireIdle_refuses hstage _).bind.bind

end Finished

end Build

namespace Builder

variable {b : Builder}

theorem stage_of_isFinished (h : b.isFinished = true) : b.stage = .finished := eq_of_beq h

theorem call_of_writes {c : Call} (h : b.isFinished = true) (hc : c.Writes) :
    b.call c = (.error (.error (c.refusal b.offset)), b) := by
  have hrefuses : c.step b = .error (.error (c.refusal b.offset)) b :=
    Build.step_refuses (stage_of_isFinished h) hc
  rw [call, hrefuses]

/-- A question about a table leaves the builder as it was. -/
theorem call_required (b : Builder) (table slot : Nat) : (b.call (.required table slot)).2 = b := by
  have hends : Build.Ends (Call.required table slot).step b (fun _ b' => b' = b) (fun _ b' => b' = b) := by
    rw [Call.step, Build.ends_silent]
    exact (Build.required_ends b ⟨table⟩ slot).mono (fun _ _ h => h) fun _ _ h => h.1
  cases hcall : b.call (.required table slot) with
  | mk outcome b' =>
    cases outcome with
    | ok reply => exact hends.of_call_ok hcall
    | error f => exact hends.of_call_error hcall

/-- Nothing but a reset changes a finished builder. -/
theorem call_of_finished (h : b.isFinished = true) {c : Call} (hc : c ≠ .reset) : (b.call c).2 = b := by
  by_cases hwrites : c.Writes
  · rw [call_of_writes h hwrites]
  · cases c with
    | reset => exact absurd rfl hc
    | required table slot => exact b.call_required table slot
    | finishedData => rw [call_finishedData]
    | _ => exact absurd trivial hwrites

/-- A finished builder answers each of the calls as if it were the only one, up to the first fault. -/
theorem run_of_finished (h : b.isFinished = true) {calls : List Call} (hreset : Call.reset ∉ calls) :
    (b.run calls).2 = b ∧ (b.run calls).1 <+: calls.map fun c => (b.call c).1 := by
  induction calls with
  | nil => exact ⟨rfl, List.prefix_rfl⟩
  | cons c calls ih =>
    have hsame : b.call c = ((b.call c).1, b) :=
      Prod.ext rfl (call_of_finished h fun hc => hreset (hc ▸ List.mem_cons_self ..))
    have ih := ih fun hmem => hreset (List.mem_cons_of_mem _ hmem)
    by_cases hf : (b.call c).1 = .error .fault
    · rw [hf] at hsame
      rw [run_fault hsame, List.map_cons, hf]
      exact ⟨rfl, List.prefix_cons_inj .. |>.2 (List.nil_prefix ..)⟩
    · rw [run_cons hsame hf, List.map_cons]
      exact ⟨ih.1, (List.prefix_cons_inj _).2 ih.2⟩

/-- Finishing is for good. Until a reset, whatever is called in whatever order, the builder is the very same,
so that all that can be asked of it is answered as before. Each call that writes is refused when its turn
comes, by a complaint about its arguments or because the buffer is finished. -/
theorem finished_for_good {b : Builder} (h : b.isFinished = true) {calls : List Call}
    (hreset : Call.reset ∉ calls) :
    (b.run calls).2 = b ∧ ((b.run calls).1 <+: calls.map fun c => (b.call c).1) ∧
    ∀ before c after, calls = before ++ c :: after → c.Writes →
      (b.run before).2.call c = (.error (.error (c.refusal b.offset)), b) := by
  obtain ⟨hsame, houtcomes⟩ := run_of_finished h hreset
  refine ⟨hsame, houtcomes, fun before c after hcalls hwrites => ?_⟩
  have hbefore : Call.reset ∉ before := fun hmem => hreset (hcalls ▸ List.mem_append_left _ hmem)
  rw [(run_of_finished h hbefore).1]
  exact call_of_writes h hwrites

/-- Half a union, nothing at all and a vector without elements are refused as well. -/
theorem finished_for_good_one_table :
    let b := ((new .little).run (oneTable 8)).2
    let calls : List Call := [.addUnion 0 0 .none, .addUnion 0 1 .none, .required 8 0, .createVector .u8 []]
    b.isFinished = true ∧ (b.run calls).2 = b ∧
      (b.run calls).1 = [.error (.error (.invalidArgument .sharedSlot)), .error (.error .alreadyFinished),
        .ok .done, .error (.error .alreadyFinished)] := by
  intro b calls
  have hfinished : b.isFinished = true := by decide +kernel
  have hreset : Call.reset ∉ calls := by simp [calls]
  have hsame := (finished_for_good hfinished hreset).1
  exact ⟨hfinished, hsame, by decide +kernel⟩

end Builder

end TableBuffer
