import TableBuffer.Proofs.ExactCalls

/-!
# Calls of moderate size

No size that a call states is near the end of the machine words in practice. `Built` are the builders that such
calls lead to, however they end and whatever offsets they are given. In all of them what a builder remembers
agrees with what is written, and so no number of the next call is lost: it does what it does with all numbers
checked, and is no fault.
-/

namespace TableBuffer

/-- The sizes that a call states are moderate. `required` is none of these calls: it follows what is written at an
offset that may be any. -/
def Call.Moderate : Call → Prop
  | prep size additional => size < sizeLimit ∧ additional < sizeLimit
  | pad n => n < sizeLimit
  | createStruct layout _ => layout.size < sizeLimit ∧ layout.align < sizeLimit
  | startVector elementSize count alignment => elementSize * count < sizeLimit ∧ alignment < sizeLimit
  | createVector ty items => ty.size * items.length < sizeLimit
  | createByteVectorAligned bytes alignment => bytes.length < sizeLimit ∧ alignment < sizeLimit
  | createVectorOfOffsets targets => 4 * targets.length < sizeLimit
  | createVectorOfStructs layout items => layout.size * items.length < sizeLimit ∧ layout.align < sizeLimit
  | createString s => s.toUTF8.toList.length < sizeLimit
  | createByteVector bytes | createByteString bytes | createNestedBuffer bytes => bytes.length < sizeLimit
  | required .. => False
  | _ => True

section Calls

open Build

variable {b : Builder} {α : Type}

theorem Build.Exact.silent {y x : Build Unit} (h : Exact y x b fun _ _ => True) :
    Exact (Build.silent y) (Build.silent x) b fun _ _ => True :=
  h.bind fun _ _ hb' _ => pure_exact hb' trivial

theorem Build.Exact.located {kind : OffsetKind} {y x : Build (Offset kind)} (h : Exact y x b fun _ _ => True) :
    Exact (Build.located y) (Build.located x) b fun _ _ => True :=
  h.bind fun _ _ hb' _ => pure_exact hb' trivial

theorem Build.Exact.placed {y x : Build Nat} (h : Exact y x b fun _ _ => True) :
    Exact (Build.placed y) (Build.placed x) b fun _ _ => True :=
  h.bind fun _ _ hb' _ => pure_exact hb' trivial

/-- A builder on which nothing was called is regular. -/
theorem Builder.regular_of_blank {order : ByteOrder} {options : Options} (h : b.Blank order options)
    (hmax : options.maxSize ≤ maxBufferSize) : b.Regular := by
  refine
    { arena := h.options ▸ h.arena, maxSize_le := h.options ▸ hmax, stage := ?_, minAlign := ?_, minAlign_lt := ?_,
      structSize_le := ?_, vtables_le := ?_, hits_le := ?_, vtablesWritten_le := ?_ }
  · rw [h.stage]
    trivial
  · rw [h.minAlign, isPowerOfTwo_one]
  · rw [h.minAlign]
    decide
  · rw [h.structSize]
    exact Nat.zero_le _
  · rw [h.vtables]
    simp
  · rw [h.vtables]
    exact Nat.zero_le _
  · rw [h.vtablesWritten]
    exact Nat.zero_le _

theorem Builder.regular_withOptions {order : ByteOrder} {options : Options} (h : withOptions order options = .ok b) :
    b.Regular :=
  regular_of_blank (blank_withOptions h) (withOptions_eq_ok_iff.1 h).1.maxSize_le

theorem Builder.Regular.reset (hb : b.Regular) : b.reset.Regular := by
  have hmade : b.MadeWith b.order b.options := ⟨hb.arena, rfl, rfl⟩
  exact regular_of_blank hmade.reset hb.maxSize_le

/-- A call of moderate size is exact in every regular builder. -/
theorem Call.step_exact (hb : b.Regular) {c : Call} (hc : c.Moderate) :
    Exact c.stepInWords c.step b fun _ _ => True := by
  cases c with
  | reset => exact (exact_of_ends ⟨hb.reset, trivial⟩ : Exact (modify Builder.reset) _ b _).silent
  | prep size additional => exact (prep_exact hb hc.1 (Nat.le_of_lt hc.2)).forget.silent
  | pad n => exact (pad_exact hb hc).silent
  | push ty v => exact (push_exact hb ty v).forget.placed
  | pushOffset target => exact (pushOffset_exact hb _).placed
  | startObject slots => exact (startObject_exact hb slots).silent
  | addScalar slot ty v default => exact (addScalar_exact hb slot ty v default).silent
  | addScalarAlways slot ty v => exact (addScalarAlways_exact hb slot ty v).silent
  | addOffset slot target => exact (addOffset_exact hb slot _).silent
  | createStruct layout v => exact (createStruct_exact hb layout v hc.1 hc.2).located
  | addStruct slot struct => exact (addStruct_exact hb slot _).silent
  | addUnion typeSlot valueSlot union => exact (addUnion_exact hb typeSlot valueSlot union).silent
  | endObject => exact (endObject_exact hb).located
  | required table slot => exact hc.elim
  | startVector elementSize count alignment => exact (startVector_exact hb hc.1 hc.2).forget.silent
  | endVector => exact (endVector_exact hb).located
  | createVector ty items => exact (createVector_exact hb ty items hc).located
  | createByteVector bytes => exact (createByteVectorAligned_exact hb bytes hc (by decide)).located
  | createByteVectorAligned bytes alignment => exact (createByteVectorAligned_exact hb bytes hc.1 hc.2).located
  | createVectorOfOffsets targets =>
    exact (createVectorOfOffsets_exact hb _ (by rw [List.length_map]; exact hc)).located
  | createVectorOfStructs layout items => exact (createVectorOfStructs_exact hb layout items hc.1 hc.2).located
  | createString s => exact (createByteString_exact hb _ hc).located
  | createByteString bytes => exact (createByteString_exact hb bytes hc).located
  | createNestedBuffer bytes => exact (createByteVectorAligned_exact hb bytes hc (by decide)).located
  | finish root identifier => exact (finishWith_exact hb _ identifier false).silent
  | finishSizePrefixed root identifier => exact (finishWith_exact hb _ identifier true).silent
  | finishedData =>
    refine .get_bind ?_
    cases b.finishedData with
    | ok bytes => exact pure_exact hb trivial
    | error e => exact fail_exact hb e

/-- A call with its numbers checked is the call. -/
theorem Builder.Regular.callInWords_eq (hb : b.Regular) {c : Call} (hc : c.Moderate) :
    b.callInWords c = b.call c := by
  rw [Builder.callInWords, (c.step_exact hb hc).same]
  rfl

/-- One call of moderate size keeps a builder regular, and it is no fault. -/
theorem Builder.Regular.call (hb : b.Regular) {c : Call} (hc : c.Moderate) :
    (b.call c).2.Regular ∧ (b.call c).1 ≠ .error .fault := by
  have hends := (c.step_exact hb hc).ends
  rw [Ends] at hends
  rw [Builder.call]
  cases hstep : c.step b with
  | ok reply b' =>
    rw [hstep] at hends
    exact ⟨hends.1, by simp⟩
  | error f b' =>
    rw [hstep] at hends
    exact ⟨hends.1, fun hfault => hends.2 (Except.error.inj hfault)⟩

end Calls

def Stage.object? : Stage → Option OpenObject
  | .object o => some o
  | _ => none

def Stage.vector? : Stage → Option OpenVector
  | .vector v => some v
  | _ => none

namespace Builder

/-- The builders that calls of moderate size lead to from a builder with valid options. -/
inductive Built : Builder → Prop
  | start {order : ByteOrder} {options : Options} {b : Builder}
    (h : withOptions order options = .ok b) : Built b
  | call {b : Builder} {c : Call} (hb : Built b) (hc : c.Moderate) : Built (b.call c).2

theorem Built.regular {b : Builder} (h : b.Built) : b.Regular := by
  induction h with
  | start h => exact regular_withOptions h
  | call _ hc ih => exact (ih.call hc).1

/-- Calls of moderate size keep a builder in order, and none of its numbers leaves its width in the next one: the
call does what it does with every number checked, and is no fault. -/
theorem moderate_calls_exact {b : Builder} (h : b.Built) :
    (b.offset ≤ b.arena.capacity ∧ b.arena.capacity ≤ b.options.maxSize ∧ b.options.maxSize ≤ 2147483647) ∧
    (b.stage.object? = none ∨ b.stage.vector? = none) ∧
    (b.isFinished = true → b.stage.object? = none ∧ b.stage.vector? = none) ∧
    (∀ o, b.stage.object? = some o → (o.fields.map (·.slot)).Nodup ∧
      ∀ f ∈ o.fields, f.slot < o.slots ∧ o.start < f.offset ∧ f.offset ≤ b.offset) ∧
    (∀ v, b.stage.vector? = some v → v.start ≤ b.offset) ∧ isPowerOfTwo b.minAlign = true ∧
    ∀ c : Call, c.Moderate → b.callInWords c = b.call c ∧ (b.call c).1 ≠ .error .fault := by
  have hb := h.regular
  refine ⟨⟨b.offset_le_capacity, hb.capacity_le, hb.maxSize_le⟩, ?_, ?_, fun o ho => ?_, fun v hv => ?_, hb.minAlign,
    fun c hc => ⟨hb.callInWords_eq hc, (hb.call hc).2⟩⟩
  · cases b.stage with
    | vector v => exact .inl rfl
    | idle | object | finished => exact .inr rfl
  · intro hfinished
    have hstage : b.stage = .finished := eq_of_beq hfinished
    rw [hstage]
    exact ⟨rfl, rfl⟩
  · cases hstage : b.stage with
    | object o' =>
      rw [hstage] at ho
      obtain rfl : o' = o := Option.some.inj ho
      have hopen := hb.object hstage
      exact ⟨hopen.distinct, fun f hf => ⟨hopen.declared f hf, hopen.start_lt f hf, hopen.offset_le f hf⟩⟩
    | idle | vector | finished =>
      rw [hstage] at ho
      cases ho
  · cases hstage : b.stage with
    | vector v' =>
      rw [hstage] at hv
      obtain rfl : v' = v := Option.some.inj hv
      exact hb.vector hstage
    | idle | object | finished =>
      rw [hstage] at hv
      cases hv

/-- A table is closed after a call that was given an offset from nowhere. -/
theorem moderate_calls_exact_forged :
    ∃ b : Builder, b.Built ∧ b.callInWords .endObject = b.call .endObject ∧
      (b.call .endObject).1 = .ok (.offset 8) := by
  let opened := ((new .little).call (.startObject 2)).2
  let stored := (opened.call (.addScalarAlways 0 .u16 7)).2
  let b := (stored.call (.addOffset 1 4294967295)).2
  have hnew : (new .little).Built := .start (show withOptions .little .standard = .ok (new .little) from rfl)
  have hopened : opened.Built := hnew.call (show (Call.startObject 2).Moderate from trivial)
  have hstored : stored.Built := hopened.call (show (Call.addScalarAlways 0 .u16 7).Moderate from trivial)
  have hb : b.Built := hstored.call (show (Call.addOffset 1 4294967295).Moderate from trivial)
  have hclosed : (b.call .endObject).1 = .ok (.offset 8) := by decide +kernel
  obtain ⟨-, -, -, -, -, -, hcalls⟩ := moderate_calls_exact hb
  exact ⟨b, hb, (hcalls .endObject trivial).1, hclosed⟩

end Builder

end TableBuffer
