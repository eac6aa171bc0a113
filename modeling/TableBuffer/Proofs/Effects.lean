import TableBuffer.Builder.Call
import TableBuffer.Proofs.Closing

/-!
# What a call does

There are many calls but few things that a call does to a builder. It puts bytes in front, opens or closes
a table or a vector, adds a field or the two of a union, or finishes the buffer. `Call.step_effect` sorts
every call into these, and every failure into the few ways to fail. What all calls preserve is proved from
there.
-/

namespace TableBuffer

namespace Build

variable {b : Builder} {good : Reply → Builder → Prop} {bad : Failure → Builder → Prop}

theorem ends_silent {step : Build Unit} :
    Ends (silent step) b good bad ↔ Ends step b (fun _ b' => good .done b') bad := by
  unfold silent
  rw [ends_bind]
  rfl

theorem ends_located {kind : OffsetKind} {step : Build (Offset kind)} :
    Ends (located step) b good bad ↔ Ends step b (fun o b' => good (.offset o.value) b') bad := by
  unfold located
  rw [ends_bind]
  rfl

theorem ends_placed {step : Build Nat} :
    Ends (placed step) b good bad ↔ Ends step b (fun o b' => good (.offset o) b') bad := by
  unfold placed
  rw [ends_bind]
  rfl

end Build

/-- A question that a reader answers unless it leads outside the bytes. -/
def OnlyFaults {α : Type} (x : Outcome α) : Prop := ∀ f, x = .error f → f = .fault

namespace OnlyFaults

theorem pure {α : Type} (a : α) : OnlyFaults (Pure.pure a : Outcome α) := fun _ h => nomatch h

theorem bind {α β : Type} {x : Outcome α} {k : α → Outcome β} (hx : OnlyFaults x)
    (hk : ∀ a, OnlyFaults (k a)) : OnlyFaults (x >>= k) := by
  intro f h
  cases x with
  | ok a => exact hk a f h
  | error g =>
    cases h
    exact hx _ rfl

theorem map {α β : Type} {x : Outcome α} (hx : OnlyFaults x) (g : α → β) :
    OnlyFaults (Except.map g x) := by
  intro f h
  cases x with
  | ok a => cases h
  | error g =>
    cases h
    exact hx _ rfl

theorem slice (m : Image) (start length : Nat) : OnlyFaults (m.slice start length) := by
  intro f h
  unfold Image.slice at h
  split at h
  · cases h
  · cases h
    rfl

theorem word16 (m : Image) (pos : Nat) : OnlyFaults (m.word16 pos) :=
  ((slice m pos _).map _).map _

theorem vtable (t : Table) : OnlyFaults t.vtable := by
  refine bind (((slice t.image t.position _).map _).map _) fun distance => ?_
  dsimp only
  split
  · exact fun f h => by cases h; rfl
  · exact pure _

theorem entry (v : VTable) (slot : Nat) : OnlyFaults (v.entry slot) := by
  refine bind (word16 v.image v.position) fun length => ?_
  split
  · exact word16 v.image _
  · exact pure 0

theorem has (t : Table) (slot : Nat) : OnlyFaults (t.has slot) :=
  bind (bind (vtable t) fun v => entry v slot) fun _ => pure _

end OnlyFaults

namespace Build

variable (b : Builder)

/-- Whatever a check finds, it changes nothing, and it finds no calls out of order. -/
theorem required_ends (table : Offset .table) (slot : Nat) :
    Ends (required table slot) b (fun _ b' => b' = b)
      (fun f b' => b' = b ∧ f.isConstruction = false) := by
  unfold required
  rw [ends_bind, ends_get]
  dsimp only
  rw [ends_ite, ends_bind, ends_reject]
  refine ⟨fun _ => ⟨rfl, rfl⟩, fun _ => ?_⟩
  let t : Table := ⟨Image.ofList b.order b.arena.written, b.offset - table.value⟩
  cases h : t.has slot with
  | ok present =>
    cases present with
    | true => exact rfl
    | false => exact ⟨rfl, rfl⟩
  | error f =>
    obtain rfl := OnlyFaults.has t slot f h
    exact ⟨rfl, rfl⟩

end Build

/-- What a call stores in the open table when it succeeds, slot by slot. -/
def Call.stored (options : Options) : Call → List (Nat × Content)
  | addScalar slot ty v default =>
    if Build.Elided options ty v default then [] else [(slot, .scalar ty v)]
  | addScalarAlways slot ty v => [(slot, .scalar ty v)]
  | addOffset slot target => [(slot, .reference target)]
  | addStruct slot struct => [(slot, .struct struct)]
  | addUnion _ _ .none => []
  | addUnion typeSlot valueSlot (.some tag payload _) =>
    [(valueSlot, .reference payload.value), (typeSlot, .scalar .u8 (BitVec.ofNat 8 tag.toNat))]
  | _ => []

/-- What a call did to a builder when it answered, and what it stored in the open table. -/
inductive Call.Effect (c : Call) (b b' : Builder) : List (Nat × Content) → Prop
  | puts {bytes : List UInt8} (h : b.Puts bytes b') : Effect c b b' []
  | createsStruct {bytes : List UInt8} {size : Nat} {b1 : Builder} (h : b.Puts bytes b1)
    (size_le : size ≤ b1.offset) (same : b' = { b1 with structSize := size }) : Effect c b b' []
  | opensTable {slots : Nat} (call : c = .startObject slots) (slots_le : slots ≤ VTable.maxSlots)
    (same : b' = { b with stage := .object ⟨b.offset, slots, []⟩ }) : Effect c b b' []
  | adds {o : OpenObject} {slot size : Nat} {content : Content} (h : b.Adds o slot size content b') :
    Effect c b b' [(slot, content)]
  | addsUnion {b1 : Builder} {o o1 : OpenObject} {slot slot1 size size1 : Nat}
    {content content1 : Content} (h : b.Adds o slot size content b1)
    (h1 : b1.Adds o1 slot1 size1 content1 b') : Effect c b b' [(slot, content), (slot1, content1)]
  | closesTable {o : OpenObject} {table vtable : Nat} (call : c = .endObject)
    (h : b.Closes o table vtable b') : Effect c b b' []
  | opensVector {bytes : List UInt8} {v : OpenVector} {b1 : Builder}
    (call : ∃ size count alignment, c = .startVector size count alignment) (h : b.Puts bytes b1)
    (same : b' = { b1 with stage := .vector v }) : Effect c b b' []
  | closesVector {bytes : List UInt8} (h : Builder.Puts { b with stage := .idle } bytes b') :
    Effect c b b' []
  | finishes {root : Nat} {identifier : Option Identifier} {sizePrefixed : Bool}
    (h : b.Finishes root identifier sizePrefixed b') : Effect c b b' []

/-- What a call did to a builder before it failed. Of a union only the value may have been written. -/
inductive Call.Refusal (c : Call) (f : Failure) (b b' : Builder) : Prop
  | fails (call : c ≠ .endObject) (h : b.Fails f b')
  | half (h : b.Keeps b') (object : ∃ o field, b.stage = .object o ∧
      b'.stage = .object { o with fields := field :: o.fields }) (other : f.isConstruction = false)
    (full : f ≠ .fault → b'.Full)
  | closesNot (call : c = .endObject) (h : b.ClosesNot f b')

section Calls

variable (b : Builder)

theorem Builder.startObject_call_ends (slots : Nat) :
    Build.Ends (Call.startObject slots).step b
      (fun reply b' => reply = .done ∧ slots ≤ VTable.maxSlots ∧
        b' = { b with stage := .object ⟨b.offset, slots, []⟩ })
      (fun _ b' => b' = b) := by
  rw [Call.step, Build.ends_silent]
  exact (Build.startObject_ends b slots).mono (fun _ _ h => ⟨rfl, h.2⟩) fun _ _ h => h

theorem Builder.endObject_call_ends :
    Build.Ends Call.endObject.step b
      (fun reply b' => ∃ o table vtable, reply = .offset table ∧ b.Closes o table vtable b')
      (fun f b' => b.ClosesNot f b') := by
  rw [Call.step, Build.ends_located]
  refine (Build.endObject_ends b).mono ?_ fun _ _ h => h
  intro table b' h
  obtain ⟨o, vtable, h⟩ := h
  exact ⟨o, table.value, vtable, rfl, h⟩

/-- Opening a vector pads so that its count and its data will stand aligned. -/
theorem Builder.startVector_call_ends (size count alignment : Nat) :
    Build.Ends (Call.startVector size count alignment).step b
      (fun reply b' => reply = .done ∧ b'.Rests 4 (b'.offset + size * count) ∧
        b'.Rests alignment (b'.offset + size * count) ∧ ∃ k b1, b.Puts (Build.zeros k) b1 ∧
          b' = { b1 with stage := .vector ⟨count, b1.offset, size * count⟩ })
      (fun f b' => b.Fails f b') := by
  rw [Call.step, Build.ends_silent]
  refine (Build.startVector_ends b size count alignment).mono ?_ fun _ _ h => h
  intro _ b' h
  obtain ⟨-, hcount, hdata, k, b1, h1, -, hsame⟩ := h
  exact ⟨rfl, hcount, hdata, k, b1, h1, hsame⟩

/-- Closing a vector puts its count in front of its data, which are as many bytes as it was opened for. -/
theorem Builder.endVector_call_ends :
    Build.Ends Call.endVector.step b
      (fun reply b' => ∃ v, b.stage = .vector v ∧ b.offset - v.start = v.dataLength ∧
        reply = .offset b'.offset ∧ Builder.Puts { b with stage := .idle } (b.order.encode 4 v.count) b')
      (fun f b' => b.Fails f b') := by
  rw [Call.step, Build.ends_located]
  refine (Build.endVector_ends b).mono ?_ fun _ _ h => h.1
  intro o b' h
  obtain ⟨v, hv, hsize, ho, hputs⟩ := h
  exact ⟨v, hv, hsize, congrArg Reply.offset ho, hputs⟩

/-- The call has one of the effects, or it is refused in one of the ways. -/
def Call.Accounted (c : Call) (b : Builder) : Prop :=
  Build.Ends c.step b (fun _ b' => c.Effect b b' (c.stored b.options)) (fun f b' => c.Refusal f b b')

namespace Call

open Build

section

variable {b} {c : Call} {bad : Failure → Builder → Prop}

theorem accounted_silent {step : Build Unit} {good : Unit → Builder → Prop} (hc : c.step = silent step)
    (h : Ends step b good bad) (hgood : ∀ r b', good r b' → c.Effect b b' (c.stored b.options))
    (hbad : ∀ f b', bad f b' → c.Refusal f b b') : c.Accounted b := by
  unfold Accounted
  rw [hc, ends_silent]
  exact h.mono hgood hbad

theorem accounted_located {kind : OffsetKind} {step : Build (Offset kind)}
    {good : Offset kind → Builder → Prop} (hc : c.step = located step) (h : Ends step b good bad)
    (hgood : ∀ o b', good o b' → c.Effect b b' (c.stored b.options))
    (hbad : ∀ f b', bad f b' → c.Refusal f b b') : c.Accounted b := by
  unfold Accounted
  rw [hc, ends_located]
  exact h.mono hgood hbad

theorem accounted_placed {step : Build Nat} {good : Nat → Builder → Prop} (hc : c.step = placed step)
    (h : Ends step b good bad) (hgood : ∀ o b', good o b' → c.Effect b b' (c.stored b.options))
    (hbad : ∀ f b', bad f b' → c.Refusal f b b') : c.Accounted b := by
  unfold Accounted
  rw [hc, ends_placed]
  exact h.mono hgood hbad

end

/-- A call that writes a vector or a string does nothing else. -/
theorem writes_accounted {c : Call} {kind : OffsetKind} {step : Build (Offset kind)}
    {good : Offset kind → Builder → Prop} (hc : c.step = Build.located step) (hend : c ≠ .endObject)
    (hstored : c.stored b.options = []) (h : Ends step b good (fun f b' => b.Fails f b'))
    (hputs : ∀ o b', good o b' → ∃ bytes, b.Puts bytes b') : c.Accounted b := by
  apply accounted_located hc h
  · intro o b' h
    obtain ⟨bytes, h⟩ := hputs o b' h
    rw [hstored]
    exact .puts h
  · intro f b' h
    exact .fails hend h

theorem startObject_accounted (slots : Nat) : (startObject slots).Accounted b := by
  apply (Builder.startObject_call_ends b slots).mono
  · intro _ b' h
    obtain ⟨-, hslots, h⟩ := h
    exact .opensTable rfl hslots h
  · intro f b' h
    rw [h]
    exact .fails Call.noConfusion (.refl b f)

theorem addScalar_accounted (slot : Nat) (ty : ScalarType) (v default : ty.Value) :
    (addScalar slot ty v default).Accounted b := by
  apply accounted_silent rfl (addScalar_ends b slot ty v default)
  · intro _ b' h
    obtain ⟨o, -, -, h⟩ := h
    rw [stored]
    by_cases helided : Elided b.options ty v default
    · rw [if_pos helided] at h ⊢
      rw [h]
      exact .puts (.refl b)
    · rw [if_neg helided] at h ⊢
      exact .adds h.1.adds_scalar
  · intro f b' h
    exact .fails Call.noConfusion (h.fails f)

theorem addScalarAlways_accounted (slot : Nat) (ty : ScalarType) (v : ty.Value) :
    (addScalarAlways slot ty v).Accounted b := by
  apply accounted_silent rfl (addScalarAlways_ends b slot ty v)
  · intro _ b' h
    obtain ⟨o, h, -⟩ := h
    exact .adds h.adds_scalar
  · intro f b' h
    exact .fails Call.noConfusion (h.1.fails f)

theorem addOffset_accounted (slot target : Nat) : (addOffset slot target).Accounted b := by
  apply accounted_silent rfl (addOffset_ends b slot _)
  · intro _ b' h
    obtain ⟨o, -, hle, h, -⟩ := h
    exact .adds (h.adds_reference hle)
  · intro f b' h
    exact .fails Call.noConfusion (h.fails f)

theorem createStruct_accounted (layout : StructLayout) (v : layout.Value) :
    (createStruct layout v).Accounted b := by
  apply accounted_located rfl (createStruct_ends b layout v)
  · intro o b' h
    obtain ⟨-, -, k, b1, h, hsame⟩ := h
    have hlen := h.stands.length_le
    rw [StructLayout.length_encode] at hlen
    exact .createsStruct h hlen hsame
  · intro f b' h
    exact .fails Call.noConfusion (h.1.fails f)

/-- A struct slot refers to the struct that was created last, and no byte is written. -/
theorem addStruct_accounted (slot struct : Nat) : (addStruct slot struct).Accounted b := by
  apply accounted_silent rfl (addStruct_ends b slot _)
  · intro _ b' h
    obtain ⟨o, hat, -, h⟩ := h
    have hoffset : b'.offset = b.offset := by
      obtain ⟨b1, h1, rfl⟩ := h.puts
      exact h1.offset.trans (Nat.zero_add _)
    exact .adds ⟨h.stage, h.takes, h.stage_eq, fun hsize => hoffset ▸ hsize, h.keeps,
      fun _ => hat.trans hoffset.symm⟩
  · intro f b' h
    rw [h]
    exact .fails Call.noConfusion (.refl b f)

theorem addUnion_accounted (typeSlot valueSlot : Nat) (union : UnionOffset) :
    (addUnion typeSlot valueSlot union).Accounted b := by
  apply accounted_silent rfl (addUnion_ends b typeSlot valueSlot union)
  · intro _ b' h
    cases union with
    | none =>
      have hsame : b' = b := h
      rw [hsame]
      exact .puts (.refl b)
    | some tag payload htag =>
      obtain ⟨o, b1, -, -, -, hle, hvalue, htype, -, -⟩ := h
      rw [← hvalue.keeps.order, ← List.append_nil (ScalarType.encode ..)] at htype
      exact .addsUnion (hvalue.adds_reference hle) htype.adds_scalar
  · intro f b' h
    rcases h with h | ⟨hkeeps, hobject, hother, hfull⟩
    · exact .fails Call.noConfusion (h.fails f)
    · exact .half hkeeps hobject hother hfull

theorem endObject_accounted : endObject.Accounted b := by
  apply (Builder.endObject_call_ends b).mono
  · intro _ b' h
    obtain ⟨o, table, vtable, -, h⟩ := h
    exact .closesTable rfl h
  · intro f b' h
    exact .closesNot rfl h

theorem required_accounted (table : Nat) (slot : Nat) : (required table slot).Accounted b := by
  apply accounted_silent rfl (required_ends b _ slot)
  · intro _ b' h
    rw [h]
    exact .puts (.refl b)
  · intro f b' h
    rw [h.1]
    exact .fails Call.noConfusion (.refl b f)

theorem startVector_accounted (elementSize count alignment : Nat) :
    (startVector elementSize count alignment).Accounted b := by
  apply (Builder.startVector_call_ends b elementSize count alignment).mono
  · intro _ b' h
    obtain ⟨-, -, -, k, b1, h, hsame⟩ := h
    exact .opensVector ⟨_, _, _, rfl⟩ h hsame
  · intro f b' h
    exact .fails Call.noConfusion h

theorem endVector_accounted : endVector.Accounted b := by
  apply (Builder.endVector_call_ends b).mono
  · intro _ b' h
    obtain ⟨v, -, -, -, h⟩ := h
    exact .closesVector h
  · intro f b' h
    exact .fails Call.noConfusion h

/-- Every call but `reset` is accounted for. -/
theorem step_effect {c : Call} (hreset : c ≠ .reset) :
    Ends c.step b (fun _ b' => c.Effect b b' (c.stored b.options)) (fun f b' => c.Refusal f b b') := by
  cases c with
  | reset => exact absurd rfl hreset
  | prep size additional =>
    exact accounted_silent rfl (prep_ends b size additional) (fun _ _ h => .puts h.1)
      fun f _ h => .fails Call.noConfusion (h.1.fails f)
  | pad n =>
    exact accounted_silent rfl (pad_ends b n) (fun _ _ h => .puts h)
      fun f _ h => .fails Call.noConfusion (h.1.fails f)
  | push ty v =>
    exact accounted_placed rfl (push_ends b ty v) (fun _ _ h => .puts h.1)
      fun f _ h => .fails Call.noConfusion (h.1.fails f)
  | pushOffset target =>
    exact accounted_placed rfl (pushOffset_ends b _) (fun _ _ h => .puts h.1)
      fun f _ h => .fails Call.noConfusion (h.fails f)
  | startObject slots => exact startObject_accounted b slots
  | addScalar slot ty v default => exact addScalar_accounted b slot ty v default
  | addScalarAlways slot ty v => exact addScalarAlways_accounted b slot ty v
  | addOffset slot target => exact addOffset_accounted b slot target
  | createStruct layout v => exact createStruct_accounted b layout v
  | addStruct slot struct => exact addStruct_accounted b slot struct
  | addUnion typeSlot valueSlot union => exact addUnion_accounted b typeSlot valueSlot union
  | endObject => exact endObject_accounted b
  | required table slot => exact required_accounted b table slot
  | startVector elementSize count alignment => exact startVector_accounted b elementSize count alignment
  | endVector => exact endVector_accounted b
  | createVector ty items =>
    apply writes_accounted b rfl Call.noConfusion rfl (createVector_ends b ty items)
    intro o b' h
    obtain ⟨-, -, -, k, h⟩ := h
    exact ⟨_, h⟩
  | createByteVector bytes =>
    apply writes_accounted b rfl Call.noConfusion rfl (createByteVectorAligned_ends b bytes 1)
    intro o b' h
    obtain ⟨-, -, -, k, h⟩ := h
    exact ⟨_, h⟩
  | createByteVectorAligned bytes alignment =>
    apply writes_accounted b rfl Call.noConfusion rfl (createByteVectorAligned_ends b bytes alignment)
    intro o b' h
    obtain ⟨-, -, -, k, h⟩ := h
    exact ⟨_, h⟩
  | createVectorOfOffsets targets =>
    apply writes_accounted b rfl Call.noConfusion rfl (createVectorOfOffsets_ends b _)
    intro o b' h
    obtain ⟨-, -, -, -, k, h⟩ := h
    exact ⟨_, h⟩
  | createVectorOfStructs layout items =>
    apply writes_accounted b rfl Call.noConfusion rfl (createVectorOfStructs_ends b layout items)
    intro o b' h
    obtain ⟨-, -, -, -, k, h⟩ := h
    exact ⟨_, h⟩
  | createString s =>
    apply writes_accounted b rfl Call.noConfusion rfl (createByteString_ends b _)
    intro o b' h
    obtain ⟨-, -, -, k, h⟩ := h
    exact ⟨_, h⟩
  | createByteString bytes =>
    apply writes_accounted b rfl Call.noConfusion rfl (createByteString_ends b bytes)
    intro o b' h
    obtain ⟨-, -, -, k, h⟩ := h
    exact ⟨_, h⟩
  | createNestedBuffer bytes =>
    apply writes_accounted b rfl Call.noConfusion rfl (createByteVectorAligned_ends b bytes 8)
    intro o b' h
    obtain ⟨-, -, -, k, h⟩ := h
    exact ⟨_, h⟩
  | finish root identifier =>
    exact accounted_silent rfl (finishWith_ends b ⟨root⟩ identifier false) (fun _ _ h => .finishes h)
      fun f _ h => .fails Call.noConfusion h
  | finishSizePrefixed root identifier =>
    exact accounted_silent rfl (finishWith_ends b ⟨root⟩ identifier true) (fun _ _ h => .finishes h)
      fun f _ h => .fails Call.noConfusion h
  | finishedData =>
    rw [step, ends_bind, ends_get]
    cases h : b.finishedData with
    | ok bytes => exact .puts (.refl b)
    | error e => exact .fails Call.noConfusion (.refl b _)

end Call

theorem Build.Ends.of_call_ok {b b' : Builder} {c : Call} {reply : Reply}
    {good : Reply → Builder → Prop} {bad : Failure → Builder → Prop} (h : Build.Ends c.step b good bad)
    (hc : b.call c = (.ok reply, b')) : good reply b' := by
  unfold Build.Ends at h
  unfold Builder.call at hc
  split at h
  · rename_i hs
    rw [hs] at hc
    cases hc
    exact h
  · rename_i hs
    rw [hs] at hc
    cases hc

theorem Build.Ends.of_call_error {b b' : Builder} {c : Call} {f : Failure}
    {good : Reply → Builder → Prop} {bad : Failure → Builder → Prop} (h : Build.Ends c.step b good bad)
    (hc : b.call c = (.error f, b')) : bad f b' := by
  unfold Build.Ends at h
  unfold Builder.call at hc
  split at h
  · rename_i hs
    rw [hs] at hc
    cases hc
  · rename_i hs
    rw [hs] at hc
    cases hc
    exact h

end Calls

end TableBuffer
