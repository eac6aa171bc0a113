import TableBuffer.Proofs.Assembly
import TableBuffer.Proofs.Mirror
import TableBuffer.Proofs.Unions
import TableBuffer.Proofs.WordAlignment

/-!
# References lead to what was written before them

A call that stores references is given offsets, and nothing says that these name anything. What it can tell is
whether so much was written when it may refer to it, and it refuses every other offset before it writes a byte.
So a reference that is stored leads away from itself, to a place inside the buffer, and goes on doing so whatever
comes in front of it. `Call.Declines` says how such a call fails, and `Call.references` what it stores.
-/

namespace TableBuffer

open Build

namespace Call

/-- The offsets that a call is given to refer to. -/
def targets : Call → List Nat
  | pushOffset target | addOffset _ target | finish target _ | finishSizePrefixed target _ => [target]
  | addUnion _ _ (.some _ payload _) => [payload.value]
  | createVectorOfOffsets targets => targets
  | _ => []

/-- The operation that refuses an offset. -/
def referring : Call → Operation
  | pushOffset _ => .pushOffset
  | createVectorOfOffsets _ => .createVectorOfOffsets
  | finish .. | finishSizePrefixed .. => .finish
  | _ => .addOffset

/-- How much was written when a call may refer to it: a table refers to nothing inside itself. -/
def bound (b : Builder) : Call → Nat
  | addOffset .. | addUnion .. =>
    match b.stage with
    | .object o => o.start
    | _ => 0
  | _ => b.offset

/-- The first offset that names nothing the call may refer to. -/
def forged (b : Builder) (c : Call) : Option Nat :=
  c.targets.find? fun target => target = 0 ∨ c.bound b < target

/-- Apart from the offsets it is given, a call that refers may be made now. -/
def InOrder (b : Builder) : Call → Prop
  | pushOffset _ => b.isFinished = false
  | addOffset slot _ => ∃ o, b.stage = .object o ∧ o.Takes slot
  | addUnion typeSlot valueSlot _ =>
    valueSlot ≠ typeSlot ∧ ∃ o, b.stage = .object o ∧ o.Takes typeSlot ∧ o.Takes valueSlot
  | createVectorOfOffsets _ | finish .. | finishSizePrefixed .. => b.stage = .idle
  | _ => False

/-- The references that a successful call leaves in front, by their offsets and those of their targets. -/
def references (b' : Builder) : Call → List (Nat × Nat)
  | pushOffset target | addOffset _ target | finish target _ => [(b'.offset, target)]
  | finishSizePrefixed target _ => [(b'.offset - 4, target)]
  | addUnion _ _ (.some _ payload _) => [(b'.offset - 1, payload.value)]
  | createVectorOfOffsets targets => targets.mapIdx fun i target => (b'.offset - 4 - i * 4, target)
  | _ => []

/-- Each offset that a call is given is the target of one reference. -/
theorem map_snd_references (b' : Builder) (c : Call) : (c.references b').map Prod.snd = c.targets := by
  cases c with
  | addUnion typeSlot valueSlot union => cases union <;> rfl
  | createVectorOfOffsets targets =>
    exact List.ext_getElem (by simp [references, Call.targets]) (by simp [references, Call.targets])
  | _ => rfl

/-- How a call that refers is refused when it is in order: for the first forged offset, with nothing changed, and
without one for want of room only. -/
structure Denies (c : Call) (b : Builder) (f : Failure) (b' : Builder) : Prop where
  forged : c.InOrder b → ∀ target, c.forged b = some target →
    f = .error (.invalidOperation (.notWritten c.referring target (c.bound b))) ∧ b' = b
  room : c.InOrder b → c.forged b = none → 4 * c.targets.length < Arena.allocationLimit → f.IsTooLarge

/-- In order or not, a call that is refused writes nothing, unless it was half a union and the room ran out. -/
structure Declines (c : Call) (b : Builder) (f : Failure) (b' : Builder) : Prop extends Denies c b f b' where
  quiet : b'.arena.written = b.arena.written ∨ (f ≠ .fault → b'.Full)

section

variable {b : Builder} {c : Call}

theorem forged_of_single {target : Nat} (h : c.targets = [target]) :
    c.forged b = if target = 0 ∨ c.bound b < target then some target else none := by
  rw [Call.forged, h, List.find?_singleton]
  simp only [decide_eq_true_eq]

theorem forged_eq_none_iff : c.forged b = none ↔ ∀ t ∈ c.targets, 0 < t ∧ t ≤ c.bound b := by
  rw [Call.forged, List.find?_eq_none]
  simp only [decide_eq_true_eq, not_or, Nat.not_lt, Nat.pos_iff_ne_zero]

theorem denies_of_disorder {f : Failure} {b' : Builder} (h : ¬ c.InOrder b) : c.Denies b f b' :=
  ⟨fun h' => absurd h' h, fun h' => absurd h' h⟩

/-- The first forged offset is refused before anything is done. -/
theorem denies_of_forged {target : Nat} (h : c.forged b = some target) :
    c.Denies b (.error (.invalidOperation (.notWritten c.referring target (c.bound b)))) b := by
  refine ⟨fun _ t ht => ?_, fun _ hnone => ?_⟩
  · obtain rfl := Option.some.inj (h.symm.trans ht)
    exact ⟨rfl, rfl⟩
  · rw [h] at hnone
    cases hnone

theorem denies_of_room {f : Failure} {b' : Builder} (h : c.forged b = none)
    (hf : c.InOrder b → 4 * c.targets.length < Arena.allocationLimit → f.IsTooLarge) :
    c.Denies b f b' := by
  refine ⟨fun _ t ht => ?_, fun horder _ => hf horder⟩
  rw [h] at ht
  cases ht

/-- A forged offset is refused, and the rest of the call is not reached. -/
theorem referring_ends {α : Type} {rest : Build α} {target : Nat} (h : c.targets = [target])
    (hrest : Ends rest b (fun _ _ => True) (fun f _ => c.InOrder b → f.IsTooLarge)) :
    Ends (do requireWritten c.referring target (c.bound b); rest) b (fun _ _ => c.forged b = none)
      (fun f b' => c.Denies b f b') := by
  have hforged := forged_of_single (b := b) h
  rw [ends_bind]
  by_cases hbad : target = 0 ∨ c.bound b < target
  · rw [if_pos hbad] at hforged
    rw [requireWritten, if_pos hbad, ends_misuse]
    exact denies_of_forged hforged
  · rw [if_neg hbad] at hforged
    rw [requireWritten, if_neg hbad, ends_pure]
    exact hrest.mono (fun _ _ _ => hforged) fun f b' hf => denies_of_room hforged fun horder _ => hf horder

end

/-- The call answers if it is given no forged offset, and declines otherwise. -/
def Refers (b : Builder) (c : Call) : Prop :=
  Ends c.step b (fun _ _ => c.forged b = none) (fun f b' => c.Declines b f b')

section Steps

variable {b : Builder}

theorem refers_of_denies {c : Call}
    (h : Ends c.step b (fun _ _ => c.forged b = none) (fun f b' => c.Denies b f b'))
    (hquiet : Ends c.step b (fun _ _ => True)
      (fun f b' => b'.arena.written = b.arena.written ∨ (f ≠ .fault → b'.Full))) : c.Refers b :=
  (h.and hquiet).mono (fun _ _ h => h.1) fun _ _ h => ⟨h.1, h.2⟩

theorem openSlot_of_free {o : OpenObject} {slot : Nat} (ho : b.stage = .object o) (htakes : o.Takes slot)
    (op : Operation) : openSlot op slot b = .ok o b := by
  have h := openSlot_ends b op slot
  cases hx : openSlot op slot b with
  | ok o' b' =>
    rw [Ends, hx] at h
    obtain ⟨rfl, ho', -⟩ := h
    rw [Stage.object.inj (ho'.symm.trans ho)]
  | error f b' =>
    rw [Ends, hx] at h
    exact absurd htakes (h.2 o ho)

theorem isFinished_of_object {o : OpenObject} (h : b.stage = .object o) : b.isFinished = false := by
  rw [Builder.isFinished, h]
  rfl

variable (hb : b.Sound)

include hb

theorem pushOffset_refers (target : Nat) : (pushOffset target).Refers b := by
  refine refers_of_denies ?_ (ends_placed.2 ((pushOffset_ends b (⟨target⟩ : Offset .table)).mono
    (fun _ _ _ => trivial) fun f b' h => .inl h.written))
  rw [step, ends_placed]
  unfold Build.pushOffset
  rw [ends_bind, ends_offset]
  refine referring_ends (c := pushOffset target) rfl ?_
  rw [ends_bind]
  by_cases hfin : b.isFinished = false
  · exact (pushReference_refused hb hfin target).mono (fun _ _ _ => trivial) fun _ _ h _ => h
  · exact (pushReference_ends b target).mono (fun _ _ _ => trivial) fun _ _ _ horder => absurd horder hfin

theorem addOffset_refers (slot target : Nat) : (addOffset slot target).Refers b := by
  refine refers_of_denies ?_ (ends_silent.2 ((addOffset_ends b slot (⟨target⟩ : Offset .table)).mono
    (fun _ _ _ => trivial) fun f b' h => .inl h.written))
  rw [step, ends_silent]
  unfold Build.addOffset
  rw [ends_bind]
  refine (openSlot_ends b _ slot).mono ?_ ?_
  · intro o b h
    obtain ⟨rfl, ho, -⟩ := h
    have hbound : (addOffset slot target).bound b = o.start := by rw [bound, ho]
    rw [← hbound]
    refine referring_ends (c := addOffset slot target) rfl ?_
    rw [ends_bind]
    exact (pushReference_refused hb (isFinished_of_object ho) target).mono (fun _ _ _ => trivial) fun _ _ h _ => h
  · intro f b h
    obtain ⟨rfl, hno⟩ := h
    refine denies_of_disorder fun horder => ?_
    obtain ⟨o, ho, htakes⟩ := horder
    exact hno o ho htakes

/-- Once the value of a union may be stored, the union is added or there is no room for it. -/
theorem storeUnion_ends {o : OpenObject} {typeSlot valueSlot : Nat} (hne : valueSlot ≠ typeSlot)
    (ho : b.stage = .object o) (htype : o.Takes typeSlot) (target : Nat) (v : ScalarType.u8.Value) :
    Ends (do pushReference target; storeField o valueSlot 4; Build.addScalarAlways typeSlot .u8 v) b
      (fun _ _ => True) (fun f _ => f.IsTooLarge) := by
  rw [ends_bind]
  refine ((pushReference_ends b target).and (pushReference_refused hb (isFinished_of_object ho) target)).mono ?_
    fun _ _ h => h.2
  intro _ b1 h
  obtain ⟨⟨h1, -⟩, -⟩ := h
  rw [storeField, ends_bind, ends_bind, ends_offset, ends_setStage]
  let stored : OpenObject := { o with fields := ⟨valueSlot, b1.offset, 4⟩ :: o.fields }
  let b2 : Builder := { b1 with stage := .object stored }
  have hb2 : b2.Sound := hb.extends (h1.keeps.setStage _).extends
  have htakes : stored.Takes typeSlot := by
    refine ⟨htype.declared, fun f hf => ?_⟩
    rcases List.mem_cons.1 hf with rfl | hf
    · exact hne
    · exact htype.free f hf
  have ho2 : b2.stage = .object stored := rfl
  unfold Build.addScalarAlways
  rw [Ends, bind_of_ok (openSlot_of_free ho2 htakes _)]
  change Ends (do let _ ← Build.push .u8 v; storeField stored typeSlot 1) b2 _ _
  rw [ends_bind]
  exact (push_refused hb2 (isFinished_of_object ho2) .u8 v).mono (fun _ _ _ => trivial) fun _ _ h => h

theorem addUnion_refers (typeSlot valueSlot : Nat) (tag : UInt8) (payload : Offset .table) (htag : tag ≠ 0) :
    (addUnion typeSlot valueSlot (.some tag payload htag)).Refers b := by
  refine refers_of_denies ?_ (ends_silent.2 ((addUnion_ends b typeSlot valueSlot _).mono
    (fun _ _ _ => trivial) fun f b' h => h.imp (fun h => h.written) fun h => h.2.2.2))
  rw [step, ends_silent]
  unfold Build.addUnion
  dsimp only
  rw [ends_ite, ends_bind, ends_reject, ends_bind]
  refine ⟨fun heq => denies_of_disorder fun horder => horder.1 heq, fun hne => ?_⟩
  refine (openSlot_ends b _ typeSlot).mono ?_ fun f b' h => denies_of_disorder fun horder => ?_
  · intro o b h
    obtain ⟨rfl, ho, htype⟩ := h
    rw [ends_bind]
    refine (openSlot_ends b _ valueSlot).mono ?_ fun f b' h => denies_of_disorder fun horder => ?_
    · intro o' b h
      obtain ⟨rfl, ho', hvalue⟩ := h
      obtain rfl : o = o' := Stage.object.inj (ho.symm.trans ho')
      have hbound : (addUnion typeSlot valueSlot (.some tag payload htag)).bound b = o.start := by rw [bound, ho]
      have hstore := referring_ends (c := addUnion typeSlot valueSlot (.some tag payload htag)) rfl
        ((storeUnion_ends hb hne ho htype payload.value (BitVec.ofNat 8 tag.toNat)).mono
          (fun _ _ _ => trivial) fun f _ h _ => h)
      rw [hbound] at hstore
      unfold Build.addOffset
      rw [bind_assoc, Ends, bind_of_ok (openSlot_of_free ho' hvalue _)]
      simp only [bind_assoc]
      exact hstore
    · obtain ⟨-, o', ho', -, hvalue⟩ := horder
      exact h.2 o' ho' hvalue
  · obtain ⟨-, o', ho', htype, -⟩ := horder
    exact h.2 o' ho' htype

omit hb in
theorem requireAllWritten_refers {kind : OffsetKind} (op : Operation) (bound : Nat) (items : List (Offset kind)) :
    Ends (items.forM fun item => requireWritten op item.value bound) b
      (fun _ b' => b' = b ∧ (items.map (·.value)).find? (fun t => t = 0 ∨ bound < t) = none)
      (fun f b' => b' = b ∧ ∃ t, (items.map (·.value)).find? (fun t => t = 0 ∨ bound < t) = some t ∧
        f = .error (.invalidOperation (.notWritten op t bound))) := by
  induction items with
  | nil => exact ⟨rfl, rfl⟩
  | cons item items ih =>
    rw [List.forM_eq_forM, List.forM_cons, ends_bind, List.map_cons, List.find?_cons]
    by_cases hbad : item.value = 0 ∨ bound < item.value
    · rw [requireWritten, if_pos hbad, ends_misuse]
      exact ⟨rfl, item.value, by simp only [hbad, decide_true], rfl⟩
    · rw [requireWritten, if_neg hbad, ends_pure, ← List.forM_eq_forM]
      simpa only [hbad, decide_false] using ih

/-- When nothing is under construction and no offset is forged, opening the vector is all that can fail. -/
theorem createVectorOfOffsets_accepted {targets : List Nat} (hidle : b.stage = .idle)
    (hforged : (createVectorOfOffsets targets).forged b = none) :
    (createVectorOfOffsets targets).Refers b := by
  have hwritten : ∀ t ∈ targets, 0 < t ∧ t ≤ b.offset := forged_eq_none_iff.1 hforged
  cases hcall : (createVectorOfOffsets targets).step b with
  | ok reply b' =>
    rw [Refers, Ends, hcall]
    exact hforged
  | error f b' =>
    rw [Refers, Ends, hcall]
    cases Builder.createVectorOfOffsets_assembles hb hidle hwritten with
    | built start run offset_eq same =>
      rw [Builder.call_of_error hcall] at same
      cases same
    | refused start same tooLarge =>
      rw [Builder.call_of_error hcall] at same
      cases same
      have hquiet : Ends (startVector 4 targets.length 4).step b (fun _ _ => True)
          (fun _ b' => b'.arena.written = b.arena.written) := by
        rw [step, ends_silent]
        exact (startVector_ends_room hb).mono (fun _ _ _ => trivial) fun _ _ h => h rfl (Nat.le_refl 4)
      rw [List.length_reverse, List.length_map] at start tooLarge
      exact ⟨denies_of_room hforged fun _ hlen => tooLarge rfl (by decide) hlen, .inl (hquiet.of_call_error start)⟩

theorem createVectorOfOffsets_refers (targets : List Nat) : (createVectorOfOffsets targets).Refers b := by
  by_cases haccepted : b.stage = .idle ∧ (createVectorOfOffsets targets).forged b = none
  · exact createVectorOfOffsets_accepted hb haccepted.1 haccepted.2
  · have hvalues : (targets.map fun t => (⟨t⟩ : Offset .table)).map (·.value) = targets :=
      List.map_map.trans (List.map_id' targets)
    rw [Refers, step, ends_located]
    unfold Build.createVectorOfOffsets
    rw [ends_bind]
    refine (requireIdle_ends b _).mono ?_ fun f b' h => ⟨denies_of_disorder h.2, .inl ?_⟩
    · intro _ b h
      obtain ⟨rfl, hidle⟩ := h
      rw [ends_bind, ends_offset, ends_bind]
      refine (requireAllWritten_refers _ b.offset _).mono ?_ ?_
      · intro _ b h
        obtain ⟨rfl, hnone⟩ := h
        rw [hvalues] at hnone
        exact absurd ⟨hidle, hnone⟩ haccepted
      · intro f b h
        obtain ⟨rfl, t, ht, rfl⟩ := h
        rw [hvalues] at ht
        have hforged : (createVectorOfOffsets targets).forged b = some t := ht
        exact ⟨denies_of_forged hforged, .inl rfl⟩
    · rw [h.1]

omit hb in
/-- A reference and the length in front of it find their room and their places. -/
theorem seal_of_room {c : Builder} (hc : c.Poised 4 4 1) (root : Nat) (sizePrefixed : Bool) :
    Ends (do
        pushReference root
        if sizePrefixed then
          let size ← offset
          reserve 4
          putWord size
        setStage .finished) c
      (fun _ _ => True) (fun _ _ => False) := by
  let front : Builder := c.front (c.order.encode 4 (c.offset - root + 4))
  have hroom : 4 ≤ front.arena.headroom :=
    (hc.front (Nat.dvd_refl 4) (c.order.length_encode 4 _) c.structSize).room
  have hput : putWord front.offset front = .ok () (front.front (front.order.encode 4 front.offset)) :=
    put_of_room (by rw [ByteOrder.length_encode]; exact hroom)
  rw [Ends, bind_of_ok (hc.pushReference root)]
  change Ends _ front _ _
  dsimp only
  rw [ends_ite]
  refine ⟨fun _ => ?_, fun _ => trivial⟩
  rw [ends_bind, ends_offset, Ends, bind_of_ok (reserve_of_room hroom), bind_of_ok hput]
  trivial

omit hb in
/-- The one padding of the frame leaves what is behind it in place for a reference, with an identifier or without. -/
theorem poised_of_framed {c : Builder} {align : Nat} {identifier : Option Identifier} {sizePrefixed : Bool}
    (hc : c.Sound) (hfin : c.isFinished = false)
    (hrests : c.Rests 4 (c.offset + frameLength identifier sizePrefixed)) (halign : 4 ≤ align)
    (hroom : align + frameLength identifier sizePrefixed ≤ c.arena.headroom) :
    (c.front (identifierBytes identifier)).Poised 4 4 1 := by
  have hlen := length_identifierBytes identifier
  have hmultiple := hrests.multiple
  have hwords := hc.room_lt
  rw [frameLength, ← hlen] at hmultiple hroom
  have hfour : 4 ∣ if sizePrefixed then 4 else 0 := by
    split
    · exact Nat.dvd_refl 4
    · exact Nat.dvd_zero 4
  refine ⟨hfin, ⟨rfl, hrests.asked, ?_⟩, ?_, ?_⟩
  · rw [Builder.offset_front]
    omega
  · rw [Builder.headroom_front]
    omega
  · rw [Builder.offset_front, Builder.headroom_front]
    omega

/-- Finishing can fail only while the one padding is made, and with something written only for want of room. -/
theorem frame_ends (hword : b.minAlign < wordLimit) (hidle : b.stage = .idle) (hpos : 0 < b.offset) (root : Nat)
    (identifier : Option Identifier) (sizePrefixed : Bool) :
    Ends (do
        Build.prep (max b.minAlign 4)
          (4 + (if identifier.isSome then 4 else 0) + (if sizePrefixed then 4 else 0))
        match identifier with
        | some id => put id.bytes
        | none => pure ()
        pushReference root
        if sizePrefixed then
          let size ← offset
          reserve 4
          putWord size
        setStage .finished) b
      (fun _ _ => True) (fun f b' => b'.arena.written = b.arena.written ∧ f.IsTooLarge) := by
  have hpower : isPowerOfTwo (max b.minAlign 4) = true := isPowerOfTwo_max hb.minAlign rfl
  have hfour : 4 ≤ max b.minAlign 4 := Nat.le_max_right ..
  have hfin := Builder.isFinished_of_idle hidle
  have hwords : ¬ PieceOverflows b.offset (max b.minAlign 4) (frameLength identifier sizePrefixed) := by
    have hoffset := hb.offset_le_max
    have hlength : frameLength identifier sizePrefixed ≤ 12 := by
      unfold frameLength
      split <;> split <;> omega
    rw [maxBufferSize] at hoffset
    rw [pieceOverflows_iff (by rw [maxAlignment]; omega) hpower (by rw [wordLimit] at hword ⊢; omega)]
    omega
  rw [ends_bind]
  refine ((prep_ends b _ _).and (prep_refused hb hfin hpower hwords)).mono ?_ fun f b' h => ⟨h.1.1.written, h.2⟩
  intro _ b0 h
  obtain ⟨⟨h0, -, hroom, -, hrests⟩, -⟩ := h
  have hposed : (b0.front (identifierBytes identifier)).Poised 4 4 1 :=
    poised_of_framed (hb.extends h0.keeps.extends) (h0.isFinished.trans hfin) (hrests.weaken rfl hfour) hfour hroom
  cases identifier with
  | none => exact (seal_of_room hposed root sizePrefixed).mono (fun _ _ _ => trivial) fun _ _ h => h.elim
  | some id =>
    have hput : put id.bytes b0 = .ok () (b0.front id.bytes) := put_of_room (by rw [id.length_eq]; omega)
    dsimp only
    rw [Ends, bind_of_ok hput]
    exact (seal_of_room hposed root sizePrefixed).mono (fun _ _ _ => trivial) fun _ _ h => h.elim

/-- A call that finishes the buffer, in whichever form. -/
theorem finishWith_refers {c : Call} {root : Nat} {identifier : Option Identifier} {sizePrefixed : Bool}
    (hword : b.minAlign < wordLimit) (hc : c.step = silent (Build.finishWith ⟨root⟩ identifier sizePrefixed))
    (htargets : c.targets = [root]) (hreferring : c.referring = .finish) (hbound : c.bound b = b.offset)
    (horder : c.InOrder b → b.stage = .idle) : c.Refers b := by
  have hforged := forged_of_single (b := b) htargets
  rw [hbound] at hforged
  rw [Refers, hc, ends_silent]
  unfold Build.finishWith
  rw [ends_bind]
  refine (requireIdle_ends b _).mono ?_ fun f b' h => ⟨denies_of_disorder fun h' => h.2 (horder h'), .inl ?_⟩
  · intro _ b h
    obtain ⟨rfl, hidle⟩ := h
    rw [ends_bind, ends_offset, ends_bind]
    by_cases hbad : root = 0 ∨ b.offset < root
    · rw [if_pos hbad] at hforged
      have hdenies := denies_of_forged hforged
      rw [hreferring, hbound] at hdenies
      rw [requireWritten, if_pos hbad, ends_misuse]
      exact ⟨hdenies, .inl rfl⟩
    · rw [if_neg hbad] at hforged
      rw [requireWritten, if_neg hbad, ends_pure, ends_bind, ends_get]
      exact (frame_ends hb hword hidle (by omega) root identifier sizePrefixed).mono (fun _ _ _ => hforged)
        fun f b' h => ⟨denies_of_room hforged fun _ _ => h.2, .inl h.1⟩
  · rw [h.1]

omit hb in
/-- One case a call that refers. -/
theorem step_refers {c : Call} (hb : b.Reachable) (hc : c.targets ≠ []) : c.Refers b := by
  have hsound := hb.sound
  have hword := hb.minAlign_lt
  cases c with
  | pushOffset target => exact pushOffset_refers hsound target
  | addOffset slot target => exact addOffset_refers hsound slot target
  | addUnion typeSlot valueSlot union =>
    cases union with
    | none => exact absurd rfl hc
    | some tag payload htag => exact addUnion_refers hsound typeSlot valueSlot tag payload htag
  | createVectorOfOffsets targets => exact createVectorOfOffsets_refers hsound targets
  | finish root identifier => exact finishWith_refers hsound hword rfl rfl rfl rfl id
  | finishSizePrefixed root identifier => exact finishWith_refers hsound hword rfl rfl rfl rfl id
  | _ => exact absurd rfl hc

end Steps

end Call

theorem mem_itemPlacements {α : Type} {role : Role} {alignment size offset i j : Nat} {bytes : Nat → α → List UInt8}
    {items : List α} {a : α} (h : items[j]? = some a) :
    ⟨role, alignment, offset - 4 - (i + j) * size, bytes (offset - 4 - (i + j) * size) a⟩ ∈
      itemPlacements role alignment size offset bytes i items := by
  induction items generalizing i j with
  | nil => cases h
  | cons x items ih =>
    cases j with
    | zero =>
      obtain rfl : x = a := by simpa using h
      exact List.mem_cons_self ..
    | succ j =>
      have hlater := ih (i := i + 1) (j := j) (by simpa using h)
      rw [Nat.add_assoc, Nat.add_comm 1] at hlater
      exact List.mem_cons_of_mem _ hlater

/-- What a call stores as a reference is the distance of its target from where it stands. -/
theorem Call.exists_placement {b b' : Builder} {c : Call} {r : Nat × Nat} (h : r ∈ c.references b') :
    ∃ role, (⟨role, 4, r.1, b.order.encode 4 (r.1 - r.2)⟩ : Placement) ∈ c.placements b b' := by
  cases c with
  | pushOffset target | addOffset slot target | finish target identifier =>
    obtain rfl := List.mem_singleton.1 h
    exact ⟨_, List.mem_singleton.2 rfl⟩
  | addUnion typeSlot valueSlot union =>
    cases union with
    | none => cases h
    | some tag payload htag =>
      obtain rfl := List.mem_singleton.1 h
      exact ⟨_, List.mem_cons_of_mem _ (List.mem_singleton.2 rfl)⟩
  | finishSizePrefixed target identifier =>
    obtain rfl := List.mem_singleton.1 h
    exact ⟨_, List.mem_cons_of_mem _ (List.mem_singleton.2 rfl)⟩
  | createVectorOfOffsets targets =>
    obtain ⟨i, hi, rfl⟩ := List.mem_mapIdx.1 h
    have hitem := @mem_itemPlacements _ .reference 4 4 b'.offset 0 i (fun o target => b.order.encode 4 (o - target))
      _ _ (List.getElem?_eq_getElem hi)
    rw [Nat.zero_add] at hitem
    exact ⟨_, List.mem_append_right _ hitem⟩
  | _ => cases h

/-- How a call that refers ends when it is in order: the first forged offset is refused with nothing changed, and
without one nothing but the room can be missing. -/
structure Call.Judges (c : Call) (b : Builder) (outcome : Outcome Reply) (b' : Builder) : Prop where
  forged : ∀ target, c.forged b = some target →
    outcome = .error (.error (.invalidOperation (.notWritten c.referring target (c.bound b)))) ∧ b' = b
  accepted : c.forged b = none → 4 * c.targets.length < Arena.allocationLimit →
    ∀ f, outcome = .error f → f.IsTooLarge

/-- Every reference that the calls of a run stored leads, in the image, to a place behind its own four bytes. -/
def Image.RefersForward (m : Image) (b : Builder) (events : List Event) : Prop :=
  ∀ before b1 c reply b2, b.Moment events before b1 (c, .ok reply) b2 → ∀ r ∈ c.references b2,
    r.1 ≤ m.size ∧ m.target (m.size - r.1) = .ok (m.size - r.2) ∧
      m.size - r.1 + 4 ≤ m.size - r.2 ∧ m.size - r.2 < m.size

namespace Builder

variable {b b' b1 b2 : Builder} {events before : List Event} {c : Call}

theorem StartsWithin.bound_le (h : b.StartsWithin) (c : Call) : c.bound b ≤ b.offset := by
  have hopen : (match b.stage with | .object o => o.start | _ => 0) ≤ b.offset := by
    split
    · exact h _ ‹_›
    · exact Nat.zero_le _
  cases c with
  | addOffset | addUnion => exact hopen
  | _ => exact Nat.le_refl _

/-- A finished buffer was not full before its frame came in front. -/
theorem Finishes.not_full {root : Nat} {identifier : Option Identifier} {sizePrefixed : Bool}
    (h : b.Finishes root identifier sizePrefixed b') (hb : b.Sound) : ¬ b.Full := by
  intro hfull
  have hsize := (hb.extends h.keeps.extends).offset_le
  rw [h.keeps.limit] at hsize
  obtain ⟨b1, b2, b3, h1, h2, h3, rfl⟩ := h.parts
  have hfront := h2.in_front
  rw [ByteOrder.length_encode] at hfront
  have hbefore := h1.keeps.offset_le
  have hafter := h3.keeps.offset_le
  change b.arena.limit ≤ b.offset at hfull
  change b3.offset ≤ b.arena.limit at hsize
  omega

theorem Reachable.judges (hb : b.Reachable) (hc : c.targets ≠ []) (horder : c.InOrder b) :
    c.Judges b (b.call c).1 (b.call c).2 := by
  have hrefers := Call.step_refers hb hc
  cases hcall : b.call c with
  | mk outcome b' =>
    cases outcome with
    | ok reply =>
      have hnone := hrefers.of_call_ok hcall
      refine ⟨fun target ht => ?_, fun _ _ f hf => nomatch hf⟩
      rw [hnone] at ht
      cases ht
    | error f =>
      have hdeclines := hrefers.of_call_error hcall
      refine ⟨fun target ht => ?_, fun hnone hlen g hg => ?_⟩
      · obtain ⟨rfl, hsame⟩ := hdeclines.forged horder target ht
        exact ⟨rfl, hsame⟩
      · cases hg
        exact hdeclines.room horder hnone hlen

/-- A reference that was stored stands in front of its target. -/
theorem Moment.referenceAt {reply : Reply} {r : Nat × Nat} (h : b.Moment events before b1 (c, .ok reply) b2)
    (hb : b.Fresh) (hreset : ∀ e ∈ events, e.1 ≠ .reset) (hr : r ∈ c.references b2) :
    ReferenceAt b.order b2.arena.written r.1 r.2 ∧ 0 < r.2 ∧ r.2 + 4 ≤ r.1 := by
  have htarget : r.2 ∈ c.targets := by
    rw [← Call.map_snd_references b2 c]
    exact List.mem_map_of_mem hr
  have hforged := (Call.step_refers (h.run.reachable hb.reachable) (List.ne_nil_of_mem htarget)).of_call_ok h.call
  obtain ⟨hpos, hle⟩ := Call.forged_eq_none_iff.1 hforged r.2 htarget
  have hbound := (hb.braced h.run fun e he => hreset e (h.mem_of_before he)).1.bound_le c
  obtain ⟨role, hplaced⟩ := Call.exists_placement (b := b1) hr
  have hholds := (h.aligns hb hreset).placed _ hplaced
  have hnew := hholds.new
  rw [ByteOrder.length_encode] at hnew
  change b1.offset + 4 ≤ r.1 at hnew
  rw [← h.order_eq hreset]
  exact ⟨⟨by omega, hholds.stands⟩, hpos, by omega⟩

/-- Whatever offsets were given to the calls of a run, the next call that refers and is in order refuses what is zero
or was not written when it may refer to it, and nothing else. In a finished buffer every reference leads forward to
its target, and no other call left a part of one behind. -/
theorem references_lead_forward (hb : b.Fresh) (hrun : b.Runs events b') (hreset : ∀ e ∈ events, e.1 ≠ .reset) :
    (∀ c : Call, c.targets ≠ [] → c.InOrder b' → c.Judges b' (b'.call c).1 (b'.call c).2) ∧
    ∀ sizePrefixed root identifier reply b'', b'.call (finishing sizePrefixed root identifier) = (.ok reply, b'') →
      ∃ bytes, b''.finishedData = .ok bytes ∧
        (Image.ofList b.order bytes).RefersForward b
          (events ++ [(finishing sizePrefixed root identifier, .ok reply)]) ∧
        ∀ before b1 c f b2, b.Moment events before b1 (c, .error f) b2 → c.targets ≠ [] →
          b2.arena.written = b1.arena.written := by
  refine ⟨fun c => (hrun.reachable hb.reachable).judges, ?_⟩
  intro sizePrefixed root identifier reply b'' hfinish
  have hsound := hrun.sound hb.sound
  have hfin := (finishing_call_ends b' sizePrefixed root identifier).of_call_ok hfinish
  have hmax : b''.offset ≤ maxBufferSize := (hsound.extends hfin.keeps.extends).offset_le_max
  refine ⟨_, (hfin.squared hsound).2, ?_, ?_⟩
  · have hall : b.Runs (events ++ [(finishing sizePrefixed root identifier, .ok reply)]) b'' :=
      runs_append.2 ⟨b', hrun, runs_cons.2 ⟨nofun, b'', hfinish, runs_nil.2 rfl⟩⟩
    have hreset' : ∀ e ∈ events ++ [(finishing sizePrefixed root identifier, .ok reply)], e.1 ≠ .reset := by
      refine List.forall_mem_append.2 ⟨hreset, List.forall_mem_singleton.2 ?_⟩
      cases sizePrefixed <;> exact nofun
    intro before b1 c reply b2 h r hr
    obtain ⟨hstored, hpos, hfront⟩ := h.referenceAt hb hreset' hr
    have hlast := hstored.mono (h.grows_after hreset' hall).written
    have hle := hlast.2.offset_le
    rw [size_ofList]
    exact ⟨hle, target_of_referenceAt (Nat.lt_of_le_of_lt hmax (by decide)) hlast, by omega, by omega⟩
  · intro before b1 c f b2 h hc
    have hfault : f ≠ .fault := fun hf => hrun.2 _ h.mem (congrArg Except.error hf)
    have hdeclines := (Call.step_refers (h.run.reachable hb.reachable) hc).of_call_error h.call
    refine hdeclines.quiet.resolve_right fun hfull => ?_
    exact hfin.not_full hsound ((h.grows_after hreset hrun).full (hfull hfault))

/-- Among offsets that name nothing, padding is referred to, a vector of references is written, and a table gets a
reference and a union. -/
def forgedOffsets : List Event :=
  [(.createString "hi", .ok (.offset 8)), (.pad 1, .ok .done),
    (.pushOffset 0, .error (.error (.invalidOperation (.notWritten .pushOffset 0 9)))),
    (.pushOffset 9, .ok (.offset 16)),
    (.createVectorOfOffsets [8, 99],
      .error (.error (.invalidOperation (.notWritten .createVectorOfOffsets 99 16)))),
    (.createVectorOfOffsets [8, 9], .ok (.offset 28)), (.startObject 3, .ok .done), (.addOffset 0 28, .ok .done),
    (.addOffset 1 32, .error (.error (.invalidOperation (.notWritten .addOffset 32 28)))),
    (.addUnion 1 2 (.some 5 ⟨9⟩ (by decide)), .ok .done), (.endObject, .ok (.offset 44))]

/-- The table refuses to refer to itself, and its union leads to the padding. -/
theorem references_lead_forward_forgedOffsets :
    let inside := ((new .little).run ((forgedOffsets.take 8).map Prod.fst)).2
    let b := ((new .little).run (forgedOffsets.map Prod.fst)).2
    (inside.call (.addOffset 1 32)).2 = inside ∧
      ∃ bytes, (b.call (finishing false 44 none)).2.finishedData = .ok bytes ∧
        let m := Image.ofList .little bytes
        m.target (m.size - 36) = .ok (m.size - 9) ∧ m.size - 36 + 4 ≤ m.size - 9 := by
  intro inside b
  have hfresh := fresh_new .little
  have hinside : (new .little).Runs (forgedOffsets.take 8) inside :=
    runs_of_outcomes (by decide +kernel) (by simp [forgedOffsets])
  have hruns : (new .little).Runs forgedOffsets b :=
    runs_of_outcomes (by decide +kernel) (by simp [forgedOffsets])
  obtain ⟨hjudges, -⟩ := references_lead_forward hfresh hinside (by simp [forgedOffsets])
  obtain ⟨-, hforward⟩ := references_lead_forward hfresh hruns (by simp [forgedOffsets])
  have hopen : inside.stage = .object ⟨28, 3, [⟨0, 32, 4⟩]⟩ := by decide +kernel
  refine ⟨((hjudges (.addOffset 1 32) nofun ⟨_, hopen, by decide, by simp⟩).forged 32 ?_).2, ?_⟩
  · rw [Call.forged, Call.bound, hopen]
    rfl
  · let union : Call := .addUnion 1 2 (.some 5 ⟨9⟩ (by decide))
    let near := ((new .little).run ((forgedOffsets.take 9).map Prod.fst)).2
    have hadded : (new .little).Moment forgedOffsets (forgedOffsets.take 9) near (union, .ok .done)
        (near.call union).2 :=
      ⟨⟨forgedOffsets.drop 10, rfl⟩, runs_of_outcomes (by decide +kernel) (by simp [forgedOffsets]),
        Prod.ext (by decide +kernel) rfl⟩
    have hfinish : b.call (finishing false 44 none) = (.ok .done, (b.call (finishing false 44 none)).2) :=
      Prod.ext (by decide +kernel) rfl
    obtain ⟨bytes, hdata, hresolved, -⟩ := hforward false 44 none _ _ hfinish
    have hreference : (36, 9) ∈ union.references (near.call union).2 := by decide +kernel
    obtain ⟨-, htarget, hbehind, -⟩ := hresolved _ _ _ _ _ (hadded.mono (List.prefix_append ..)) _ hreference
    exact ⟨bytes, hdata, htarget, hbehind⟩

end Builder

end TableBuffer
