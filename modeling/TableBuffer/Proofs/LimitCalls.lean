import TableBuffer.Proofs.Limits
import TableBuffer.Proofs.Mirror

/-!
# How close to the limit a call can come

Most calls ask for the room that they fill, and end wherever the limit leaves it. Some ask for more: a struct and a
finished buffer for as much as their alignment besides, a vtable for two bytes, a vector for what its alignment is
more than that of its count. `Call.spare` is this rest. It is not written, but it counts: `refused_iff_past_limit`
says that a call is refused exactly if what it would write and this rest are past the limit, so a buffer can be
refused that would not be too large.
-/

namespace TableBuffer

/-- Whether a call writes all that it makes room for. The two others leave that to later calls. -/
def Call.IsWhole : Call → Prop
  | .prep _ _ | .startVector _ _ _ => False
  | _ => True

/-- How much of the room that a call asks for, from `b`, is not needed for what is written in the end. -/
def Call.spare (b : Builder) : Call → Builder → Nat
  | .createStruct layout _, _ => layout.align
  | .createVector ty _, _ => ty.size - 4
  | .createByteVectorAligned _ alignment, _ => alignment - 4
  | .createNestedBuffer _, _ => 4
  | .createVectorOfStructs layout items, _ => Builder.vectorSpare (layout.size * items.length) layout.align
  | .endObject, c => if c.vtablesWritten = b.vtablesWritten then 0 else 2
  | .finish _ _, _ | .finishSizePrefixed _ _, _ => max b.minAlign 4
  | _, _ => 0

namespace Build

open Builder (Alike Pairing)

variable {p : Pairing} {b b' : Builder} (h : Alike p b b')

/-- Recording a field where its bytes are written takes no room. -/
theorem Meets.stored {α : Type} {x x' : Build α} (h : Meets p (fun _ => 0) (x b) (x' b')) (o : OpenObject)
    (slot size : Nat) :
    Meets p (fun _ => 0) ((do let _ ← x; storeField o slot size) b) ((do let _ ← x'; storeField o slot size) b') :=
  h.followed (fun _ _ _ h => storeField_agree h o slot size) (fun _ _ => trivial) fun _ _ => ⟨rfl, rfl⟩

section Pieces

include h

theorem pad_meets (n : Nat) : Meets p (fun _ => 0) (pad n b) (pad n b') :=
  .of_asks (pad_agree h n) h (pad_asks h.arena.fits n) (pad_asks h.arena'.fits n) (by rw [h.isFinished, h.offset])

theorem push_meets (ty : ScalarType) (v : ty.Value) : Meets p (fun _ => 0) (push ty v b) (push ty v b') :=
  .of_asks (push_agree h ty v) h (push_asks h.arena.fits ty v) (push_asks h.arena'.fits ty v) (h.asked ..)

theorem pushReference_meets (target : Nat) :
    Meets p (fun _ => 0) (pushReference target b) (pushReference target b') :=
  .of_asks (pushReference_agree h target) h (pushReference_asks h.arena.fits target)
    (pushReference_asks h.arena'.fits target) (h.asked ..)

theorem pushOffset_meets {kind : OffsetKind} (target : Offset kind) :
    Meets p (fun _ => 0) (pushOffset target b) (pushOffset target b') := by
  unfold pushOffset
  rw [offset_bind, offset_bind, h.offset]
  refine .after (requireWritten_agree h _ _ _) (requireWritten_calm b _ _ _) fun _ c c' _ _ h => ?_
  exact (pushReference_meets h _).followed (fun _ _ _ h => offset_agree h) (fun _ _ => trivial)
    fun _ _ => ⟨rfl, rfl⟩

theorem addScalar_meets (slot : Nat) (ty : ScalarType) (v default : ty.Value) :
    Meets p (fun _ => 0) (addScalar slot ty v default b) (addScalar slot ty v default b') := by
  unfold addScalar
  refine .after (openSlot_agree h _ slot) (openSlot_calm b _ slot) fun o c c' _ _ h => ?_
  rw [get_bind, get_bind, h.forceDefaults]
  exact .ite (fun _ => .ok h h.offset_le) fun _ => (push_meets h ty v).stored o slot ty.size

theorem addScalarAlways_meets (slot : Nat) (ty : ScalarType) (v : ty.Value) :
    Meets p (fun _ => 0) (addScalarAlways slot ty v b) (addScalarAlways slot ty v b') := by
  unfold addScalarAlways
  refine .after (openSlot_agree h _ slot) (openSlot_calm b _ slot) fun o c c' _ _ h => ?_
  exact (push_meets h ty v).stored o slot ty.size

theorem addOffset_meets {kind : OffsetKind} (slot : Nat) (target : Offset kind) :
    Meets p (fun _ => 0) (addOffset slot target b) (addOffset slot target b') := by
  unfold addOffset
  refine .after (openSlot_agree h _ slot) (openSlot_calm b _ slot) fun o c c' _ _ h => ?_
  refine .after (requireWritten_agree h _ _ _) (requireWritten_calm c _ _ _) fun _ d d' _ _ h => ?_
  exact (pushReference_meets h _).stored o slot 4

theorem createStruct_meets (layout : StructLayout) (v : layout.Value) :
    Meets p (fun _ => layout.align) (createStruct layout v b) (createStruct layout v b') :=
  .of_asks (createStruct_agree h layout v) h (createStruct_asks h.arena.fits layout v)
    (createStruct_asks h.arena'.fits layout v) (h.asked ..)

/-- The tag of a union comes in front of its payload: where there is no room for the payload, there is none for
both. -/
theorem addUnion_meets (typeSlot valueSlot : Nat) (union : UnionOffset) :
    Meets p (fun _ => 0) (addUnion typeSlot valueSlot union b) (addUnion typeSlot valueSlot union b') := by
  unfold addUnion
  refine .ite (fun _ => .error h (Failure.not_isTooLarge nofun)) fun _ => ?_
  refine .after (openSlot_agree h _ typeSlot) (openSlot_calm b _ typeSlot) fun _ c c' _ _ h => ?_
  refine .after (openSlot_agree h _ valueSlot) (openSlot_calm c _ valueSlot) fun _ d d' _ _ h => ?_
  cases union with
  | none => exact .ok h h.offset_le
  | some tag payload htag =>
    refine (addOffset_meets h _ _).bind (fun _ e e' _ _ h => addScalarAlways_meets h _ _ _) fun _ e' _ => ?_
    refine (addScalarAlways_ends e' typeSlot .u8 (BitVec.ofNat 8 tag.toNat)).mono ?_ ?_
    · rintro _ f ⟨o, h, -⟩
      exact h.keeps.offset_le
    · rintro _ f ⟨h, -⟩
      exact h.keeps.offset_le

end Pieces

section Vectors

include h

theorem endVector_meets : Meets p (fun _ => 0) (endVector b) (endVector b') :=
  .of_asks (endVector_agree h) h (endVector_asks h.arena.fits) (endVector_asks h.arena'.fits) h.countAsked

theorem createByteString_meets (bytes : List UInt8) :
    Meets p (fun _ => 0) (createByteString bytes b) (createByteString bytes b') :=
  .of_asks (createByteString_agree h bytes) h (createByteString_asks h.arena.fits bytes)
    (createByteString_asks h.arena'.fits bytes) (by rw [h.stage, h.asked])

theorem fill_put_meets {elementSize count alignment : Nat} (bytes : ByteOrder → List UInt8)
    (hlen : ∀ order, (bytes order).length = elementSize * count) :
    Meets p (fun _ => Builder.vectorSpare (elementSize * count) alignment)
      ((do
        startVector elementSize count alignment
        let order := (← get).order
        put (bytes order)
        endVector) b)
      ((do
        startVector elementSize count alignment
        let order := (← get).order
        put (bytes order)
        endVector) b') :=
  .of_asks (fill_put_agree h bytes hlen) h (fill_put_asks h.arena.fits bytes hlen)
    (fill_put_asks h.arena'.fits bytes hlen) (h.vectorAsked ..)

theorem createVector_meets (ty : ScalarType) (items : List ty.Value) :
    Meets p (fun _ => ty.size - 4) (createVector ty items b) (createVector ty items b') := by
  rw [← Builder.vectorSpare_of_power (isPowerOfTwo_size ty) (ty.size * items.length)]
  exact fill_put_meets h (fun order => items.flatMap (ty.encode order)) fun order =>
    length_flatMap_encode (ty.length_encode order) items

theorem createByteVectorAligned_meets (bytes : List UInt8) (alignment : Nat) :
    Meets p (fun _ => alignment - 4) (createByteVectorAligned bytes alignment b)
      (createByteVectorAligned bytes alignment b') := by
  unfold createByteVectorAligned
  refine .ite (fun _ => .error h (Failure.not_isTooLarge nofun)) fun hvalid => ?_
  have hpower : isPowerOfTwo alignment = true := by
    cases hp : isPowerOfTwo alignment with
    | true => rfl
    | false => exact absurd (by rw [hp]; rfl) hvalid
  rw [← Builder.vectorSpare_of_power hpower (1 * bytes.length)]
  exact fill_put_meets h (fun _ => bytes) fun _ => (Nat.one_mul _).symm

theorem createVectorOfStructs_meets (layout : StructLayout) (items : List layout.Value) :
    Meets p (fun _ => Builder.vectorSpare (layout.size * items.length) layout.align)
      (createVectorOfStructs layout items b) (createVectorOfStructs layout items b') := by
  unfold createVectorOfStructs
  refine .ite (fun _ => .error h (Failure.not_isTooLarge nofun)) fun _ => ?_
  exact fill_put_meets h (fun order => items.flatMap (layout.encode order)) fun order =>
    length_flatMap_encode (layout.length_encode order) items

theorem createVectorOfOffsets_meets {kind : OffsetKind} (items : List (Offset kind)) :
    Meets p (fun _ => 0) (createVectorOfOffsets items b) (createVectorOfOffsets items b') := by
  have hfill (c : Builder) (hroom : 4 * items.length ≤ c.arena.headroom) :
      Ends (items.reverse.forM fun item => do putWord ((← offset) - item.value + 4)) c
        (fun _ d => ∃ bytes, bytes.length = 4 * items.length ∧ c.Puts bytes d) (fun _ _ => False) := by
    refine (putReferences_ends c items hroom).mono (fun _ d h => ⟨_, ?_, h.1⟩) fun _ _ h => h
    rw [length_references, List.length_map]
  unfold createVectorOfOffsets
  refine .after (requireIdle_agree h _) (requireIdle_calm b _) fun _ c c' _ _ h => ?_
  rw [offset_bind, offset_bind, h.offset]
  refine .after (requireAllWritten_agree h _ _ items) (requireAllWritten_calm c _ _ items) fun _ d d' _ _ h => ?_
  exact .of_asks (fill_agree h fun c c' h hroom hroom' => putReferences_agree h items hroom hroom') h
    (fill_asks h.arena.fits hfill) (fill_asks h.arena'.fits hfill) (h.vectorAsked ..)

end Vectors

section Closing

theorem leadTo_ends {b : Builder} {table : Nat} (hword : 4 ≤ table) (hle : table ≤ b.offset) (order : ByteOrder)
    (vtable : Nat) :
    Ends (leadTo order table vtable) b
      (fun _ c => c.offset = b.offset ∧ c.vtablesWritten = b.vtablesWritten) (fun _ _ => False) := by
  unfold leadTo
  rw [ends_bind]
  refine (patch_ends_of_inside hle ?_).mono (fun _ _ h => h) fun _ _ h => h
  rwa [ScalarType.length_encode]

/-- After its first word is written, a table only grows at the front until it is closed. -/
theorem closing_grows {b : Builder} {o : OpenObject} {table : Nat} (hword : 4 ≤ table) (hle : table ≤ b.offset) :
    Ends (do
        let length := o.tableLength table
        if 65535 < length then misuse (.objectTooLarge length)
        let order := (← get).order
        let bytes := o.vtable order table
        setStage .idle
        let vtable ← match ← sharedVTable? bytes with
          | some position => pure position
          | none => writeVTable bytes
        leadTo order table vtable) b
      (fun _ c => b.offset ≤ c.offset) (fun _ c => b.offset ≤ c.offset) := by
  dsimp only
  rw [ends_ite, ends_bind, ends_misuse]
  refine ⟨fun _ => Nat.le_refl _, fun _ => ?_⟩
  rw [ends_bind, ends_get, ends_bind, ends_setStage, ends_bind]
  refine (sharedVTable?_ends _ _).mono ?_ fun _ _ h => h.elim
  intro found c h
  cases found with
  | some position =>
    obtain ⟨-, -, cache, -, rfl⟩ := h
    refine (leadTo_ends hword ?_ _ position).mono (fun _ _ h => Nat.le_of_eq h.1.symm) fun _ _ h => h.elim
    exact hle
  | none =>
    obtain ⟨rfl, -⟩ := h
    rw [ends_bind]
    refine (writeVTable_ends _ _).mono ?_ ?_
    · rintro position _ ⟨c, hputs, -, -, rfl⟩
      have hgrows : b.offset ≤ c.offset := hputs.keeps.offset_le
      refine (leadTo_ends hword ?_ _ position).mono (fun _ _ h => ?_) fun _ _ h => h.elim
      · exact Nat.le_trans hle hgrows
      · exact Nat.le_trans hgrows (Nat.le_of_eq h.1.symm)
    · rintro f c ⟨hputs, -⟩
      exact hputs.keeps.offset_le

include h

/-- A table that leads to a vtable written before takes no more room. -/
theorem leadTo_meets {table n : Nat} (hword : 4 ≤ table) (hle : table ≤ b.offset) (vtable : Nat)
    (hcount : b'.vtablesWritten = n) :
    Meets p (fun c => if c.vtablesWritten = n then 0 else 2)
      (leadTo p.order table vtable b) (leadTo p.order' table vtable b') := by
  refine .of_calm (leadTo_agree h hword hle vtable) ?_ fun _ c' hc' => ?_
  · exact (leadTo_ends hword hle p.order vtable).mono (fun _ _ _ => trivial) fun _ _ h => h.elim
  · have hkept := (leadTo_ends hword (h.offset ▸ hle) p.order' vtable).of_ok hc'
    exact if_pos (hkept.2.trans hcount)

/-- A table that leads to a vtable of its own leaves room for two bytes unused. -/
theorem leadToOwn_meets {table n : Nat} (hword : 4 ≤ table) (hle : table ≤ b.offset) (vtable : List UInt8)
    (hcount : b.vtablesWritten = n) :
    Meets p (fun c => if c.vtablesWritten = n then 0 else 2)
      ((writeVTable vtable >>= leadTo p.order table) b)
      ((writeVTable (VTable.recode p.order p.order' vtable) >>= leadTo p.order' table) b') := by
  have hown {b : Builder} (hfits : b.arena.Fits) (hle : table ≤ b.offset) (hcount : b.vtablesWritten = n)
      (order : ByteOrder) (vtable : List UInt8) :
      Asks (writeVTable vtable >>= leadTo order table) b (b.asked 2 vtable.length)
        fun c => if c.vtablesWritten = n then 0 else 2 := by
    refine writeVTable_bind_asks hfits fun position c hgrows hc => ?_
    refine (leadTo_ends hword (Nat.le_trans hle hgrows) order position).mono (fun _ d hd => ⟨hd.1, ?_⟩)
      fun _ _ h => h
    exact if_neg (by omega)
  refine .of_asks (leadToOwn_agree h hword hle vtable) h (hown h.arena.fits hle hcount p.order vtable)
    (hown h.arena'.fits (h.offset ▸ hle) (h.vtablesWritten.trans hcount) p.order' _) ?_
  rw [VTable.length_recode, h.asked]

/-- Closing a table leaves room for two bytes unused, if its vtable is written. -/
theorem endObject_meets :
    Meets p (fun c => if c.vtablesWritten = b.vtablesWritten then 0 else 2) (endObject b) (endObject b') := by
  unfold endObject
  refine .after (openObject_agree h _) (openObject_calm b _) fun o c c' hc _ hopen => ?_
  obtain ⟨rfl, -⟩ := (openObject_ends b _).of_ok hc
  refine (push_meets hopen .i32 0).bind (fun table d d' hd hd' h => ?_) fun table d' hd' => ?_
  · obtain ⟨hword, hle⟩ := word_le_of_push hd
    have hcount : d.vtablesWritten = c.vtablesWritten := ((push_ends c .i32 0).of_ok hd).1.keeps.vtablesWritten
    refine .ite (fun _ => .error h (Failure.not_isTooLarge nofun)) fun _ => ?_
    dsimp only
    have hrecode : o.vtable p.order' table = VTable.recode p.order p.order' (o.vtable p.order table) :=
      (VTable.recode_encode ..).symm
    rw [get_bind, get_bind, h.order, h.order', hrecode, setStage_bind, setStage_bind]
    refine .after (sharedVTable?_agree (h.setStage .idle) _) (sharedVTable?_calm _ _) fun found e e' he _ h => ?_
    have hfound := (sharedVTable?_ends _ _).of_ok he
    cases found with
    | some position =>
      obtain ⟨-, -, cache, -, rfl⟩ := hfound
      exact leadTo_meets h hword hle position (h.vtablesWritten.trans hcount)
    | none =>
      obtain ⟨rfl, -⟩ := hfound
      exact leadToOwn_meets h hword hle _ hcount
  · obtain ⟨hword, hle⟩ := word_le_of_push hd'
    exact closing_grows hword hle

/-- Finishing leaves as much room unused as the strictest alignment. -/
theorem finishWith_meets (root : Offset .table) (identifier : Option Identifier) (sizePrefixed : Bool) :
    Meets p (fun _ => max b.minAlign 4) (finishWith root identifier sizePrefixed b)
      (finishWith root identifier sizePrefixed b') := by
  have hlimit : b.arena.limit < Arena.allocationLimit := by
    rw [h.arena.limit_eq]
    exact Nat.lt_of_le_of_lt h.limit_le h.limit_lt
  have hlimit' : b'.arena.limit < Arena.allocationLimit := by
    rw [h.arena'.limit_eq]
    exact h.limit_lt
  have hasks := finishWith_asks h.arena'.fits hlimit' root identifier sizePrefixed
  rw [h.minAlign] at hasks
  exact .of_asks (finishWith_agree h root identifier sizePrefixed) h
    (finishWith_asks h.arena.fits hlimit root identifier sizePrefixed) hasks (by rw [h.stage, h.offset, h.asked])

end Closing

section Replies

variable {spare : Builder → Nat}

theorem silent_meets {step : Build Unit} (h : Meets p spare (step b) (step b')) :
    Meets p spare (silent step b) (silent step b') :=
  h.followed (fun _ _ _ h => .ok h) (fun _ _ => trivial) fun _ _ => ⟨rfl, rfl⟩

theorem located_meets {kind : OffsetKind} {step : Build (Offset kind)} (h : Meets p spare (step b) (step b')) :
    Meets p spare (located step b) (located step b') :=
  h.followed (fun _ _ _ h => .ok h) (fun _ _ => trivial) fun _ _ => ⟨rfl, rfl⟩

theorem placed_meets {step : Build Nat} (h : Meets p spare (step b) (step b')) :
    Meets p spare (placed step b) (placed step b') :=
  h.followed (fun _ _ _ h => .ok h) (fun _ _ => trivial) fun _ _ => ⟨rfl, rfl⟩

/-- A step that is never refused room and writes nothing. -/
theorem silent_meets_of_calm {step : Build Unit} (h : Agree p (step b) (step b')) (hcalm : Calm step b) :
    Meets p (fun _ => 0) (silent step b) (silent step b') :=
  silent_meets (.of_calm h hcalm fun _ _ _ => rfl)

end Replies

/-- How close to the limit a call can come. -/
theorem step_meets (h : Alike p b b') (ho : p.order = p.order') (c : Call) (hc : c.IsWhole) :
    Meets p (c.spare b) (c.step b) (c.step b') := by
  cases c with
  | reset => exact .ok h.reset h.reset.offset_le
  | prep size additional => exact hc.elim
  | pad n => exact silent_meets (pad_meets h n)
  | push ty v => exact placed_meets (push_meets h ty v)
  | pushOffset target => exact placed_meets (pushOffset_meets h _)
  | startObject slots => exact silent_meets_of_calm (startObject_agree h slots) (startObject_calm b slots)
  | addScalar slot ty v default => exact silent_meets (addScalar_meets h slot ty v default)
  | addScalarAlways slot ty v => exact silent_meets (addScalarAlways_meets h slot ty v)
  | addOffset slot target => exact silent_meets (addOffset_meets h slot _)
  | createStruct layout v => exact located_meets (createStruct_meets h layout v)
  | addStruct slot struct => exact silent_meets_of_calm (addStruct_agree h slot _) (addStruct_calm b slot _)
  | addUnion typeSlot valueSlot union => exact silent_meets (addUnion_meets h typeSlot valueSlot union)
  | endObject => exact located_meets (endObject_meets h)
  | required table slot =>
    exact silent_meets_of_calm (required_agree h _ slot (h.readsAlike ho (.required table slot)))
      (required_calm b _ slot)
  | startVector elementSize count alignment => exact hc.elim
  | endVector => exact located_meets (endVector_meets h)
  | createVector ty items => exact located_meets (createVector_meets h ty items)
  | createByteVector bytes => exact located_meets (createByteVectorAligned_meets h bytes 1)
  | createByteVectorAligned bytes alignment => exact located_meets (createByteVectorAligned_meets h bytes alignment)
  | createVectorOfOffsets targets => exact located_meets (createVectorOfOffsets_meets h _)
  | createVectorOfStructs layout items => exact located_meets (createVectorOfStructs_meets h layout items)
  | createString s => exact located_meets (createByteString_meets h _)
  | createByteString bytes => exact located_meets (createByteString_meets h bytes)
  | createNestedBuffer bytes => exact located_meets (createByteVectorAligned_meets h bytes 8)
  | finish root identifier => exact silent_meets (finishWith_meets h _ identifier false)
  | finishSizePrefixed root identifier => exact silent_meets (finishWith_meets h _ identifier true)
  | finishedData =>
    rw [Call.step, get_bind, get_bind, Builder.finishedData, Builder.finishedData, h.finishedBytes (h.written ho)]
    cases hdata : b.finishedBytes .finishedData with
    | ok bytes => exact .ok h h.offset_le
    | error e => exact .error h (not_isTooLarge_of_finishedBytes hdata)

end Build

namespace Builder

variable {b w : Builder} {c : Call} {limit : Nat} {outcome : Outcome Reply}

/-- The same builder with another limit. -/
def withLimit (b : Builder) (limit : Nat) : Builder :=
  { b with
    options := { b.options with maxSize := limit }
    arena := { b.arena with limit := limit } }

/-- The call is refused because the limit leaves no room. -/
def RefusesRoom (b : Builder) (c : Call) : Prop := ∃ f : Failure, f.IsTooLarge ∧ (b.call c).1 = .error f

theorem Sound.alike_withLimit (h : b.Sound) (hle : b.arena.limit ≤ limit) (hlt : limit < Arena.allocationLimit) :
    Alike ⟨b.arena.limit, limit, b.order, b.order⟩ b (b.withLimit limit) where
  limit_le := hle
  limit_lt := hlt
  arena := h.keepsTo
  arena' := ⟨rfl, Nat.le_trans h.fits hle⟩
  order := rfl
  order' := rfl
  offset := rfl
  written := fun _ => rfl
  forceDefaults := rfl
  dedupVTables := rfl
  minAlign := rfl
  stage := rfl
  vtables := by
    have hsame : VTable.recode b.order b.order = id := funext fun v => if_pos rfl
    rw [hsame]
    simp [withLimit, VTableCache.map]
  vtablesWritten := rfl
  structSize := rfl

/-- What a call leaves unused of the room that it asks for counts against the limit as if it were written: where a
higher limit lets the call end, it is refused under the limit exactly if what is written then and this room are past
the limit. A call that is not refused ends as under the higher limit. -/
theorem refused_iff_past_limit (hb : b.Reachable) (hc : c.IsWhole) (hle : b.options.maxSize ≤ limit)
    (hlt : limit < Arena.allocationLimit) (hcall : (b.withLimit limit).call c = (outcome, w))
    (hends : ∀ f : Failure, outcome = .error f → f ≠ .fault ∧ ¬ f.IsTooLarge) :
    (b.RefusesRoom c → b.options.maxSize < w.offset + c.spare b w) ∧
      (∀ reply, outcome = .ok reply → b.options.maxSize < w.offset + c.spare b w → b.RefusesRoom c) ∧
      (¬ b.RefusesRoom c → (b.call c).1 = outcome ∧ (b.call c).2.offset = w.offset) := by
  have hlimit := hb.limit_eq
  have hmeets := Build.step_meets (hb.sound.alike_withLimit (hlimit ▸ hle) hlt) rfl c hc
  unfold call at hcall
  unfold RefusesRoom call
  rw [← hlimit]
  generalize c.step b = r at hmeets ⊢
  generalize c.step (b.withLimit limit) = r' at hmeets hcall
  cases hmeets with
  | ok h fits =>
    cases hcall
    refine ⟨?_, fun _ _ hfull => absurd fits (Nat.not_le.2 hfull), fun _ => ⟨rfl, h.offset.symm⟩⟩
    rintro ⟨f, -, hf⟩
    cases hf
  | error h notLarge =>
    cases hcall
    refine ⟨?_, (fun _ hreply => nomatch hreply), fun _ => ⟨rfl, h.offset.symm⟩⟩
    rintro ⟨f, tooLarge, hf⟩
    exact absurd (Except.error.inj hf ▸ tooLarge) notLarge
  | refused tooLarge full =>
    cases hcall
    exact ⟨fun _ => full, fun _ _ _ => ⟨_, tooLarge, rfl⟩, fun h => absurd ⟨_, tooLarge, rfl⟩ h⟩
  | refusedFirst tooLarge full =>
    cases hcall
    exact ⟨fun _ => full, fun _ _ _ => ⟨_, tooLarge, rfl⟩, fun h => absurd ⟨_, tooLarge, rfl⟩ h⟩
  | hopeless h =>
    cases hcall
    exact absurd h (not_or.2 (hends _ rfl))

/-- The calls that write a table with one number. -/
def oneField : List Event :=
  [(.startObject 1, .ok .done), (.addScalarAlways 0 .u32 7, .ok .done), (.endObject, .ok (.offset 8))]

/-- A buffer of twenty bytes is not finished where twenty are allowed. -/
theorem refused_iff_past_limit_oneField :
    let start := ofOptions .little { initialCapacity := 0, maxSize := 20 }
    let b := (start.run (oneField.map Prod.fst)).2
    let w := ((b.withLimit 24).call (.finish 8 none)).2
    b.Reachable ∧ w.offset = 20 ∧ b.RefusesRoom (.finish 8 none) := by
  intro start b w
  have hstart : start.Reachable :=
    .start (show withOptions .little { initialCapacity := 0, maxSize := 20 } = .ok start from rfl)
  have hruns : start.Runs oneField b := runs_of_outcomes (by decide +kernel) (by simp [oneField])
  have hb : b.Reachable := Runs.reachable hruns hstart
  have hmax : b.options.maxSize = 20 := by decide +kernel
  have hcall : (b.withLimit 24).call (.finish 8 none) = (.ok .done, w) :=
    Prod.ext (show ((b.withLimit 24).call (.finish 8 none)).1 = .ok .done by decide +kernel) rfl
  have hoffset : w.offset = 20 := by decide +kernel
  have hspare : Call.spare b (.finish 8 none) w = 4 := by decide +kernel
  obtain ⟨-, hrefused, -⟩ := refused_iff_past_limit hb
    (show (Call.finish 8 none).IsWhole from trivial) (by rw [hmax]; decide) (by decide) hcall nofun
  refine ⟨hb, hoffset, hrefused .done rfl ?_⟩
  rw [hoffset, hspare, hmax]
  decide

/-- A struct that would fill the buffer up to the limit is refused. -/
theorem full_buffer_refused :
    let b := ofOptions .little { initialCapacity := 0, maxSize := 8 }
    let call := Call.createStruct pairLayout ((1 : BitVec 8), (2 : BitVec 32), ())
    b.Reachable ∧ (b.call call).1 = .error (.error (.bufferTooLarge 12 8)) ∧
      ((b.withLimit 12).call call).1 = .ok (.offset 8) ∧
      ((b.withLimit 12).call call).2.offset = b.options.maxSize := by
  intro b call
  refine ⟨.start (show withOptions .little { initialCapacity := 0, maxSize := 8 } = .ok b from rfl), ?_⟩
  decide +kernel

end Builder

end TableBuffer
