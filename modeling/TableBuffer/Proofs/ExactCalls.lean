import TableBuffer.Proofs.ExactSteps

/-!
# Calls that lose no number

Every call that writes is exact in a regular builder if its sizes are moderate. A field comes to stand in front
of where its table was opened, and a reference in front of its target, so no difference is below zero. A table is
closed only if its length is a word of a vtable, and the positions of its fields are below that. And the limit of
a builder keeps the distance from a table to its vtable in its signed word.
-/

namespace TableBuffer

namespace Build

variable {b : Builder}

section Fields

variable (hb : b.Regular)

include hb

theorem startObject_exact (slots : Nat) : Exact (startObjectInWords slots) (startObject slots) b fun _ _ => True := by
  unfold startObjectInWords startObject
  refine (requireIdle_exact hb _).bind fun _ b' _ h => ?_
  obtain ⟨rfl, -⟩ := h
  refine .ite (fun _ => fail_exact hb _) fun hslots => .offsetInWords_bind hb (setStage_exact hb ?_)
  exact OpenObject.Regular.mk (Nat.le_of_not_lt hslots) (Nat.le_refl _) List.nodup_nil nofun nofun nofun nofun

section Stored

variable {o : OpenObject} {slot : Nat} (ho : b.stage = .object o) (ht : o.Takes slot)

include ho ht

/-- What was written last becomes a field, if it came after the table was opened. -/
theorem storeField_exact {size : Nat} (hlt : o.start < b.offset) (hsize : size ≤ b.offset) :
    Exact (storeFieldInWords o slot size) (storeField o slot size) b fun _ _ => True :=
  .offsetInWords_bind hb (setStage_exact hb ((hb.object ho).store ht hlt hsize))

theorem storeField_exact_of_puts {b' : Builder} {size : Nat} {bytes : List UInt8} (hb' : b'.Regular)
    (hputs : b.Puts bytes b') (hpos : 0 < bytes.length) (hsize : size ≤ b'.offset) :
    Exact (storeFieldInWords o slot size) (storeField o slot size) b' fun _ _ => True := by
  have hstart := (hb.object ho).start_le
  have hoffset := hputs.offset
  exact storeField_exact hb' (hputs.stage.trans ho) ht (by omega) hsize

theorem store_push_exact (ty : ScalarType) (v : ty.Value) :
    Exact (do let _ ← pushInWords ty v; storeFieldInWords o slot ty.size)
      (do let _ ← push ty v; storeField o slot ty.size) b fun _ _ => True := by
  refine (push_exact hb ty v).bind fun _ b1 hb1 h => ?_
  have hpos := ty.size_pos
  have hoffset := h.2.offset
  rw [List.length_append, ScalarType.length_encode] at hoffset
  refine storeField_exact_of_puts hb ho ht hb1 h.2 ?_ (by omega)
  rw [List.length_append, ScalarType.length_encode]
  omega

end Stored

theorem addScalar_exact (slot : Nat) (ty : ScalarType) (v default : ty.Value) :
    Exact (addScalarInWords slot ty v default) (addScalar slot ty v default) b fun _ _ => True := by
  refine (openSlot_exact hb _ slot).bind fun o b' _ h => .get_bind ?_
  obtain ⟨rfl, ho, ht⟩ := h
  exact .ite (fun _ => pure_exact hb trivial) fun _ => store_push_exact hb ho ht ty v

theorem addScalarAlways_exact (slot : Nat) (ty : ScalarType) (v : ty.Value) :
    Exact (addScalarAlwaysInWords slot ty v) (addScalarAlways slot ty v) b fun _ _ => True := by
  refine (openSlot_exact hb _ slot).bind fun o b' _ h => ?_
  obtain ⟨rfl, ho, ht⟩ := h
  exact store_push_exact hb ho ht ty v

theorem addOffset_exact {kind : OffsetKind} (slot : Nat) (target : Offset kind) :
    Exact (addOffsetInWords slot target) (addOffset slot target) b fun _ _ => True := by
  refine (openSlot_exact hb _ slot).bind fun o b' _ h => ?_
  obtain ⟨rfl, ho, ht⟩ := h
  refine (requireWritten_exact hb _ _ _).bind fun _ b' _ h => ?_
  obtain ⟨rfl, htarget⟩ := h
  have hstart := (hb.object ho).start_le
  refine (pushReference_exact hb (Nat.le_trans htarget hstart)).bind fun _ b1 hb1 h => ?_
  obtain ⟨bytes, hlen, hputs⟩ := h
  have hoffset := hputs.offset
  exact storeField_exact_of_puts hb ho ht hb1 hputs (by omega) (by omega)

theorem createStruct_exact (layout : StructLayout) (v : layout.Value) (hsize : layout.size < sizeLimit)
    (halign : layout.align < sizeLimit) :
    Exact (createStructInWords layout v) (createStruct layout v) b fun _ _ => True := by
  refine (prep_exact hb halign (Nat.le_of_lt hsize)).bind fun _ b1 hb1 h => .get_bind ?_
  have hlen := layout.length_encode b1.order v
  refine (put_exact hb1 (by omega)).bind fun _ b2 hb2 h => .modify_bind ?_
  have hoffset := h.1.offset
  have hnoted : Builder.Regular { b2 with structSize := layout.size } :=
    { hb2 with structSize_le := show layout.size ≤ b2.offset by omega }
  exact .offsetInWords_bind hnoted (pure_exact hnoted trivial)

theorem addStruct_exact (slot : Nat) (struct : Offset .struct) :
    Exact (addStructInWords slot struct) (addStruct slot struct) b fun _ _ => True := by
  refine (openSlot_exact hb _ slot).bind fun o b' _ h => ?_
  obtain ⟨rfl, ho, ht⟩ := h
  refine .offsetInWords_bind hb (.ite (fun _ => fail_exact hb _) fun hinline => .get_bind ?_)
  exact storeField_exact hb ho ht (by omega) hb.structSize_le

/-- Each half of a union is added as any field is, so the builder is regular between them too. -/
theorem addUnion_exact (typeSlot valueSlot : Nat) (union : UnionOffset) :
    Exact (addUnionInWords typeSlot valueSlot union) (addUnion typeSlot valueSlot union) b fun _ _ => True := by
  refine .ite (fun _ => fail_exact hb _) fun _ => ?_
  refine (openSlot_exact hb _ _).bind fun _ b1 hb1 _ => (openSlot_exact hb1 _ _).bind fun _ b2 hb2 _ => ?_
  cases union with
  | none => exact pure_exact hb2 trivial
  | some tag payload _ =>
    exact (addOffset_exact hb2 valueSlot payload).bind fun _ b3 hb3 _ => addScalarAlways_exact hb3 typeSlot .u8 _

end Fields

section Vectors

variable (hb : b.Regular)

include hb

theorem startVector_exact {elementSize count alignment : Nat} (hlength : elementSize * count < sizeLimit)
    (halign : alignment < sizeLimit) :
    Exact (startVectorInWords elementSize count alignment) (startVector elementSize count alignment) b
      (fun _ b' => b.offset ≤ b'.offset ∧ elementSize * count ≤ b'.arena.headroom) := by
  have hopened : Exact (startVectorInWords elementSize count alignment)
      (startVector elementSize count alignment) b fun _ _ => True := by
    unfold startVectorInWords startVector
    refine (requireIdle_exact hb _).bind fun _ b' _ h => ?_
    obtain ⟨rfl, -⟩ := h
    refine .ite (fun _ => fail_exact hb _) fun _ => ?_
    refine (prep_exact hb (by decide) (Nat.le_of_lt hlength)).bind fun _ b1 hb1 _ => ?_
    refine (prep_exact hb1 halign (Nat.le_of_lt hlength)).bind fun _ b2 hb2 _ => ?_
    exact .offsetInWords_bind hb2 (setStage_exact hb2 (Nat.le_refl b2.offset))
  refine (hopened.and (startVector_ends b _ _ _)).mono fun _ b' h => ?_
  obtain ⟨-, -, -, -, k, b1, hputs, hroom, rfl⟩ := h
  exact ⟨hputs.keeps.offset_le, hroom⟩

theorem takeVector_exact :
    Exact takeVector takeVector b (fun v b' => v.start ≤ b'.offset) := by
  refine (requireUnfinished_exact hb).bind fun _ b' _ h => .get_bind ?_
  obtain ⟨rfl, -⟩ := h
  cases hs : b'.stage with
  | vector v => exact .setStage_bind (pure_exact (hb.setStage trivial) (hb.vector hs))
  | idle => exact fail_exact hb _
  | object o => exact fail_exact hb _
  | finished => exact fail_exact hb _

theorem endVector_exact : Exact endVectorInWords endVector b fun _ _ => True := by
  refine (takeVector_exact hb).bind fun v b1 hb1 hstart => .offsetInWords_bind hb1 ?_
  rw [differenceInWords_bind hstart]
  refine .ite (fun _ => fail_exact hb1 _) fun _ => ?_
  have hoffset := hb1.offset_le
  refine (reserve_exact hb1 (by rw [wordLimit]; omega)).bind fun _ b2 hb2 h => ?_
  refine (putWord_exact hb2 h.2.1).bind fun _ b3 hb3 _ => ?_
  exact .offsetInWords_bind hb3 (pure_exact hb3 trivial)

/-- A vector is opened, filled with bytes of the announced number, and closed. -/
theorem fill_exact {elementSize count alignment : Nat} (hlength : elementSize * count < sizeLimit)
    (halign : alignment < sizeLimit) {bytes : ByteOrder → List UInt8}
    (hlen : ∀ order, (bytes order).length = elementSize * count) :
    Exact (fillInWords elementSize count alignment bytes) (do
        startVector elementSize count alignment
        let order := (← get).order
        put (bytes order)
        endVector) b fun _ _ => True := by
  refine (startVector_exact hb hlength halign).bind fun _ b1 hb1 h => ?_
  rw [sizeLimit] at hlength
  rw [demand_bind (by rw [wordLimit]; omega)]
  refine .get_bind ((put_exact hb1 ?_).bind fun _ b2 hb2 _ => endVector_exact hb2)
  rw [hlen]
  exact h.2

theorem createVector_exact (ty : ScalarType) (items : List ty.Value) (hlength : ty.size * items.length < sizeLimit) :
    Exact (createVectorInWords ty items) (createVector ty items) b fun _ _ => True :=
  fill_exact hb hlength ty.size_lt fun order => length_flatMap_encode (ty.length_encode order) items

theorem createByteVectorAligned_exact (bytes : List UInt8) {alignment : Nat} (hlength : bytes.length < sizeLimit)
    (halign : alignment < sizeLimit) :
    Exact (createByteVectorAlignedInWords bytes alignment) (createByteVectorAligned bytes alignment) b
      fun _ _ => True :=
  .ite (fun _ => fail_exact hb _) fun _ =>
    fill_exact hb (by rwa [Nat.one_mul]) halign fun _ => (Nat.one_mul _).symm

theorem createVectorOfStructs_exact (layout : StructLayout) (items : List layout.Value)
    (hlength : layout.size * items.length < sizeLimit) (halign : layout.align < sizeLimit) :
    Exact (createVectorOfStructsInWords layout items) (createVectorOfStructs layout items) b fun _ _ => True :=
  .ite (fun _ => fail_exact hb _) fun _ =>
    fill_exact hb hlength halign fun order => length_flatMap_encode (layout.length_encode order) items

/-- References to what is written are put in front one after the other, in room that is there for all. -/
theorem putReferences_exact {kind : OffsetKind} {items : List (Offset kind)}
    (hwritten : ∀ item ∈ items, item.value ≤ b.offset) (hroom : 4 * items.length ≤ b.arena.headroom) :
    Exact (items.forM fun item => putReferenceInWords item.value)
      (items.forM fun item => do putWord ((← offset) - item.value + 4)) b fun _ _ => True := by
  induction items generalizing b with
  | nil => exact pure_exact hb trivial
  | cons item items ih =>
    rw [List.length_cons] at hroom
    obtain ⟨hitem, hitems⟩ := List.forall_mem_cons.1 hwritten
    simp only [List.forM_eq_forM, List.forM_cons]
    refine (putReference_exact hb hitem (by omega)).bind fun _ b1 hb1 h => ?_
    obtain ⟨hputs, hroom1⟩ := h
    exact ih hb1 (fun i hi => Nat.le_trans (hitems i hi) hputs.keeps.offset_le) (by omega)

theorem createVectorOfOffsets_exact {kind : OffsetKind} (items : List (Offset kind))
    (hlength : 4 * items.length < sizeLimit) :
    Exact (createVectorOfOffsetsInWords items) (createVectorOfOffsets items) b fun _ _ => True := by
  refine (requireIdle_exact hb _).bind fun _ b' _ h => ?_
  obtain ⟨rfl, -⟩ := h
  refine .offsetInWords_bind hb ((requireAllWritten_exact hb _ _ items).bind fun _ b' _ h => ?_)
  obtain ⟨rfl, hwritten⟩ := h
  refine (startVector_exact hb hlength (by decide)).bind fun _ b1 hb1 h => ?_
  refine (putReferences_exact hb1 (fun item hitem => ?_) ?_).bind fun _ b2 hb2 _ => endVector_exact hb2
  · exact Nat.le_trans (hwritten item (List.mem_reverse.1 hitem)) h.1
  · rw [List.length_reverse]
    exact h.2

theorem createByteString_exact (bytes : List UInt8) (hlength : bytes.length < sizeLimit) :
    Exact (createByteStringInWords bytes) (createByteString bytes) b fun _ _ => True := by
  refine (requireIdle_exact hb _).bind fun _ b' _ h => ?_
  obtain ⟨rfl, -⟩ := h
  rw [sumInWords_bind (by rw [sizeLimit] at hlength; rw [wordLimit]; omega)]
  refine (prep_exact hb (by decide) hlength).bind fun _ b1 hb1 h => ?_
  obtain ⟨-, hroom1⟩ := h
  refine (put_exact hb1 (by simp; omega)).bind fun _ b2 hb2 h => ?_
  obtain ⟨-, hroom2, -⟩ := h
  rw [List.length_singleton] at hroom2
  refine (put_exact hb2 (by omega)).bind fun _ b3 hb3 h => ?_
  have hoffset := hb3.offset_le
  have hword : valueCount 4 = 4294967296 := rfl
  have hstring := h.1.offset
  refine (reserve_exact hb3 (by rw [wordLimit]; omega)).bind fun _ b4 hb4 h => ?_
  refine (putWordInWords_exact hb4 (by omega) h.2.1).bind fun _ b5 hb5 _ => ?_
  exact .offsetInWords_bind hb5 (pure_exact hb5 trivial)

end Vectors

section Tables

variable {table : Nat}

/-- Fields that lie in front of a table's end are measured in words. -/
theorem extentInWords_eq {fields : List StoredField} (htable : table ≤ 2147483647)
    (hfields : ∀ f ∈ fields, f.offset ≤ table ∧ f.size ≤ f.offset) (least : Nat) :
    extentInWords table fields least =
      pure ((fields.map fun f => table - f.offset + f.size).foldl max least) := by
  unfold extentInWords
  induction fields generalizing least with
  | nil => rfl
  | cons f fields ih =>
    obtain ⟨hf, hrest⟩ := List.forall_mem_cons.1 hfields
    rw [List.foldlM_cons, differenceInWords_bind hf.1, sumInWords_bind (by rw [wordLimit]; omega), pure_bind, ih hrest]
    rfl

/-- The entry of a field holds its position, as that is less than the length of the table. -/
theorem checkEntries_eq (order : ByteOrder) {slots : Nat} {fields : List StoredField} (hfields : ∀ f ∈ fields,
      f.offset ≤ table ∧ table - f.offset + f.size ≤ 65535 ∧ f.slot < slots) :
    checkEntries order slots table fields = pure () := by
  unfold checkEntries
  induction fields with
  | nil => rfl
  | cons f fields ih =>
    obtain ⟨⟨hle, hextent, hslot⟩, hrest⟩ := List.forall_mem_cons.1 hfields
    have hposition : table - f.offset < valueCount 2 := by
      rw [show valueCount 2 = 65536 from rfl]
      omega
    have hentry : VTable.entryPosition f.slot + 2 ≤ VTable.entryPosition slots := by
      simp only [VTable.entryPosition]
      omega
    rw [List.forM_eq_forM, List.forM_cons, differenceInWords_bind hle,
      demand_bind ⟨order.holds_of_lt hposition, hentry⟩]
    exact ih hrest

theorem vtableInWords_eq (order : ByteOrder) {o : OpenObject} (ho : o.Regular table)
    (hlength : o.tableLength table ≤ 65535) :
    vtableInWords order o table (o.tableLength table) = pure (o.vtable order table) := by
  have hentries : checkEntries order o.slots table o.fields = pure () :=
    checkEntries_eq order fun f hf =>
      ⟨ho.offset_le f hf, Nat.le_trans (OpenObject.field_le_tableLength hf) hlength, ho.declared f hf⟩
  have hslots : VTable.entryPosition o.slots < valueCount 2 := by
    have hle := ho.slots_le
    simp only [VTable.entryPosition, VTable.maxSlots, VTable.headerWords] at hle ⊢
    rw [show valueCount 2 = 65536 from rfl]
    omega
  have htable : o.tableLength table < valueCount 2 := Nat.lt_succ_of_le hlength
  rw [vtableInWords, demand_bind ⟨order.holds_of_lt hslots, order.holds_of_lt htable⟩, hentries, pure_bind]

variable (hb : b.Regular)

include hb

/-- An equal vtable stands in what is written. -/
theorem sharedVTable_exact (vtable : List UInt8) (hhits : b.vtables.hits < b.offset) :
    Exact (sharedVTableInWords? vtable) (sharedVTable? vtable) b
      (fun found b' => b'.offset = b.offset ∧ ∀ position, found = some position → position ≤ b.offset) := by
  have hoffset := hb.offset_le
  have hnone : ∀ position, none = some position → position ≤ b.offset := by simp
  refine .check_bind (by rw [wordLimit]; omega) (exact_of_ends ?_)
  unfold sharedVTable?
  rw [ends_bind, ends_get, ends_ite]
  refine ⟨fun _ => ?_, fun _ => ⟨hb, rfl, hnone⟩⟩
  cases hget : b.vtables.get? vtable with
  | some position =>
    simp only [VTableCache.lookup, hget]
    have hcounted : Builder.Regular { b with vtables := { b.vtables with hits := b.vtables.hits + 1 } } :=
      { hb with hits_le := hhits }
    exact ⟨hcounted, rfl, fun _ hfound => Option.some.inj hfound ▸ hb.vtables_le _ _ hget⟩
  | none =>
    simp only [VTableCache.lookup, hget]
    exact ⟨hb, rfl, hnone⟩

/-- A vtable that was put in front last is recorded where it stands. -/
theorem regular_record (vtable : List UInt8) (hcount : b.vtablesWritten < b.offset) :
    Builder.Regular { b with
      vtables := if b.options.dedupVTables then b.vtables.insert vtable b.offset else b.vtables
      vtablesWritten := b.vtablesWritten + 1 } := by
  cases b.options.dedupVTables with
  | false => exact { hb with vtablesWritten_le := hcount }
  | true =>
    refine { hb with vtables_le := fun v position hv => ?_, hits_le := ?_, vtablesWritten_le := hcount }
    · rw [if_pos rfl, VTableCache.get?_insert, Option.or_eq_some_iff] at hv
      rcases hv with hold | ⟨-, hnew⟩
      · exact hb.vtables_le v position hold
      · exact Nat.le_of_eq (Option.some.inj (Option.ite_none_right_eq_some.1 hnew).2).symm
    · rw [if_pos rfl, VTableCache.hits_insert]
      exact hb.hits_le

theorem writeVTable_exact {vtable : List UInt8} (hpos : 0 < vtable.length) (hlength : vtable.length < sizeLimit) :
    Exact (writeVTableInWords vtable) (writeVTable vtable) b
      (fun position b' => position ≤ b'.offset ∧ b.offset ≤ b'.offset) := by
  refine (prep_exact hb (by decide) (Nat.le_of_lt hlength)).bind fun _ b1 hb1 h => ?_
  obtain ⟨h1, hroom⟩ := h
  refine (put_exact hb1 (by omega)).bind fun _ b2 hb2 h => .offsetInWords_bind hb2 ?_
  have hgrown := (h1.trans h.1).keeps.offset_le
  have hoffset := h.1.offset
  have hwritten : b2.vtablesWritten < b2.offset := by
    have hcount := hb1.vtablesWritten_le
    rw [h.1.vtablesWritten]
    omega
  have hmax := hb2.offset_le
  refine .check_bind (by rw [wordLimit]; omega) (.modify_bind ?_)
  exact pure_exact (regular_record hb2 vtable hwritten) ⟨Nat.le_refl _, hgrown⟩

/-- The first word of a table that is written gets its value: a distance between places in the buffer. -/
theorem patch_exact {vtable : Nat} (order : ByteOrder) (hword : 4 ≤ table) (htable : table ≤ b.offset)
    (hvtable : vtable ≤ b.offset) :
    Exact (patchInWords order table vtable)
      (patch table (ScalarType.i32.encode order (BitVec.ofInt 32 ((vtable : Int) - table)))) b fun _ _ => True := by
  have hoffset := hb.offset_le
  have hdistance : (BitVec.ofInt 32 ((vtable : Int) - table)).toInt = (vtable : Int) - table :=
    BitVec.toInt_ofInt_eq_self (by decide) (by omega) (by omega)
  rw [patchInWords, demand_bind hdistance]
  generalize hnew : ScalarType.i32.encode order (BitVec.ofInt 32 ((vtable : Int) - table)) = new
  have hlen : new.length = 4 := by rw [← hnew, ScalarType.length_encode]
  refine exact_of_ends ?_
  unfold patch
  rw [ends_bind, ends_get, Arena.overwrite_eq htable (by omega)]
  have hsize : (splice (b.arena.size - table) new b.arena.written).length = b.arena.written.length := by
    rw [Builder.offset] at htable
    exact length_splice (by rw [← Arena.size]; omega)
  exact ⟨hb.overwritten hsize, trivial⟩

/-- The vtable of a closed table is found or written, and the table refers to it. -/
theorem close_exact (order : ByteOrder) {vtable : List UInt8} (hword : 4 ≤ table) (htable : table ≤ b.offset)
    (hhits : b.vtables.hits < b.offset) (hpos : 0 < vtable.length) (hlength : vtable.length < sizeLimit) :
    Exact (do
        let position ← match ← sharedVTableInWords? vtable with
          | some position => pure position
          | none => writeVTableInWords vtable
        patchInWords order table position
        return (⟨table⟩ : Offset .table)) (do
        let position ← match ← sharedVTable? vtable with
          | some position => pure position
          | none => writeVTable vtable
        patch table (ScalarType.i32.encode order (BitVec.ofInt 32 ((position : Int) - table)))
        return ⟨table⟩) b fun _ _ => True := by
  have hpatch {c : Builder} (hc : c.Regular) {position : Nat} (hgrown : b.offset ≤ c.offset)
      (hposition : position ≤ c.offset) : Exact (do
        patchInWords order table position
        return (⟨table⟩ : Offset .table)) (do
        patch table (ScalarType.i32.encode order (BitVec.ofInt 32 ((position : Int) - table)))
        return ⟨table⟩) c fun _ _ => True :=
    (patch_exact hc order hword (Nat.le_trans htable hgrown) hposition).bind fun _ _ hc' _ => pure_exact hc' trivial
  refine (sharedVTable_exact hb vtable hhits).bind fun found b1 hb1 h => ?_
  obtain ⟨hsame, hfound⟩ := h
  have hgrown : b.offset ≤ b1.offset := Nat.le_of_eq hsame.symm
  cases found with
  | some position => exact hpatch hb1 hgrown (Nat.le_trans (hfound position rfl) hgrown)
  | none =>
    refine (writeVTable_exact hb1 hpos hlength).bind fun position b2 hb2 h => ?_
    exact hpatch hb2 (Nat.le_trans hgrown h.2) h.1

theorem endObject_exact : Exact endObjectInWords endObject b fun _ _ => True := by
  refine (openObject_exact hb _).bind fun o b' _ h => ?_
  obtain ⟨rfl, ho⟩ := h
  refine (push_exact hb .i32 0).bind fun table b1 hb1 h => ?_
  obtain ⟨rfl, hputs⟩ := h
  have hgrown : b'.offset + 4 ≤ b1.offset := by
    have hfront := hputs.in_front
    rwa [ScalarType.length_encode] at hfront
  have ho1 : o.Regular b1.offset := hb1.object (hputs.stage.trans ho)
  have hextent : extentInWords b1.offset o.fields 4 = pure (o.tableLength b1.offset) :=
    extentInWords_eq hb1.offset_le (fun f hf => ⟨ho1.offset_le f hf, ho1.size_le f hf⟩) 4
  rw [hextent, pure_bind]
  refine .ite (fun _ => fail_exact hb1 _) fun hlarge => .get_bind ?_
  dsimp only
  rw [vtableInWords_eq b1.order ho1 (Nat.le_of_not_lt hlarge), pure_bind]
  have hidle : Builder.Regular { b1 with stage := .idle } := hb1.setStage trivial
  refine .setStage_bind (close_exact hidle b1.order (by omega) (Nat.le_refl b1.offset) ?_ ?_ ?_)
  -- A table puts its first word in front before it looks for its vtable, so there are more bytes than hits.
  · show b1.vtables.hits < b1.offset
    have hhits := hb.hits_le
    rw [hputs.vtables]
    omega
  all_goals
    have hslots := ho1.slots_le
    rw [OpenObject.vtable, VTable.length_encode]
    simp only [VTable.entryPosition, VTable.headerWords, VTable.maxSlots, sizeLimit] at hslots ⊢
    omega

end Tables

section Finish

variable (hb : b.Regular)

include hb

/-- The length of the rest is put in front if it is asked for, and the buffer is finished. -/
theorem seal_exact (sizePrefixed : Bool) :
    Exact (do
        if sizePrefixed then
          let size ← offsetInWords
          reserveInWords 4
          putWordInWords size
        setStage .finished) (do
        if sizePrefixed then
          let size ← offset
          reserve 4
          putWord size
        setStage .finished) b fun _ _ => True := by
  have hoffset := hb.offset_le
  have hword : valueCount 4 = 4294967296 := rfl
  refine .ite (fun _ => .offsetInWords_bind hb ?_) fun _ => setStage_exact hb trivial
  refine (reserve_exact hb (by rw [wordLimit]; omega)).bind fun _ b1 hb1 h => ?_
  exact (putWordInWords_exact hb1 (by omega) h.2.1).bind fun _ b2 hb2 _ => setStage_exact hb2 trivial

theorem finishWith_exact (root : Offset .table) (identifier : Option Identifier) (sizePrefixed : Bool) :
    Exact (finishWithInWords root identifier sizePrefixed) (finishWith root identifier sizePrefixed) b
      fun _ _ => True := by
  refine (requireIdle_exact hb _).bind fun _ b' _ h => ?_
  obtain ⟨rfl, -⟩ := h
  refine .offsetInWords_bind hb ((requireWritten_exact hb _ _ _).bind fun _ b' _ h => .get_bind ?_)
  obtain ⟨rfl, hroot⟩ := h
  -- The strictest alignment may come from a call that was refused for want of room.
  have halign : max b'.minAlign 4 < sizeLimit := Nat.max_lt.2 ⟨hb.minAlign_lt, by decide⟩
  have hframe : 4 + (if identifier.isSome then 4 else 0) + (if sizePrefixed then 4 else 0) ≤ sizeLimit := by
    rw [sizeLimit]
    split <;> split <;> omega
  refine (prep_exact hb halign hframe).bind fun _ b1 hb1 h => ?_
  obtain ⟨h1, hroom⟩ := h
  have hrest {c : Builder} {bytes : List UInt8} (hc : c.Regular) (h : b1.Puts bytes c) :=
    (pushReference_exact hc (Nat.le_trans hroot (h1.trans h).keeps.offset_le)).bind
      fun _ _ hd _ => seal_exact hd sizePrefixed
  cases identifier with
  | some id =>
    refine (put_exact hb1 ?_).bind fun _ b2 hb2 h => hrest hb2 h.1
    rw [id.length_eq]
    omega
  | none => exact hrest hb1 (.refl b1)

end Finish

end Build

end TableBuffer
