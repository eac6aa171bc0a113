import TableBuffer.Builder.Call
import TableBuffer.Proofs.Alike
import TableBuffer.Proofs.Closing

/-!
# Calls on builders that differ in their room or their byte order

Every call ends alike on builders that are alike. The calls are put together from steps that agree. Where
bytes are put in front, both builders have the room, for both have made it just before. Where a word is
written over, it lies in the written part of both, so what an earlier use left behind is not reached. Only
two calls look at what is written: `required`, which reads a table, and `finishedData`. They end alike if the
byte orders agree; if not, the table must read the same in both.
-/

namespace TableBuffer

namespace Arena

variable {a : Arena} {limit : Nat}

theorem KeepsTo.clear (h : a.KeepsTo limit) : a.clear.KeepsTo limit where
  limit_eq := h.limit_eq
  fits := by
    rw [Fits, capacity_clear]
    exact h.fits

theorem KeepsTo.setWritten (h : a.KeepsTo limit) {written : List UInt8}
    (hlen : written.length = a.written.length) : KeepsTo { a with written := written } limit where
  limit_eq := h.limit_eq
  fits := by
    rw [Fits, capacity, size, hlen]
    exact h.fits

end Arena

namespace Builder

namespace Alike

variable {p : Pairing} {b b' : Builder} (h : Alike p b b')

include h

theorem setStage (stage : Stage) :
    Alike p { b with stage := stage } { b' with stage := stage } :=
  { h with stage := rfl }

theorem reset : Alike p b.reset b'.reset where
  limit_le := h.limit_le
  limit_lt := h.limit_lt
  arena := h.arena.clear
  arena' := h.arena'.clear
  order := h.order
  order' := h.order'
  offset := rfl
  written := fun _ => rfl
  forceDefaults := h.forceDefaults
  dedupVTables := h.dedupVTables
  minAlign := rfl
  stage := rfl
  vtables := rfl
  vtablesWritten := rfl
  structSize := rfl

theorem finishedBytes (hw : b'.arena.written = b.arena.written) (op : Operation) :
    b'.finishedBytes op = b.finishedBytes op := by
  rw [Builder.finishedBytes, Builder.finishedBytes, h.isFinished, hw]

end Alike

/-- The builder's view of a table it has written. -/
def tableView (b : Builder) (table : Nat) : Table := ⟨Image.ofList b.order b.arena.written, b.offset - table⟩

/-- What the call looks up in the written bytes is the same in both builders. -/
def ReadsAlike (b b' : Builder) : Call → Prop
  | .required table slot => (b'.tableView table).has slot = (b.tableView table).has slot
  | .finishedData => b'.arena.written = b.arena.written
  | _ => True

theorem Alike.readsAlike {p : Pairing} {b b' : Builder} (h : Alike p b b') (ho : p.order = p.order') (c : Call) :
    b.ReadsAlike b' c := by
  cases c with
  | required table slot =>
    show (b'.tableView table).has slot = (b.tableView table).has slot
    rw [tableView, tableView, h.offset, h.written ho, h.order, h.order', ho]
  | finishedData => exact h.written ho
  | _ => trivial

end Builder

namespace Build

open Builder (Alike Pairing)

variable {p : Pairing} {b b' : Builder} (h : Alike p b b')

/-- The last step of closing a table: the distance to its vtable is written over its first word. -/
def leadTo (order : ByteOrder) (table vtable : Nat) : Build (Offset .table) := do
  patch table (ScalarType.i32.encode order (BitVec.ofInt 32 ((vtable : Int) - table)))
  return ⟨table⟩

theorem word_le_of_push {b c : Builder} {table : Nat} (h : push .i32 0 b = .ok table c) :
    4 ≤ table ∧ table ≤ c.offset := by
  obtain ⟨hputs, -, htable, -⟩ := (push_ends b .i32 0).of_ok h
  have hoffset := hputs.offset
  rw [List.length_append, ScalarType.length_encode] at hoffset
  change c.offset = 4 + _ + b.offset at hoffset
  omega

section Tables

include h

theorem startObject_agree (slots : Nat) :
    Agree p (startObject slots b) (startObject slots b') := by
  unfold startObject
  refine (requireIdle_agree h _).bind fun _ b b' _ _ h => ?_
  refine .ite (fun _ => .error h) fun _ => ?_
  dsimp only
  rw [offset_bind, offset_bind, h.offset]
  exact .ok (h.setStage _)

theorem openSlot_agree (op : Operation) (slot : Nat) :
    Agree p (openSlot op slot b) (openSlot op slot b') := by
  unfold openSlot requireFree
  refine (openObject_agree h op).bind fun o b b' _ _ h => ?_
  refine Agree.bind (.ite (fun _ => .error h) fun _ => ?_) fun _ b b' _ _ h => .ok h
  exact .ite (fun _ => .error h) fun _ => .ok h

theorem storeField_agree (o : OpenObject) (slot size : Nat) :
    Agree p (storeField o slot size b) (storeField o slot size b') := by
  unfold storeField
  rw [offset_bind, offset_bind, h.offset]
  exact .ok (h.setStage _)

theorem addScalar_agree (slot : Nat) (ty : ScalarType) (v default : ty.Value) :
    Agree p (addScalar slot ty v default b) (addScalar slot ty v default b') := by
  unfold addScalar
  refine (openSlot_agree h _ slot).bind fun o b b' _ _ h => ?_
  rw [get_bind, get_bind, h.forceDefaults]
  refine .ite (fun _ => .ok h) fun _ => ?_
  exact (push_agree h ty v).bind fun _ b b' _ _ h => storeField_agree h o slot ty.size

theorem addScalarAlways_agree (slot : Nat) (ty : ScalarType) (v : ty.Value) :
    Agree p (addScalarAlways slot ty v b) (addScalarAlways slot ty v b') := by
  unfold addScalarAlways
  refine (openSlot_agree h _ slot).bind fun o b b' _ _ h => ?_
  exact (push_agree h ty v).bind fun _ b b' _ _ h => storeField_agree h o slot ty.size

theorem addOffset_agree {kind : OffsetKind} (slot : Nat) (target : Offset kind) :
    Agree p (addOffset slot target b) (addOffset slot target b') := by
  unfold addOffset
  refine (openSlot_agree h _ slot).bind fun o b b' _ _ h => ?_
  refine (requireWritten_agree h _ _ _).bind fun _ b b' _ _ h => ?_
  exact (pushReference_agree h _).bind fun _ b b' _ _ h => storeField_agree h o slot 4

theorem createStruct_agree (layout : StructLayout) (v : layout.Value) :
    Agree p (createStruct layout v b) (createStruct layout v b') := by
  unfold createStruct
  refine prep_bind_agree h _ _ fun c c' h hroom hroom' => ?_
  rw [get_bind, get_bind]
  refine (put_in_order_agree h (fun order => layout.encode order v)
    (fun order => layout.length_encode order v) (by omega) (by omega)).bind fun _ d d' _ _ h => ?_
  rw [modify_bind, modify_bind]
  have hsized : Alike p { d with structSize := layout.size }
      { d' with structSize := layout.size } := { h with structSize := rfl }
  exact (offset_agree hsized).bind fun _ b b' _ _ h => .ok h

theorem addStruct_agree (slot : Nat) (struct : Offset .struct) :
    Agree p (addStruct slot struct b) (addStruct slot struct b') := by
  unfold addStruct
  refine (openSlot_agree h _ slot).bind fun o b b' _ _ h => ?_
  rw [offset_bind, offset_bind, h.offset]
  refine .ite (fun _ => .error h) fun _ => ?_
  dsimp only
  rw [get_bind, get_bind, h.structSize]
  exact storeField_agree h o slot _

theorem addUnion_agree (typeSlot valueSlot : Nat) (union : UnionOffset) :
    Agree p (addUnion typeSlot valueSlot union b) (addUnion typeSlot valueSlot union b') := by
  unfold addUnion
  refine .ite (fun _ => .error h) fun _ => ?_
  refine (openSlot_agree h _ typeSlot).bind fun _ b b' _ _ h => ?_
  refine (openSlot_agree h _ valueSlot).bind fun _ b b' _ _ h => ?_
  cases union with
  | none => exact .ok h
  | some tag payload htag =>
    exact (addOffset_agree h _ _).bind fun _ b b' _ _ h => addScalarAlways_agree h _ _ _

/-- A vtable is found where its other form is. -/
theorem sharedVTable?_agree (vtable : List UInt8) :
    Agree p (sharedVTable? vtable b) (sharedVTable? (VTable.recode p.order p.order' vtable) b') := by
  unfold sharedVTable?
  rw [get_bind, get_bind, h.dedupVTables, h.vtables, VTableCache.lookup_map (VTable.recode_injective ..)]
  exact .ite (fun _ => .ok { h with vtables := rfl }) fun _ => .ok h

theorem writeVTable_agree (vtable : List UInt8) :
    Agree p (writeVTable vtable b) (writeVTable (VTable.recode p.order p.order' vtable) b') := by
  have hlen : (VTable.recode p.order p.order' vtable).length = vtable.length := VTable.length_recode ..
  unfold writeVTable
  rw [hlen]
  refine prep_bind_agree h _ _ fun c c' h hroom hroom' => ?_
  refine (put_agree h hlen (fun ho => if_pos ho) (by omega) (by omega)).bind fun _ d d' _ _ h => ?_
  rw [offset_bind, offset_bind, modify_bind, modify_bind, h.offset]
  refine .ok { h with vtables := ?_, vtablesWritten := by rw [h.vtablesWritten] }
  dsimp only
  rw [h.dedupVTables, h.vtables, VTableCache.insert_map (VTable.recode_injective ..)]
  split <;> rfl

/-- What is written over lies in the written part of both. -/
theorem patch_agree {position n : Nat} (bytes : ByteOrder → List UInt8)
    (hbytes : ∀ order, (bytes order).length = n) (hoff : position ≤ b.offset) (hlen : n ≤ position) :
    Agree p (patch position (bytes p.order) b) (patch position (bytes p.order') b') := by
  have hoff' : position ≤ b'.offset := by rwa [h.offset]
  have hsize : b'.arena.size = b.arena.size := h.offset
  have hsplice (order : ByteOrder) (a : Arena) (ha : position ≤ a.size) :
      (splice (a.size - position) (bytes order) a.written).length = a.written.length := by
    apply length_splice
    rw [hbytes]
    show a.size - position + n ≤ a.size
    omega
  unfold patch
  rw [get_bind, get_bind, Arena.overwrite_eq hoff (by rw [hbytes]; exact hlen),
    Arena.overwrite_eq hoff' (by rw [hbytes]; exact hlen)]
  refine .ok (h.setArena (h.arena.setWritten (hsplice _ _ hoff)) (h.arena'.setWritten (hsplice _ _ hoff'))
    ?_ fun ho => ?_)
  · show (splice _ _ b'.arena.written).length = (splice _ _ b.arena.written).length
    rw [hsplice _ _ hoff, hsplice _ _ hoff']
    exact hsize
  · dsimp only
    rw [hsize, h.written ho, ho]

theorem leadTo_agree {table : Nat} (hword : 4 ≤ table) (hle : table ≤ b.offset) (vtable : Nat) :
    Agree p (leadTo p.order table vtable b) (leadTo p.order' table vtable b') :=
  (patch_agree h (fun order => ScalarType.i32.encode order (BitVec.ofInt 32 ((vtable : Int) - table)))
    (fun order => ScalarType.i32.length_encode order _) hle hword).bind fun _ _ _ _ _ h => .ok h

/-- A table comes to lead to a vtable of its own. -/
theorem leadToOwn_agree {table : Nat} (hword : 4 ≤ table) (hle : table ≤ b.offset) (vtable : List UInt8) :
    Agree p ((writeVTable vtable >>= leadTo p.order table) b)
      ((writeVTable (VTable.recode p.order p.order' vtable) >>= leadTo p.order' table) b') := by
  refine (writeVTable_agree h _).bind fun position c c' hc _ h => ?_
  obtain ⟨d, hputs, -, -, rfl⟩ := (writeVTable_ends _ _).of_ok hc
  exact leadTo_agree h hword (Nat.le_trans hle hputs.keeps.offset_le) position

theorem endObject_agree : Agree p (endObject b) (endObject b') := by
  unfold endObject
  refine (openObject_agree h _).bind fun o b b' _ _ h => ?_
  refine (push_agree h .i32 0).bind fun table c c' hc _ h => ?_
  obtain ⟨hword, htable⟩ := word_le_of_push hc
  have hrecode : o.vtable p.order' table = VTable.recode p.order p.order' (o.vtable p.order table) :=
    (VTable.recode_encode ..).symm
  refine .ite (fun _ => .error h) fun _ => ?_
  dsimp only
  rw [get_bind, get_bind, h.order, h.order', hrecode, setStage_bind, setStage_bind]
  refine (sharedVTable?_agree (h.setStage .idle) _).bind fun found d d' hd _ h => ?_
  have hfound := (sharedVTable?_ends _ _).of_ok hd
  -- Either way the first word of the table is behind what is written by now, where it is patched.
  cases found with
  | some vtable =>
    obtain ⟨-, -, cache, -, rfl⟩ := hfound
    exact leadTo_agree h hword htable vtable
  | none =>
    obtain ⟨rfl, -⟩ := hfound
    exact leadToOwn_agree h hword htable _

/-- What a reader of the written bytes is told about a slot decides. -/
theorem required_agree (table : Offset .table) (slot : Nat)
    (hhas : (b'.tableView table.value).has slot = (b.tableView table.value).has slot) :
    Agree p (required table slot b) (required table slot b') := by
  unfold required
  rw [get_bind, get_bind]
  dsimp only
  unfold Builder.tableView at hhas
  rw [hhas, h.offset]
  refine .ite (fun _ => .error h) fun _ => ?_
  generalize Table.has _ slot = stored
  cases stored with
  | ok present =>
    cases present with
    | true => exact .ok h
    | false => exact .error h
  | error f => exact .error h

end Tables

section Vectors

include h

theorem startVector_agree (elementSize count alignment : Nat) :
    Agree p (startVector elementSize count alignment b)
      (startVector elementSize count alignment b') := by
  unfold startVector
  refine (requireIdle_agree h _).bind fun _ b b' _ _ h => ?_
  refine .ite (fun _ => .error h) fun _ => ?_
  refine (prep_agree h _ _).bind fun _ b b' _ _ h => ?_
  refine (prep_agree h _ _).bind fun _ b b' _ _ h => ?_
  rw [offset_bind, offset_bind, h.offset]
  exact .ok (h.setStage _)

theorem takeVector_agree : Agree p (takeVector b) (takeVector b') := by
  unfold takeVector
  refine (requireUnfinished_agree h).bind fun _ b b' _ _ h => ?_
  rw [get_bind, get_bind, h.stage]
  cases b.stage with
  | vector v => exact .ok (h.setStage _)
  | idle => exact .error h
  | object o => exact .error h
  | finished => exact .error h

/-- A count is written in room of its own. -/
theorem putCount_agree {kind : OffsetKind} (count : Nat) :
    Agree p ((do reserve 4; putWord count; return (⟨← offset⟩ : Offset kind)) b)
      ((do reserve 4; putWord count; return (⟨← offset⟩ : Offset kind)) b') := by
  refine reserve_bind_agree h 4 fun c c' h hroom hroom' => ?_
  refine (putWord_agree h count hroom hroom').bind fun _ b b' _ _ h => ?_
  exact (offset_agree h).bind fun _ b b' _ _ h => .ok h

theorem endVector_agree : Agree p (endVector b) (endVector b') := by
  unfold endVector
  refine (takeVector_agree h).bind fun v b b' _ _ h => ?_
  rw [offset_bind, offset_bind, h.offset]
  exact .ite (fun _ => .error h) fun _ => putCount_agree h v.count

/-- Filling an opened vector may use the room that was made for its elements in both builders. -/
theorem fill_agree {elementSize count alignment : Nat} {fill : Build Unit}
    (hfill : ∀ c c' : Builder, Alike p c c' → elementSize * count ≤ c.arena.headroom →
      elementSize * count ≤ c'.arena.headroom → Agree p (fill c) (fill c')) :
    Agree p ((do startVector elementSize count alignment; fill; endVector) b)
      ((do startVector elementSize count alignment; fill; endVector) b') := by
  refine (startVector_agree h _ _ _).bind fun _ c c' hc hc' h => ?_
  obtain ⟨-, -, -, -, d, -, hroom, rfl⟩ := (startVector_ends b _ _ _).of_ok hc
  obtain ⟨-, -, -, -, d', -, hroom', rfl⟩ := (startVector_ends b' _ _ _).of_ok hc'
  exact (hfill _ _ h hroom hroom').bind fun _ b b' _ _ h => endVector_agree h

/-- Bytes of the announced length are put in front at once. -/
theorem fill_put_agree {elementSize count alignment : Nat} (bytes : ByteOrder → List UInt8)
    (hlen : ∀ order, (bytes order).length = elementSize * count) :
    Agree p
      ((do
        startVector elementSize count alignment
        let order := (← get).order
        put (bytes order)
        endVector) b)
      ((do
        startVector elementSize count alignment
        let order := (← get).order
        put (bytes order)
        endVector) b') := by
  let fill : Build Unit := do put (bytes (← get).order)
  have hfill (c c' : Builder) (h : Alike p c c') (hroom : elementSize * count ≤ c.arena.headroom)
      (hroom' : elementSize * count ≤ c'.arena.headroom) : Agree p (fill c) (fill c') :=
    put_in_order_agree h bytes hlen hroom hroom'
  have hfilled : Agree p ((do startVector elementSize count alignment; fill; endVector) b)
    ((do startVector elementSize count alignment; fill; endVector) b') := fill_agree h hfill
  simpa only [fill, bind_assoc] using hfilled

theorem createVector_agree (ty : ScalarType) (items : List ty.Value) :
    Agree p (createVector ty items b) (createVector ty items b') :=
  fill_put_agree h (fun order => items.flatMap (ty.encode order)) fun order =>
    length_flatMap_encode (ty.length_encode order) items

theorem createByteVectorAligned_agree (bytes : List UInt8) (alignment : Nat) :
    Agree p (createByteVectorAligned bytes alignment b)
      (createByteVectorAligned bytes alignment b') := by
  unfold createByteVectorAligned
  refine .ite (fun _ => .error h) fun _ => ?_
  exact fill_put_agree h (fun _ => bytes) fun _ => (Nat.one_mul _).symm

theorem createVectorOfStructs_agree (layout : StructLayout) (items : List layout.Value) :
    Agree p (createVectorOfStructs layout items b) (createVectorOfStructs layout items b') := by
  unfold createVectorOfStructs
  refine .ite (fun _ => .error h) fun _ => ?_
  exact fill_put_agree h (fun order => items.flatMap (layout.encode order)) fun order =>
    length_flatMap_encode (layout.length_encode order) items

theorem requireAllWritten_agree {kind : OffsetKind} (op : Operation) (bound : Nat)
    (items : List (Offset kind)) :
    Agree p ((items.forM fun item => requireWritten op item.value bound) b)
      ((items.forM fun item => requireWritten op item.value bound) b') := by
  induction items generalizing b b' with
  | nil => exact .ok h
  | cons item items ih =>
    rw [List.forM_eq_forM, List.forM_cons]
    exact (requireWritten_agree h op item.value bound).bind fun _ b b' _ _ h => ih h

/-- The room that is left on both sides is what the induction carries. -/
theorem putReferences_agree {kind : OffsetKind} (items : List (Offset kind))
    (hroom : 4 * items.length ≤ b.arena.headroom) (hroom' : 4 * items.length ≤ b'.arena.headroom) :
    Agree p ((items.reverse.forM fun item => do putWord ((← offset) - item.value + 4)) b)
      ((items.reverse.forM fun item => do putWord ((← offset) - item.value + 4)) b') := by
  induction items with
  | nil => exact .ok h
  | cons item items ih =>
    rw [List.length_cons] at hroom hroom'
    rw [List.reverse_cons, List.forM_eq_forM, List.forM_append]
    refine (ih (by omega) (by omega)).bind fun _ c c' hc hc' h => ?_
    obtain ⟨-, hleft⟩ := (putReferences_ends b items (by omega)).of_ok hc
    obtain ⟨-, hleft'⟩ := (putReferences_ends b' items (by omega)).of_ok hc'
    rw [List.forM_cons]
    refine Agree.bind ?_ fun _ b b' _ _ h => .ok h
    rw [offset_bind, offset_bind, h.offset]
    exact putWord_agree h _ (by omega) (by omega)

theorem createVectorOfOffsets_agree {kind : OffsetKind} (items : List (Offset kind)) :
    Agree p (createVectorOfOffsets items b) (createVectorOfOffsets items b') := by
  unfold createVectorOfOffsets
  refine (requireIdle_agree h _).bind fun _ b b' _ _ h => ?_
  rw [offset_bind, offset_bind, h.offset]
  refine (requireAllWritten_agree h _ _ items).bind fun _ b b' _ _ h => ?_
  exact fill_agree h fun c c' h hroom hroom' => putReferences_agree h items hroom hroom'

theorem createByteString_agree (bytes : List UInt8) :
    Agree p (createByteString bytes b) (createByteString bytes b') := by
  unfold createByteString
  refine (requireIdle_agree h _).bind fun _ b b' _ _ h => ?_
  refine prep_bind_agree h _ _ fun c c' h hroom hroom' => ?_
  have hone : ([0] : List UInt8).length = 1 := rfl
  refine (put_agree h rfl (fun _ => rfl) (by omega) (by omega)).bind fun _ d d' hd hd' h => ?_
  obtain ⟨-, hleft, -⟩ := (put_ends c _).of_ok hd
  obtain ⟨-, hleft', -⟩ := (put_ends c' _).of_ok hd'
  refine (put_agree h rfl (fun _ => rfl) (by omega) (by omega)).bind fun _ b b' _ _ h => ?_
  exact putCount_agree h bytes.length

end Vectors

section Finishing

include h

theorem seal_agree (sizePrefixed : Bool) :
    Agree p
      ((do
        if sizePrefixed then
          let size ← offset
          reserve 4
          putWord size
        setStage .finished) b)
      ((do
        if sizePrefixed then
          let size ← offset
          reserve 4
          putWord size
        setStage .finished) b') := by
  refine .ite (fun _ => ?_) fun _ => .ok (h.setStage _)
  rw [offset_bind, offset_bind, h.offset]
  refine reserve_bind_agree h 4 fun c c' h hroom hroom' => ?_
  exact (putWord_agree h _ hroom hroom').bind fun _ b b' _ _ h => .ok (h.setStage _)

theorem finishWith_agree (root : Offset .table) (identifier : Option Identifier) (sizePrefixed : Bool) :
    Agree p (finishWith root identifier sizePrefixed b)
      (finishWith root identifier sizePrefixed b') := by
  unfold finishWith
  refine (requireIdle_agree h _).bind fun _ b b' _ _ h => ?_
  rw [offset_bind, offset_bind, h.offset]
  refine (requireWritten_agree h _ _ _).bind fun _ b b' _ _ h => ?_
  rw [get_bind, get_bind, h.minAlign]
  dsimp only
  refine prep_bind_agree h _ _ fun c c' h hroom hroom' => ?_
  cases identifier with
  | none =>
    exact (pushReference_agree h _).bind fun _ b b' _ _ h => seal_agree h sizePrefixed
  | some id =>
    have hlen : id.bytes.length = 4 := id.length_eq
    refine (put_agree h rfl (fun _ => rfl) (by omega) (by omega)).bind fun _ b b' _ _ h => ?_
    exact (pushReference_agree h _).bind fun _ b b' _ _ h => seal_agree h sizePrefixed

end Finishing

section Replies

theorem silent_agree {step : Build Unit} (h : Agree p (step b) (step b')) :
    Agree p (silent step b) (silent step b') :=
  h.bind fun _ _ _ _ _ h => .ok h

theorem located_agree {kind : OffsetKind} {step : Build (Offset kind)}
    (h : Agree p (step b) (step b')) :
    Agree p (located step b) (located step b') :=
  h.bind fun _ _ _ _ _ h => .ok h

theorem placed_agree {step : Build Nat} (h : Agree p (step b) (step b')) :
    Agree p (placed step b) (placed step b') :=
  h.bind fun _ _ _ _ _ h => .ok h

end Replies

/-- One call ends alike on builders that are alike. -/
theorem step_agree (h : Alike p b b') (c : Call) (hread : b.ReadsAlike b' c) :
    Agree p (c.step b) (c.step b') := by
  cases c with
  | reset => exact .ok h.reset
  | prep size additional => exact silent_agree (prep_agree h size additional)
  | pad n => exact silent_agree (pad_agree h n)
  | push ty v => exact placed_agree (push_agree h ty v)
  | pushOffset target => exact placed_agree (pushOffset_agree h _)
  | startObject slots => exact silent_agree (startObject_agree h slots)
  | addScalar slot ty v default => exact silent_agree (addScalar_agree h slot ty v default)
  | addScalarAlways slot ty v => exact silent_agree (addScalarAlways_agree h slot ty v)
  | addOffset slot target => exact silent_agree (addOffset_agree h slot _)
  | createStruct layout v => exact located_agree (createStruct_agree h layout v)
  | addStruct slot struct => exact silent_agree (addStruct_agree h slot _)
  | addUnion typeSlot valueSlot union => exact silent_agree (addUnion_agree h typeSlot valueSlot union)
  | endObject => exact located_agree (endObject_agree h)
  | required table slot => exact silent_agree (required_agree h _ slot hread)
  | startVector elementSize count alignment =>
    exact silent_agree (startVector_agree h elementSize count alignment)
  | endVector => exact located_agree (endVector_agree h)
  | createVector ty items => exact located_agree (createVector_agree h ty items)
  | createByteVector bytes => exact located_agree (createByteVectorAligned_agree h bytes 1)
  | createByteVectorAligned bytes alignment =>
    exact located_agree (createByteVectorAligned_agree h bytes alignment)
  | createVectorOfOffsets targets => exact located_agree (createVectorOfOffsets_agree h _)
  | createVectorOfStructs layout items => exact located_agree (createVectorOfStructs_agree h layout items)
  | createString s => exact located_agree (createByteString_agree h _)
  | createByteString bytes => exact located_agree (createByteString_agree h bytes)
  | createNestedBuffer bytes => exact located_agree (createByteVectorAligned_agree h bytes 8)
  | finish root identifier => exact silent_agree (finishWith_agree h _ identifier false)
  | finishSizePrefixed root identifier => exact silent_agree (finishWith_agree h _ identifier true)
  | finishedData =>
    rw [Call.step, get_bind, get_bind, Builder.finishedData, Builder.finishedData, h.finishedBytes hread]
    cases b.finishedBytes .finishedData with
    | ok bytes => exact .ok h
    | error e => exact .error h

end Build

end TableBuffer
