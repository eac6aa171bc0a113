import TableBuffer.Proofs.Values

/-!
# The round trip of a value tree

Whatever a run of calls built, in whatever order and with whatever options, the readers find it in the
finished buffer. The induction is on the tree: what its leaves left at their offsets is still there at the
end, and so are the tables and what was stored in their slots.
-/

namespace TableBuffer

theorem mem_storedBy {options : Options} {events : List Event} {c : Call} {reply : Reply}
    {s : Nat × Content} (he : (c, .ok reply) ∈ events) (hs : s ∈ c.stored options) :
    s ∈ storedBy options events :=
  List.mem_flatMap.2 ⟨_, he, hs⟩

theorem TableSpan.mem {events inside : List Event} {slots o : Nat} (h : TableSpan events slots inside o)
    {e : Event} (he : e ∈ inside) : e ∈ events := by
  obtain ⟨before, after, rfl, -⟩ := h
  exact List.mem_append_right _ (List.mem_cons_of_mem _ (List.mem_append_left _ he))

section Slots

variable {t : Table} {slot : Nat} {ty : ScalarType}

theorem Table.lacks_of_has (h : t.has slot = .ok false) : t.Lacks slot := by
  refine ⟨h, fun read => ?_⟩
  cases hoffset : t.fieldOffset slot with
  | error f =>
    rw [Table.has, hoffset] at h
    cases h
  | ok offset =>
    rw [Table.has, hoffset] at h
    obtain rfl : offset = 0 := by simpa using Except.ok.inj h
    rw [Table.readField, Table.fieldPosition?, hoffset]
    rfl

theorem Table.Lacks.scalar (h : t.Lacks slot) (default : ty.Value) :
    t.scalar ty slot default = .ok default := by
  rw [Table.scalar, Table.scalar?, h.2]
  rfl

theorem Table.gives_of_scalar? {v : ty.Value} (h : t.scalar? ty slot = .ok (some v)) : t.Gives ty slot v := by
  refine ⟨h, fun default => ?_⟩
  rw [Table.scalar, h]
  rfl

variable {order : ByteOrder} {written : List UInt8} {table slots : Nat} {stored : List (Nat × Content)}
  (h : TableHolds order written table slots stored) (hmax : written.length ≤ maxBufferSize)

include h hmax

theorem TableHolds.lacks (hslot : slot ∉ stored.map Prod.fst) :
    Table.Lacks ⟨Image.ofList order written, written.length - table⟩ slot := by
  apply Table.lacks_of_has
  rw [h.has hmax, decide_eq_false hslot]

theorem TableHolds.readTarget_ok {α : Type} {target : Nat} {read : Nat → Outcome α} {a : α}
    (hs : (slot, .reference target) ∈ stored) (hread : read (written.length - target) = .ok a) :
    Table.readTarget ⟨Image.ofList order written, written.length - table⟩ slot read = .ok (some a) := by
  rw [h.readTarget hmax hs, hread]
  rfl

theorem TableHolds.union? {typeSlot valueSlot target : Nat} {tag : UInt8} (htag : tag ≠ 0)
    (hvalue : (valueSlot, .reference target) ∈ stored)
    (htype : (typeSlot, .scalar .u8 (BitVec.ofNat 8 tag.toNat)) ∈ stored) :
    Table.union? ⟨Image.ofList order written, written.length - table⟩ typeSlot valueSlot =
      .ok (some ⟨tag, Image.ofList order written, written.length - target⟩) := by
  have hbits := (Table.gives_of_scalar? (h.scalar? hmax htype)).2 0
  have htarget : Table.readTarget ⟨Image.ofList order written, written.length - table⟩ valueSlot pure =
      .ok (some (written.length - target)) :=
    h.readTarget_ok hmax hvalue rfl
  have hbyte : UInt8.ofNat (BitVec.ofNat 8 tag.toNat).toNat = tag := by
    simp
  rw [Table.union?, hbits, ok_bind, Table.target?, htarget, ok_bind]
  dsimp only
  rw [hbyte, if_neg htag]
  rfl

end Slots

section Leaves

variable {b : Builder} {events : List Event} {written : List UInt8} {o : Nat}

theorem StringMade.stands {s : String} (h : StringMade events s o) (hrun : b.Wrote events written) :
    StandsAt written o (b.order.encode 4 s.toUTF8.toList.length ++ s.toUTF8.toList) := by
  obtain ⟨b', hevents, hw⟩ := hrun.run
  rcases h with h | h
  · exact (hevents.createByteString hrun.no_reset rfl h).mono hw
  · exact (hevents.createByteString hrun.no_reset rfl h).mono hw

theorem Builder.Wrote.byteVector {c : Call} {bytes : List UInt8} {alignment : Nat}
    (hrun : b.Wrote events written)
    (hc : c.step = Build.located (Build.createByteVectorAligned bytes alignment))
    (he : (c, .ok (.offset o)) ∈ events) :
    VectorAt b.order written o 1 (bytes.map UInt8.toBitVec)
      fun w o v => StandsAt w o (ScalarType.u8.encode b.order v) := by
  obtain ⟨b', hevents, hw⟩ := hrun.run
  have hstands := (hevents.createByteVectorAligned hrun.no_reset hc he).mono hw
  apply vectorAt_flatMap (ScalarType.u8.length_encode b.order)
  rwa [flatMap_encode_bytes, List.length_map]

theorem ScalarsMade.vectorAt {ty : ScalarType} {items : List ty.Value} (h : ScalarsMade events o ty items)
    (hrun : b.Wrote events written) :
    VectorAt b.order written o ty.size items fun w o v => StandsAt w o (ty.encode b.order v) := by
  obtain ⟨b', hevents, hw⟩ := hrun.run
  cases h with
  | whole h => exact (hevents.createVector hrun.no_reset h).mono (fun o v hv => hv.mono hw) hw
  | filled h =>
    have hvector := hevents.filled (Builder.putsItem_push b.order ty) (fun w w' o v hv hw => hv.mono hw)
      hrun.no_reset h
    exact hvector.mono (fun o v hv => hv.mono hw) hw
  | bytes h => exact hrun.byteVector rfl h
  | aligned h => exact hrun.byteVector rfl h
  | nested h => exact hrun.byteVector rfl h

theorem StructsMade.vectorAt {type : LawfulLayout} {items : List type.Value}
    (h : StructsMade events o type items) (hrun : b.Wrote events written) :
    0 < type.size ∧ VectorAt b.order written o type.size items
      fun w o v => StandsAt w o (type.encode b.order v) := by
  obtain ⟨b', hevents, hw⟩ := hrun.run
  cases h with
  | whole h =>
    obtain ⟨hpos, hvector⟩ := hevents.createVectorOfStructs hrun.no_reset h
    exact ⟨hpos, hvector.mono (fun o v hv => hv.mono hw) hw⟩
  | filled hpos h =>
    have hvector := hevents.filled (Builder.putsItem_createStruct b.order type.toStructLayout)
      (fun w w' o v hv hw => hv.mono hw) hrun.no_reset h
    exact ⟨hpos, hvector.mono (fun o v hv => hv.mono hw) hw⟩

theorem ReferencesMade.vectorAt {targets : List Nat} (h : ReferencesMade events o targets)
    (hrun : b.Wrote events written) : VectorAt b.order written o 4 targets (ReferenceAt b.order) := by
  obtain ⟨b', hevents, hw⟩ := hrun.run
  cases h with
  | whole h => exact (hevents.createVectorOfOffsets hrun.no_reset h).mono (fun o t ht => ht.mono hw) hw
  | filled h =>
    have hvector := hevents.filled (Builder.putsItem_pushOffset b.order) (fun w w' o t ht hw => ht.mono hw)
      hrun.no_reset h
    exact hvector.mono (fun o t ht => ht.mono hw) hw

theorem ScalarsMade.found {ty : ScalarType} {items : List ty.Value} (h : ScalarsMade events o ty items)
    (hrun : b.Wrote events written) :
    ∃ v, Vector.ofPosition (.scalar ty) (Image.ofList b.order written) (written.length - o) = .ok v ∧
      v.Holds items := by
  have hholds := (h.vectorAt hrun).holds (.scalar ty) id ty.size_pos rfl hrun.size_le
    fun o v _ hv => scalar_of_standsAt hv
  rwa [List.map_id] at hholds

theorem StructsMade.found {type : LawfulLayout} {items : List type.Value}
    (h : StructsMade events o type items) (hrun : b.Wrote events written) :
    ∃ v, Vector.ofPosition (.struct type.toStructLayout) (Image.ofList b.order written)
      (written.length - o) = .ok v ∧ v.Holds items := by
  obtain ⟨hpos, hvector⟩ := h.vectorAt hrun
  have hholds := hvector.holds (.struct type.toStructLayout) id hpos rfl hrun.size_le
    fun o v _ hv => decode_of_standsAt hv
  rwa [List.map_id] at hholds

theorem ReferencesMade.found_strings {made : List (String × Nat)}
    (h : ReferencesMade events o (made.map Prod.snd)) (hrun : b.Wrote events written)
    (hstrings : ∀ p ∈ made, StringMade events p.1 p.2) :
    ∃ v, Vector.ofPosition .string (Image.ofList b.order written) (written.length - o) = .ok v ∧
      v.Holds ((made.map Prod.fst).map .ok) := by
  rw [List.map_map]
  refine (h.vectorAt hrun).of_map.holds .string (fun p => .ok p.1) (by decide) rfl hrun.size_le
    fun o p hp hreference => ?_
  have htarget := target_of_referenceAt (Nat.lt_of_le_of_lt hrun.size_le (by decide)) hreference
  have htext := text_of_standsAt hrun.size_le ((hstrings p hp).stands hrun)
  show (do
    let target ← (Image.ofList b.order written).target _
    (Image.ofList b.order written).text target) = _
  rw [htarget, ok_bind, htext]

theorem ReferencesMade.found_tables {offsets : List Nat} (h : ReferencesMade events o offsets)
    (hrun : b.Wrote events written) :
    ∃ v, Vector.ofPosition .table (Image.ofList b.order written) (written.length - o) = .ok v ∧
      v.Holds (offsets.map fun p => ⟨Image.ofList b.order written, written.length - p⟩) := by
  refine (h.vectorAt hrun).holds .table
    (fun p => (⟨Image.ofList b.order written, written.length - p⟩ : Table)) (by decide) rfl hrun.size_le
    fun o p _ hreference => ?_
  have htarget := target_of_referenceAt (Nat.lt_of_le_of_lt hrun.size_le (by decide)) hreference
  show (do
    let target ← (Image.ofList b.order written).target _
    return (⟨Image.ofList b.order written, target⟩ : Table)) = _
  rw [htarget]
  rfl

end Leaves

section Shown

variable {b : Builder} {events : List Event} {written : List UInt8}

mutual

/-- What a run built is shown at its offset. -/
theorem TableValue.shown (hrun : b.Wrote events written) (value : TableValue) (o : Nat)
    (h : value.MadeAt b.options events o) :
    value.ShownBy b.options ⟨Image.ofList b.order written, written.length - o⟩ := by
  cases value with
  | mk slots fields =>
    obtain ⟨inside, hspan, hslots, hfields⟩ := h
    have htable := hrun.tableHolds hspan
    refine ⟨htable.slotCount hrun.size_le, fun slot hslot => ?_, ?_⟩
    · apply htable.lacks hrun.size_le
      -- A slot that the value leaves out was stored by no call in between.
      intro hstored
      obtain ⟨s, hs, rfl⟩ := List.mem_map.1 hstored
      exact hslot (hslots s hs)
    · exact FieldValue.allShown hrun fields htable (fun e he => hspan.mem he) hfields

theorem FieldValue.shown (hrun : b.Wrote events written) (field : FieldValue) {inside : List Event}
    {slots table : Nat} (htable : TableHolds b.order written table slots (storedBy b.options inside))
    (hinside : ∀ e ∈ inside, e ∈ events) (h : field.MadeIn b.options events inside) :
    field.ShownBy b.options ⟨Image.ofList b.order written, written.length - table⟩ := by
  have hmax := hrun.size_le
  have hreference : ∀ {slot o : Nat}, (.addOffset slot o, .ok .done) ∈ inside →
      (slot, .reference o) ∈ storedBy b.options inside :=
    fun he => mem_storedBy he (List.mem_singleton.2 rfl)
  cases field with
  | scalar slot ty v =>
    exact Table.gives_of_scalar? (htable.scalar? hmax (mem_storedBy h (List.mem_singleton.2 rfl)))
  | defaulted slot ty v default =>
    obtain ⟨hadd, habsent⟩ := h
    rw [FieldValue.ShownBy]
    split
    · rename_i helided
      have hlacks := htable.lacks hmax (habsent helided)
      exact ⟨hlacks, hlacks.scalar default⟩
    · rename_i hstored
      refine Table.gives_of_scalar? (htable.scalar? hmax (mem_storedBy hadd ?_))
      rw [Call.stored, if_neg hstored]
      exact List.mem_singleton.2 rfl
  | struct slot type v =>
    obtain ⟨o, hcreate, hadd⟩ := h
    obtain ⟨offset, hcontent, hread⟩ :=
      htable.readField hmax (mem_storedBy hadd (List.mem_singleton.2 rfl))
    obtain rfl : o = offset := hcontent
    rw [FieldValue.ShownBy, Table.record?, hread,
      decode_of_standsAt (hrun.createStruct (hinside _ hcreate))]
    rfl
  | string slot s =>
    obtain ⟨o, hstring, hadd⟩ := h
    exact htable.readTarget_ok hmax (hreference hadd) (string_of_standsAt hmax (hstring.stands hrun))
  | scalars slot ty items =>
    obtain ⟨o, hvector, hadd⟩ := h
    obtain ⟨v, hposition, hholds⟩ := hvector.found hrun
    exact ⟨v, htable.readTarget_ok hmax (hreference hadd) hposition, hholds⟩
  | strings slot items =>
    obtain ⟨o, made, rfl, hstrings, hvector, hadd⟩ := h
    obtain ⟨v, hposition, hholds⟩ := hvector.found_strings hrun hstrings
    exact ⟨v, htable.readTarget_ok hmax (hreference hadd) hposition, hholds⟩
  | structs slot type items =>
    obtain ⟨o, hvector, hadd⟩ := h
    obtain ⟨v, hposition, hholds⟩ := hvector.found hrun
    exact ⟨v, htable.readTarget_ok hmax (hreference hadd) hposition, hholds⟩
  | tables slot items =>
    obtain ⟨o, offsets, hitems, hvector, hadd⟩ := h
    obtain ⟨v, hposition, hholds⟩ := hvector.found_tables hrun
    exact ⟨v, _, htable.readTarget_ok hmax (hreference hadd) hposition, hholds,
      TableValue.allShown hrun items offsets hitems⟩
  | table slot value =>
    obtain ⟨o, hvalue, hadd⟩ := h
    exact ⟨_, htable.readTarget_ok hmax (hreference hadd) rfl, TableValue.shown hrun value o hvalue⟩
  | union typeSlot valueSlot tag payload =>
    obtain ⟨o, htag, hpayload, hadd⟩ := h
    refine ⟨_, htable.union? hmax htag (mem_storedBy hadd (List.mem_cons_self ..))
      (mem_storedBy hadd (List.mem_cons_of_mem _ (List.mem_singleton.2 rfl))), rfl, ?_⟩
    exact UnionPayload.shown hrun payload o tag hpayload

theorem UnionPayload.shown (hrun : b.Wrote events written) (payload : UnionPayload) (o : Nat) (tag : UInt8)
    (h : payload.MadeAt b.options events o) :
    payload.ShownBy b.options ⟨tag, Image.ofList b.order written, written.length - o⟩ := by
  cases payload with
  | table value => exact TableValue.shown hrun value o h
  | string s => exact string_of_standsAt hrun.size_le (StringMade.stands h hrun)
  | struct type v => exact decode_of_standsAt (hrun.createStruct h)

theorem FieldValue.allShown (hrun : b.Wrote events written) (fields : List FieldValue)
    {inside : List Event} {slots table : Nat}
    (htable : TableHolds b.order written table slots (storedBy b.options inside))
    (hinside : ∀ e ∈ inside, e ∈ events) (h : FieldValue.AllMadeIn b.options events inside fields) :
    FieldValue.AllShownBy b.options ⟨Image.ofList b.order written, written.length - table⟩ fields := by
  cases fields with
  | nil => trivial
  | cons field fields =>
    obtain ⟨hfield, hfields⟩ := h
    exact ⟨FieldValue.shown hrun field htable hinside hfield,
      FieldValue.allShown hrun fields htable hinside hfields⟩

theorem TableValue.allShown (hrun : b.Wrote events written) (values : List TableValue)
    (offsets : List Nat) (h : TableValue.AllMadeAt b.options events values offsets) :
    TableValue.AllShownBy b.options values
      (offsets.map fun p => ⟨Image.ofList b.order written, written.length - p⟩) := by
  cases values with
  | nil =>
    cases offsets with
    | nil => trivial
    | cons o offsets => exact h.elim
  | cons value values =>
    cases offsets with
    | nil => exact h.elim
    | cons o offsets =>
      obtain ⟨hvalue, hvalues⟩ := h
      exact ⟨TableValue.shown hrun value o hvalue, TableValue.allShown hrun values offsets hvalues⟩

end

end Shown

namespace Builder

theorem Wrote.checkedTable {b : Builder} {events : List Event} {written : List UInt8}
    (h : b.Wrote events written) {value : TableValue} {o : Nat} (hvalue : value.MadeAt b.options events o) :
    (Image.ofList b.order written).checkedTable (written.length - o) =
      .ok ⟨Image.ofList b.order written, written.length - o⟩ := by
  cases value with
  | mk slots fields =>
    obtain ⟨inside, hspan, -, -⟩ := hvalue
    exact (h.tableHolds hspan).checkedTable h.size_le

/-- What a run built is read back from the root of the finished buffer, whatever the options, the byte
order and the order of the calls. -/
theorem finished_value_shown {b b' b'' : Builder} {events : List Event} {value : TableValue} {root : Nat}
    {identifier : Option Identifier} {reply : Reply} (hb : b.Fresh) (hrun : b.Runs events b')
    (hreset : ∀ e ∈ events, e.1 ≠ .reset) (hvalue : value.MadeAt b.options events root) :
    (b'.call (.finish root identifier) = (.ok reply, b'') → ∃ bytes t, b''.finishedData = .ok bytes ∧
      (Image.ofList b.order bytes).root = .ok t ∧ value.ShownBy b.options t) ∧
    (b'.call (.finishSizePrefixed root identifier) = (.ok reply, b'') →
      ∃ bytes t, b''.finishedData = .ok bytes ∧
        (Image.ofList b.order bytes).sizePrefixedRoot = .ok t ∧ value.ShownBy b.options t) := by
  constructor
  · intro hfinish
    have hfin := (finish_call_ends b' root identifier).of_call_ok hfinish
    obtain ⟨body, hdata, -, hbody, hroot⟩ := hrun.finished hb.sound hreset hfin
    have hcheck := hbody.checkedTable hvalue
    exact ⟨body, _, hdata, root_of_referenceAt hroot hbody.size_le hcheck,
      TableValue.shown hbody value root hvalue⟩
  · intro hfinish
    have hfin := (finishSizePrefixed_call_ends b' root identifier).of_call_ok hfinish
    obtain ⟨body, hdata, hframe, hbody, hroot⟩ := hrun.finished hb.sound hreset hfin
    have hcheck := hbody.checkedTable hvalue
    exact ⟨_, _, hdata, sizePrefixedRoot_framed hroot hframe.size_le hcheck,
      TableValue.shown hbody value root hvalue⟩

/-- The calls inside the table `smallTree` that the run `smallRun` builds. -/
def smallFields : List Event :=
  [(.addOffset 2 28, .ok .done),
    (.createStruct pairLayout ((1 : BitVec 8), (2 : BitVec 32), ()), .ok (.offset 48)),
    (.addStruct 1 48, .ok .done), (.addUnion 3 4 (.some 9 ⟨8⟩ (by decide)), .ok .done),
    (.addOffset 5 36, .ok .done), (.addScalarAlways 0 .u8 (1 : BitVec 8), .ok .done)]

def smallRun : List Event :=
  [(.createString "hi", .ok (.offset 8)), (.startObject 1, .ok .done),
    (.addScalar 0 .u32 (7 : BitVec 32) (7 : BitVec 32), .ok .done), (.endObject, .ok (.offset 12)),
    (.createVectorOfOffsets [12], .ok (.offset 28)), (.startVector 2 2 2, .ok .done),
    (.push .u16 (4 : BitVec 16), .ok (.offset 30)), (.push .u16 (3 : BitVec 16), .ok (.offset 32)),
    (.endVector, .ok (.offset 36)), (.startObject 6, .ok .done)] ++
    smallFields ++ [(.endObject, .ok (.offset 68))]

/-- A table with a vector of tables, a struct, a union, a vector of scalars and a scalar. -/
def smallTree : TableValue :=
  .mk 6 [.tables 2 [.mk 1 [.defaulted 0 .u32 (7 : BitVec 32) (7 : BitVec 32)]],
    .struct 1 (.ofApart pairLayout (by decide)) ((1 : BitVec 8), (2 : BitVec 32), ()),
    .union 3 4 9 (.string "hi"), .scalars 5 .u16 [(3 : BitVec 16), (4 : BitVec 16)],
    .scalar 0 .u8 (1 : BitVec 8)]

theorem smallRun_runs : (new .little).Runs smallRun ((new .little).run (smallRun.map Prod.fst)).2 :=
  runs_of_outcomes (by decide +kernel) (by simp [smallRun, smallFields])

theorem smallTree_made : smallTree.MadeAt .standard smallRun 68 := by
  have hspan : TableSpan smallRun 6 smallFields 68 :=
    ⟨smallRun.take 9, [], rfl, by simp [smallFields]⟩
  have hchild : TableSpan smallRun 1 [(.addScalar 0 .u32 (7 : BitVec 32) (7 : BitVec 32), .ok .done)] 12 :=
    ⟨smallRun.take 1, smallRun.drop 4, rfl, by simp⟩
  have hfilled : Filled smallRun 2 2 [.push .u16 (4 : BitVec 16), .push .u16 (3 : BitVec 16)] 36 :=
    ⟨smallRun.take 5, 2, (smallRun.drop 6).take 2, smallRun.drop 9, rfl, rfl, by simp [smallRun]⟩
  refine ⟨smallFields, hspan, by decide, ?_, ?_, ?_, ?_, ?_, trivial⟩
  · have htables : TableValue.AllMadeAt .standard smallRun [.mk 1 [.defaulted 0 .u32 (7 : BitVec 32)
        (7 : BitVec 32)]] [12] :=
      ⟨⟨_, hchild, by decide, ⟨List.mem_singleton.2 rfl, by decide⟩, trivial⟩, trivial⟩
    exact ⟨28, [12], htables, .whole (List.mem_of_getElem? (i := 4) rfl),
      List.mem_of_getElem? (i := 0) rfl⟩
  · exact ⟨48, List.mem_of_getElem? (i := 1) rfl, List.mem_of_getElem? (i := 2) rfl⟩
  · exact ⟨8, by decide, Or.inl (List.mem_of_getElem? (i := 0) rfl), List.mem_of_getElem? (i := 3) rfl⟩
  · exact ⟨36, .filled hfilled, List.mem_of_getElem? (i := 4) rfl⟩
  · exact List.mem_of_getElem? (i := 5) rfl

theorem smallTree_shown :
    ∃ bytes t, (((new .little).run (smallRun.map Prod.fst)).2.call (.finish 68 none)).2.finishedData =
        .ok bytes ∧
      (Image.ofList .little bytes).root = .ok t ∧ smallTree.ShownBy .standard t := by
  have hfinish : ((new .little).run (smallRun.map Prod.fst)).2.call (.finish 68 none) =
      (.ok .done, (((new .little).run (smallRun.map Prod.fst)).2.call (.finish 68 none)).2) :=
    Prod.ext (by decide +kernel) rfl
  have hreset : ∀ e ∈ smallRun, e.1 ≠ .reset := by simp [smallRun, smallFields]
  exact (finished_value_shown (fresh_new .little) smallRun_runs hreset smallTree_made).1 hfinish

end Builder

end TableBuffer
