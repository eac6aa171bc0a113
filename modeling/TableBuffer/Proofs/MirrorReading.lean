import TableBuffer.Proofs.Mirror
import TableBuffer.Proofs.RoundTrip
import TableBuffer.Vector.Cursor

/-!
# Readers in two byte orders

A reader of a buffer in one order and a reader of the same calls' buffer in another order are told the same:
where things stand, which fields are there, the scalars and the texts, the lengths and the items of vectors.
They are told the same as long as they read what was written as what it was written as. The bytes of a number
themselves are in the one order or the other, and so is what is read of them as something else.
-/

namespace TableBuffer

/-- The two vtables are in the same place and say the same. -/
structure VTable.Matches (v v' : VTable) : Prop where
  position : v'.position = v.position
  length : v'.length = v.length
  tableLength : v'.tableLength = v.tableLength
  slotCount : v'.slotCount = v.slotCount
  entry : ∀ slot, v'.entry slot = v.entry slot
  present : v'.present = v.present

/-- The two tables pass the checks, are in the same place and have the same fields there. -/
structure Table.Matches (t t' : Table) : Prop where
  position : t'.position = t.position
  checked : t.image.checkedTable t.position = .ok t ∧ t'.image.checkedTable t'.position = .ok t'
  vtable : ∃ v v', t.vtable = .ok v ∧ t'.vtable = .ok v' ∧ v.Matches v'
  fieldOffset : ∀ slot, t'.fieldOffset slot = t.fieldOffset slot
  has : ∀ slot, t'.has slot = t.has slot
  fieldPosition? : ∀ slot, t'.fieldPosition? slot = t.fieldPosition? slot

/-- What the readers of a slot are told. Through a reference or to a struct they come to the same place, in
each of the images. -/
def Content.Matches (t t' : Table) (slot : Nat) : Content → Prop
  | scalar ty _ => t'.scalar? ty slot = t.scalar? ty slot ∧
    ∀ default, t'.scalar ty slot default = t.scalar ty slot default
  | reference o => t'.target? slot = t.target? slot ∧ ∀ {α : Type} (read : Image → Nat → Outcome α),
    t.readTarget slot (read t.image) = (read t.image (t.image.size - o)).map some ∧
      t'.readTarget slot (read t'.image) = (read t'.image (t'.image.size - o)).map some
  | struct o => ∀ {α : Type} (read : Image → Nat → Outcome α),
    t.readField slot (read t.image) = (read t.image (t.image.size - o)).map some ∧
      t'.readField slot (read t'.image) = (read t'.image (t'.image.size - o)).map some

/-- The two vectors are in the same place and have the same items, as `tell` puts them. -/
structure Vector.Matches {α β : Type} (tell : α → β) (v v' : Vector α) : Prop where
  position : v'.position = v.position
  length : v'.length = v.length
  elementPosition : ∀ i, v'.elementPosition i = v.elementPosition i
  get? : ∀ i, (v'.get? i).map (Option.map tell) = (v.get? i).map (Option.map tell)
  toList : v'.toList.map (List.map tell) = v.toList.map (List.map tell)

namespace Image

variable {α β : Type}

/-- A reader of what is at the offset is told the same in both images. -/
def TellSame (m m' : Image) (read : Image → Nat → Outcome α) (tell : α → β) (o : Nat) : Prop :=
  (read m' (m'.size - o)).map tell = (read m (m.size - o)).map tell

/-- There is a vector at the offset in both images, with the same items. -/
def VectorsMatch (m m' : Image) (element : Element α) (tell : α → β) (o : Nat) : Prop :=
  ∃ v v', Vector.ofPosition element m (m.size - o) = .ok v ∧
    Vector.ofPosition element m' (m'.size - o) = .ok v' ∧ v.Matches tell v'

end Image

/-- The bytes that a call writes behind their number. -/
def Call.bytes? : Call → Option (List UInt8)
  | createByteVector bytes | createByteVectorAligned bytes _ | createNestedBuffer bytes
  | createByteString bytes => some bytes
  | createString s => some s.toUTF8.toList
  | _ => none

/-- The slot is empty or holds a scalar of type `u8`, as the tag of a union does. -/
def HoldsTag (stored : List (Nat × Content)) (slot : Nat) : Prop :=
  ∀ content, (slot, content) ∈ stored → ∃ v, content = .scalar .u8 v

def HoldsReference (stored : List (Nat × Content)) (slot : Nat) : Prop :=
  ∀ content, (slot, content) ∈ stored → ∃ o, content = .reference o

/-- What the readers of two tables are told that had the same stored in them. -/
structure Table.MatchesOn (stored : List (Nat × Content)) (t t' : Table) : Prop extends Table.Matches t t' where
  absent : ∀ slot, slot ∉ stored.map Prod.fst → t.Lacks slot ∧ t'.Lacks slot
  fields : ∀ s ∈ stored, s.2.Matches t t' s.1
  union? : ∀ typeSlot valueSlot, HoldsTag stored typeSlot → HoldsReference stored valueSlot →
    (t'.union? typeSlot valueSlot).map (Option.map fun u => (u.tag, u.position)) =
      (t.union? typeSlot valueSlot).map (Option.map fun u => (u.tag, u.position))

/-- The readers of two buffers that the same events wrote are told the same about all that was written. -/
structure Image.Matches (options : Options) (events : List Event) (m m' : Image) : Prop where
  size : m'.size = m.size
  table : ∀ slots inside table, TableSpan events slots inside table →
    Table.MatchesOn (storedBy options inside) ⟨m, m.size - table⟩ ⟨m', m'.size - table⟩
  bytes : ∀ c bytes o, (c, .ok (.offset o)) ∈ events → c.bytes? = some bytes →
    m'.byteRun (m'.size - o) = m.byteRun (m.size - o) ∧ m'.text (m'.size - o) = m.text (m.size - o) ∧
      m'.string (m'.size - o) = m.string (m.size - o)
  count : ∀ o, (.endVector, .ok (.offset o)) ∈ events → m'.word32 (m'.size - o) = m.word32 (m.size - o)
  struct : ∀ (type : LawfulLayout) (v : type.Value) o,
    (.createStruct type.toStructLayout v, .ok (.offset o)) ∈ events →
    StructRef.decode ⟨m', m'.size - o⟩ type.toStructLayout = StructRef.decode ⟨m, m.size - o⟩ type.toStructLayout ∧
      ∀ f ∈ type.fields, StructRef.get ⟨m', m'.size - o⟩ f.type f.position =
        StructRef.get ⟨m, m.size - o⟩ f.type f.position
  scalars : ∀ ty items o, ScalarsMade events o ty items → m.VectorsMatch m' (.scalar ty) id o
  structs : ∀ type items o, StructsMade events o type items →
    m.VectorsMatch m' (.struct type.toStructLayout) id o
  references : ∀ targets o, ReferencesMade events o targets →
    ∀ {α β : Type} (read : Image → Nat → Outcome α) (tell : α → β),
      (∀ target ∈ targets, m.TellSame m' read tell target) → m.VectorsMatch m' (.reference read) tell o

section Tables

variable {order order' : ByteOrder} {written written' : List UInt8} {table vtable slots length : Nat}
  {entry : Nat → Nat}

theorem VTable.matches_of_tableAt (hlen : written'.length = written.length)
    (h : TableAt order written table vtable slots length entry)
    (h' : TableAt order' written' table vtable slots length entry) :
    VTable.Matches ⟨Image.ofList order written, written.length - vtable⟩
      ⟨Image.ofList order' written', written'.length - vtable⟩ := by
  have hcount := h'.slotCount.trans h.slotCount.symm
  have hentry (slot : Nat) := (h'.vtable_entry slot).trans (h.vtable_entry slot).symm
  refine ⟨by rw [hlen], h'.vtable_length.trans h.vtable_length.symm,
    h'.vtable_tableLength.trans h.vtable_tableLength.symm, hcount, hentry, ?_⟩
  rw [VTable.present, VTable.present, hcount]
  simp only [hentry]

theorem Table.matches_of_tableAt (hlen : written'.length = written.length)
    (hmax : written.length ≤ maxBufferSize) (h : TableAt order written table vtable slots length entry)
    (h' : TableAt order' written' table vtable slots length entry) :
    Table.Matches ⟨Image.ofList order written, written.length - table⟩
      ⟨Image.ofList order' written', written'.length - table⟩ := by
  have hmax' : written'.length ≤ maxBufferSize := hlen ▸ hmax
  have hoffset (slot : Nat) := (h'.fieldOffset hmax' slot).trans (h.fieldOffset hmax slot).symm
  refine ⟨by rw [hlen], ⟨h.checkedTable hmax, h'.checkedTable hmax'⟩,
    ⟨_, _, h.table_vtable hmax, h'.table_vtable hmax', VTable.matches_of_tableAt hlen h h'⟩, hoffset,
    fun slot => (h'.has hmax' slot).trans (h.has hmax slot).symm, fun slot => ?_⟩
  rw [Table.fieldPosition?, Table.fieldPosition?, hoffset, hlen]

end Tables

section Unions

variable {t t' : Table} {typeSlot valueSlot : Nat}

/-- A union is told by its tag and where its payload is. -/
theorem Table.union?_matches (htag : t'.scalar .u8 typeSlot 0 = t.scalar .u8 typeSlot 0)
    (htarget : t'.target? valueSlot = t.target? valueSlot) :
    (t'.union? typeSlot valueSlot).map (Option.map fun u => (u.tag, u.position)) =
      (t.union? typeSlot valueSlot).map (Option.map fun u => (u.tag, u.position)) := by
  rw [Table.union?, Table.union?, htag, htarget]
  cases t.scalar .u8 typeSlot 0 with
  | error f => rfl
  | ok bits =>
    cases t.target? valueSlot with
    | error f => rfl
    | ok target =>
      rw [ok_bind, ok_bind, ok_bind, ok_bind]
      cases target with
      | none => rfl
      | some position =>
        dsimp only
        split <;> rfl

end Unions

section Contents

variable {order order' : ByteOrder} {written written' : List UInt8} {table slots : Nat}
  {stored : List (Nat × Content)} (hlen : written'.length = written.length)
  (hmax : written.length ≤ maxBufferSize) (h : TableHolds order written table slots stored)
  (h' : TableHolds order' written' table slots stored)

include hlen hmax h h'

theorem TableHolds.content_matches {slot : Nat} {content : Content} (hs : (slot, content) ∈ stored) :
    content.Matches ⟨Image.ofList order written, written.length - table⟩
      ⟨Image.ofList order' written', written'.length - table⟩ slot := by
  have hmax' : written'.length ≤ maxBufferSize := hlen ▸ hmax
  cases content with
  | scalar ty v =>
    have hgives := Table.gives_of_scalar? (h.scalar? hmax hs)
    have hgives' := Table.gives_of_scalar? (h'.scalar? hmax' hs)
    exact ⟨hgives'.1.trans hgives.1.symm, fun default => (hgives'.2 default).trans (hgives.2 default).symm⟩
  | reference o =>
    refine ⟨?_, fun read => ⟨?_, ?_⟩⟩
    · rw [Table.target?, Table.target?, h.readTarget hmax hs, h'.readTarget hmax' hs, hlen]
    · rw [h.readTarget hmax hs, size_ofList]
    · rw [h'.readTarget hmax' hs, size_ofList]
  | struct o =>
    intro α read
    obtain ⟨offset, hcontent, hread⟩ := h.readField hmax hs
    obtain ⟨offset', hcontent', hread'⟩ := h'.readField hmax' hs
    obtain rfl : o = offset := hcontent
    obtain rfl : o = offset' := hcontent'
    rw [hread, hread', size_ofList, size_ofList]
    exact ⟨rfl, rfl⟩

theorem TableHolds.union?_matches {typeSlot valueSlot : Nat} (htag : HoldsTag stored typeSlot)
    (hvalue : HoldsReference stored valueSlot) :
    (Table.union? ⟨Image.ofList order' written', written'.length - table⟩ typeSlot valueSlot).map
        (Option.map fun u => (u.tag, u.position)) =
      (Table.union? ⟨Image.ofList order written, written.length - table⟩ typeSlot valueSlot).map
        (Option.map fun u => (u.tag, u.position)) := by
  have hmax' : written'.length ≤ maxBufferSize := hlen ▸ hmax
  apply Table.union?_matches
  · by_cases hslot : typeSlot ∈ stored.map Prod.fst
    · obtain ⟨⟨slot, content⟩, hs, rfl⟩ := List.mem_map.1 hslot
      obtain ⟨v, rfl⟩ := htag content hs
      exact (h.content_matches hlen hmax h' hs).2 0
    · rw [(h.lacks hmax hslot).scalar, (h'.lacks hmax' hslot).scalar]
  · by_cases hslot : valueSlot ∈ stored.map Prod.fst
    · obtain ⟨⟨slot, content⟩, hs, rfl⟩ := List.mem_map.1 hslot
      obtain ⟨o, rfl⟩ := hvalue content hs
      exact (h.content_matches hlen hmax h' hs).1
    · exact ((h'.lacks hmax' hslot).2 _).trans ((h.lacks hmax hslot).2 _).symm

end Contents

section Vectors

variable {α β : Type} {tell : α → β}

/-- A walk through both vectors is told the same, if the items are told the same one by one. -/
theorem Vector.readFrom_matches {v v' : Vector α} {index count : Nat} (seen seen' : List α)
    (hseen : seen'.map tell = seen.map tell)
    (h : ∀ i, index ≤ i → i < index + count →
      (v'.element.read v'.image (v'.elementPosition i)).map tell =
        (v.element.read v.image (v.elementPosition i)).map tell) :
    (v'.readFrom index seen' count).map (List.map tell) = (v.readFrom index seen count).map (List.map tell) := by
  induction count generalizing index seen seen' with
  | zero =>
    show Except.ok (seen'.reverse.map tell) = Except.ok (seen.reverse.map tell)
    rw [List.map_reverse, List.map_reverse, hseen]
  | succ count ih =>
    have hfirst := h index (Nat.le_refl _) (by omega)
    rw [Vector.readFrom, Vector.readFrom]
    cases hread : v.element.read v.image (v.elementPosition index) with
    | error f =>
      rw [hread] at hfirst
      cases hread' : v'.element.read v'.image (v'.elementPosition index) with
      | error f' =>
        rw [hread'] at hfirst
        obtain rfl : f' = f := Except.error.inj hfirst
        rfl
      | ok a' =>
        rw [hread'] at hfirst
        cases hfirst
    | ok a =>
      rw [hread] at hfirst
      cases hread' : v'.element.read v'.image (v'.elementPosition index) with
      | error f' =>
        rw [hread'] at hfirst
        cases hfirst
      | ok a' =>
        rw [hread'] at hfirst
        have htell : tell a' = tell a := Except.ok.inj hfirst
        rw [ok_bind, ok_bind]
        refine ih (a :: seen) (a' :: seen') (by rw [List.map_cons, List.map_cons, htell, hseen]) ?_
        exact fun i hlo hhi => h i (by omega) (by omega)

theorem Vector.matches_of_read {v v' : Vector α} (hposition : v'.position = v.position)
    (hlength : v'.length = v.length) (helement : v'.element = v.element)
    (h : ∀ i, i < v.length → (v'.element.read v'.image (v'.elementPosition i)).map tell =
      (v.element.read v.image (v.elementPosition i)).map tell) : v.Matches tell v' where
  position := hposition
  length := hlength
  elementPosition i := by rw [Vector.elementPosition, Vector.elementPosition, hposition, helement]
  get? i := by
    rw [Vector.get?, Vector.get?, hlength]
    split
    · have hi := h i ‹_›
      have hsome (r : Outcome α) : (do let a ← r; return some a : Outcome (Option α)).map (Option.map tell) =
          (r.map tell).map some := by
        cases r <;> rfl
      rw [hsome, hsome, hi]
    · rfl
  toList := by
    rw [Vector.toList, Vector.toList, hlength]
    exact Vector.readFrom_matches [] [] rfl fun i _ hi => h i (by omega)

variable {γ : Type} {order order' : ByteOrder} {written written' : List UInt8} {offset size : Nat}
  {items : List γ} {stands stands' : List UInt8 → Nat → γ → Prop}

/-- Vectors of the same items are told the same, if what stands for an item is read the same. -/
theorem VectorAt.match (h : VectorAt order written offset size items stands)
    (h' : VectorAt order' written' offset size items stands') (element : Element α) (hpos : 0 < size)
    (hsize : element.inlineSize = size) (hlen : written'.length = written.length)
    (hmax : written.length ≤ maxBufferSize)
    (hread : ∀ o, ∀ a ∈ items, stands written o a → stands' written' o a →
      (Image.ofList order written).TellSame (Image.ofList order' written') element.read tell o) :
    (Image.ofList order written).VectorsMatch (Image.ofList order' written') element tell offset := by
  refine ⟨⟨element, Image.ofList order written, written.length - offset, items.length⟩,
    ⟨element, Image.ofList order' written', written'.length - offset, items.length⟩, ?_, ?_, ?_⟩
  · rw [size_ofList]
    exact h.ofPosition hpos element hmax
  · rw [size_ofList]
    exact h'.ofPosition hpos element (hlen ▸ hmax)
  · refine Vector.matches_of_read (by rw [hlen]) rfl rfl fun i hi => ?_
    have hitem := List.getElem?_eq_getElem hi
    have htold := hread _ _ (List.getElem_mem hi) (h.item i _ hitem) (h'.item i _ hitem)
    rw [Image.TellSame, size_ofList, size_ofList, hlen] at htold
    dsimp only
    rw [Vector.elementPosition, Vector.elementPosition, hsize, hlen, h.position_item hpos hitem]
    exact htold

end Vectors

/-- Records that are read alike are alike in each of their fields. -/
theorem Record.decode_eq_of_read_eq {order order' : ByteOrder} {bytes bytes' : List UInt8} {fs : List StructField}
    (h : Record.read order' bytes' fs = Record.read order bytes fs) {f : StructField} (hf : f ∈ fs) :
    f.type.decode order' ((bytes'.drop f.position).take f.type.size) =
      f.type.decode order ((bytes.drop f.position).take f.type.size) := by
  induction fs with
  | nil => cases hf
  | cons g fs ih =>
    obtain ⟨hfirst, hrest⟩ := Prod.mk.inj h
    rcases List.mem_cons.1 hf with rfl | hf
    · exact hfirst
    · exact ih hrest hf

/-- The scalar that stands some bytes into a struct is what these bytes stand for. -/
theorem get_of_standsAt {order : ByteOrder} {written bytes : List UInt8} {offset start : Nat} {ty : ScalarType}
    (h : StandsAt written offset bytes) (hle : start + ty.size ≤ bytes.length) :
    StructRef.get ⟨Image.ofList order written, written.length - offset⟩ ty start =
      .ok (ty.decode order ((bytes.drop start).take ty.size)) := by
  have hlen := h.length_le
  have hoffset := h.offset_le
  have hwindow : ((bytes.drop start).take ty.size).length = ty.size := by
    rw [List.length_take, List.length_drop]
    omega
  have hslice := slice_of_standsAt order (h.window hle)
  rw [hwindow, StandsAt.position_sub (by omega) hoffset] at hslice
  rw [StructRef.get, Image.scalar, hslice]
  rfl

namespace Builder

/-- The same events wrote two buffers of one length, perhaps in different orders, and the tables among them
are laid out alike. -/
structure WroteBoth (b b' : Builder) (events : List Event) (written written' : List UInt8) : Prop where
  wrote : b.Wrote events written
  wrote' : b'.Wrote events written'
  length : written'.length = written.length
  options : b'.options = b.options
  tables : ∀ table, (.endObject, .ok (.offset table)) ∈ events → ∃ vtable slots length entry,
    TableAt b.order written table vtable slots length entry ∧
      TableAt b'.order written' table vtable slots length entry
  counts : ∀ o, (.endVector, .ok (.offset o)) ∈ events → ∃ count,
    StandsAt written o (b.order.encode 4 count) ∧ StandsAt written' o (b'.order.encode 4 count)

namespace WroteBoth

variable {b b' : Builder} {events : List Event} {written written' : List UInt8}
  (h : b.WroteBoth b' events written written')

include h

theorem table_matches {slots table : Nat} {inside : List Event} (hspan : TableSpan events slots inside table) :
    Table.MatchesOn (storedBy b.options inside) ⟨Image.ofList b.order written, written.length - table⟩
      ⟨Image.ofList b'.order written', written'.length - table⟩ := by
  have hmax := h.wrote.size_le
  have hholds := h.wrote.tableHolds hspan
  have hholds' := h.wrote'.tableHolds hspan
  rw [h.options] at hholds'
  have hclosed : (.endObject, .ok (.offset table)) ∈ events := by
    obtain ⟨before, after, rfl, -⟩ := hspan
    simp
  obtain ⟨vtable, slots', length, entry, hat, hat'⟩ := h.tables table hclosed
  exact ⟨Table.matches_of_tableAt h.length hmax hat hat',
    fun slot hslot => ⟨hholds.lacks hmax hslot, hholds'.lacks h.wrote'.size_le hslot⟩,
    fun s hs => hholds.content_matches h.length hmax hholds' hs,
    fun typeSlot valueSlot htag hvalue => hholds.union?_matches h.length hmax hholds' htag hvalue⟩

theorem bytes_match {c : Call} {bytes : List UInt8} {o : Nat} (he : (c, .ok (.offset o)) ∈ events)
    (hc : c.bytes? = some bytes) :
    let m := Image.ofList b.order written
    let m' := Image.ofList b'.order written'
    m'.byteRun (m'.size - o) = m.byteRun (m.size - o) ∧ m'.text (m'.size - o) = m.text (m.size - o) ∧
      m'.string (m'.size - o) = m.string (m.size - o) := by
  intro m m'
  have hstands {b : Builder} {written : List UInt8} (hwrote : b.Wrote events written) :
      StandsAt written o (b.order.encode 4 bytes.length ++ bytes) := by
    obtain ⟨c1, hrun, hw⟩ := hwrote.run
    refine StandsAt.mono ?_ hw
    cases c with
    | createByteVector data | createByteVectorAligned data alignment | createNestedBuffer data =>
      obtain rfl := Option.some.inj hc
      exact hrun.createByteVectorAligned hwrote.no_reset rfl he
    | createByteString data | createString s =>
      obtain rfl := Option.some.inj hc
      exact hrun.createByteString hwrote.no_reset rfl he
    | _ => cases hc
  have hrun {b : Builder} {written : List UInt8} (hwrote : b.Wrote events written) :
      (Image.ofList b.order written).byteRun ((Image.ofList b.order written).size - o) = .ok bytes := by
    rw [size_ofList]
    exact byteRun_of_standsAt (Nat.lt_of_le_of_lt hwrote.size_le (by decide)) (hstands hwrote)
  have hsame : m'.byteRun (m'.size - o) = m.byteRun (m.size - o) := (hrun h.wrote').trans (hrun h.wrote).symm
  have htext : m'.text (m'.size - o) = m.text (m.size - o) := by
    rw [Image.text, Image.text, hsame]
  exact ⟨hsame, htext, by rw [Image.string, Image.string, htext]⟩

theorem struct_matches {type : LawfulLayout} {v : type.Value} {o : Nat}
    (he : (.createStruct type.toStructLayout v, .ok (.offset o)) ∈ events) :
    StructRef.decode ⟨Image.ofList b'.order written', written'.length - o⟩ type.toStructLayout =
        StructRef.decode ⟨Image.ofList b.order written, written.length - o⟩ type.toStructLayout ∧
      ∀ f ∈ type.fields, StructRef.get ⟨Image.ofList b'.order written', written'.length - o⟩ f.type f.position =
        StructRef.get ⟨Image.ofList b.order written, written.length - o⟩ f.type f.position := by
  have hstands := h.wrote.createStruct he
  have hstands' := h.wrote'.createStruct he
  refine ⟨(decode_of_standsAt hstands').trans (decode_of_standsAt hstands).symm, fun f hf => ?_⟩
  have hfits := type.fits f hf
  rw [get_of_standsAt hstands (by rw [StructLayout.length_encode]; exact hfits),
    get_of_standsAt hstands' (by rw [StructLayout.length_encode]; exact hfits)]
  have hread := (type.decode_encode b'.order v).trans (type.decode_encode b.order v).symm
  exact congrArg Except.ok (Record.decode_eq_of_read_eq hread hf)

/-- The readers of both buffers are told the same. -/
theorem image_matches : Image.Matches b.options events (Image.ofList b.order written)
    (Image.ofList b'.order written') where
  size := by rw [size_ofList, size_ofList, h.length]
  table slots inside table hspan := by
    rw [size_ofList, size_ofList]
    exact h.table_matches hspan
  bytes c bytes o he hc := h.bytes_match he hc
  count o he := by
    obtain ⟨count, hstands, hstands'⟩ := h.counts o he
    rw [size_ofList, size_ofList, word32_of_encode hstands, word32_of_encode hstands']
  struct type v o he := by
    rw [size_ofList, size_ofList]
    exact h.struct_matches he
  scalars ty items o hmade := by
    refine (hmade.vectorAt h.wrote).match (hmade.vectorAt h.wrote') (.scalar ty) ty.size_pos rfl h.length
      h.wrote.size_le fun p v _ hv hv' => ?_
    rw [Image.TellSame, size_ofList, size_ofList]
    exact congrArg (Except.map id) ((scalar_of_standsAt hv').trans (scalar_of_standsAt hv).symm)
  structs type items o hmade := by
    obtain ⟨hpos, hvector⟩ := hmade.vectorAt h.wrote
    obtain ⟨-, hvector'⟩ := hmade.vectorAt h.wrote'
    refine hvector.match hvector' (.struct type.toStructLayout) hpos rfl h.length h.wrote.size_le
      fun p v _ hv hv' => ?_
    rw [Image.TellSame, size_ofList, size_ofList]
    exact congrArg (Except.map id) ((decode_of_standsAt hv').trans (decode_of_standsAt hv).symm)
  references targets o hmade {_ _} read tell hread := by
    refine (hmade.vectorAt h.wrote).match (hmade.vectorAt h.wrote') (.reference read) (by decide) rfl h.length
      h.wrote.size_le fun p target htarget ht ht' => ?_
    -- Both references lead to the target, each in its own image, where the reader is told the same.
    have hbound : maxBufferSize < 4294967296 := by decide
    have hread := hread target htarget
    rw [Image.TellSame, size_ofList, size_ofList] at hread ⊢
    show (do
        let target ← (Image.ofList b'.order written').target (written'.length - p)
        read (Image.ofList b'.order written') target).map tell =
      (do
        let target ← (Image.ofList b.order written).target (written.length - p)
        read (Image.ofList b.order written) target).map tell
    rw [target_of_referenceAt (Nat.lt_of_le_of_lt h.wrote.size_le hbound) ht,
      target_of_referenceAt (Nat.lt_of_le_of_lt h.wrote'.size_le hbound) ht', ok_bind, ok_bind]
    exact hread

end WroteBoth

/-- Two builders that differ in nothing but their byte order, and perhaps in the room they have, answer every
call alike, but for the bytes of a finished buffer. These are as many in both, and the readers of both buffers
are told the same. -/
theorem byte_orders_match {b b' : Builder} (hb : b.Fresh) (hb' : b'.Fresh) (hoptions : b'.options = b.options)
    (calls : List Call) (hasks : b.AsksForClosed calls) :
    SameButBytes b b' calls ∧
      (.error .fault ∉ (b.run calls).1 → ∀ bytes, (b.run calls).2.finishedData = .ok bytes →
        ∃ bytes', (b'.run calls).2.finishedData = .ok bytes' ∧ bytes'.length = bytes.length ∧
          (∀ table, (.endObject, .ok (.offset table)) ∈ recent (b.history calls) →
            ∃ slots inside, TableSpan (recent (b.history calls)) slots inside table) ∧
          Image.Matches b.options (recent (b.history calls)) (Image.ofList b.order bytes)
            (Image.ofList b'.order bytes')) := by
  have hstart := Mirrors.start hb hb' hoptions
  refine ⟨⟨(hstart.run rfl hasks).1, fun before hbefore => ?_⟩, fun hfault bytes hdata => ?_⟩
  · obtain ⟨after, rfl⟩ := hbefore
    refine (hstart.run rfl fun first table slot rest hsplit => ?_).2.2.1.view_hide
    exact hasks first table slot (rest ++ after) (by rw [hsplit, List.append_assoc, List.cons_append])
  · obtain ⟨houtcomes, hkept, halike, hmirrors⟩ := hstart.run rfl hasks
    have hmirrors := hmirrors hfault
    have hfault' : .error .fault ∉ (b'.run calls).1 := by
      intro hmem
      have hhidden := List.mem_map_of_mem (f := Except.map Reply.hide) hmem
      rw [houtcomes] at hhidden
      obtain ⟨outcome, houtcome, heq⟩ := List.mem_map.1 hhidden
      cases outcome with
      | ok reply => cases heq
      | error f =>
        obtain rfl : f = .fault := Except.error.inj heq
        exact hfault houtcome
    have hfinished' : (b'.run calls).2.isFinished = true := by
      rw [halike.isFinished]
      unfold finishedData finishedBytes at hdata
      split at hdata
      · assumption
      · cases hdata
    have hdata' : (b'.run calls).2.finishedData = .ok (b'.run calls).2.arena.written := if_pos hfinished'
    have hwritten := written_of_finishedData hdata
    obtain ⟨f, hf, horder, hfoptions, hrun, hreset⟩ := (runs_history hfault).recent hb
    obtain ⟨f', hf', horder', hfoptions', hrun', hreset'⟩ := (runs_history hfault').recent hb'
    have hsame : recent (b'.history calls) = recent (b.history calls) := hkept
    rw [hsame] at hrun' hreset'
    have hboth : f.WroteBoth f' (recent (b.history calls)) bytes (b'.run calls).2.arena.written := by
      subst hwritten
      refine ⟨⟨hf.sound, ⟨_, hrun, List.suffix_refl _⟩, hreset, hmirrors.sound.offset_le_max⟩,
        ⟨hf'.sound, ⟨_, hrun', List.suffix_refl _⟩, hreset', hmirrors.sound'.offset_le_max⟩, halike.offset, ?_, ?_,
        ?_⟩
      · rw [hfoptions, hfoptions', hoptions]
      · rw [horder, horder']
        exact hmirrors.tables
      · rw [horder, horder']
        exact hmirrors.counts
    have hmatches := hboth.image_matches
    rw [hfoptions, horder, horder'] at hmatches
    exact ⟨_, hdata', hboth.length, fun table he => hrun.tableSpan hf.sound hf.idle hreset he, hmatches⟩

/-- A text, two numbers and a table that refers to both. -/
def mirroredCalls : List Call :=
  [.createString "hi", .createVector .u16 [(3 : BitVec 16), (4 : BitVec 16)], .startObject 3,
    .addScalarAlways 0 .u32 7, .addOffset 1 8, .addOffset 2 16, .endObject, .required 32 1, .finish 32 none]

theorem mirroredCalls_match :
    let bytes : List UInt8 := [16, 0, 0, 0, 0, 0, 10, 0, 16, 0, 12, 0, 8, 0, 4, 0, 10, 0, 0, 0, 12, 0, 0, 0, 16, 0, 0,
      0, 7, 0, 0, 0, 2, 0, 0, 0, 3, 0, 4, 0, 2, 0, 0, 0, 104, 105, 0, 0]
    let bytes' : List UInt8 := [0, 0, 0, 16, 0, 0, 0, 10, 0, 16, 0, 12, 0, 8, 0, 4, 0, 0, 0, 10, 0, 0, 0, 12, 0, 0, 0,
      16, 0, 0, 0, 7, 0, 0, 0, 2, 0, 3, 0, 4, 0, 0, 0, 2, 104, 105, 0, 0]
    (new .little).AsksForClosed mirroredCalls ∧ SameButBytes (new .little) (new .big) mirroredCalls ∧
      ((new .little).run mirroredCalls).2.finishedData = .ok bytes ∧
      ((new .big).run mirroredCalls).2.finishedData = .ok bytes' ∧
      Image.Matches .standard (recent ((new .little).history mirroredCalls)) (Image.ofList .little bytes)
        (Image.ofList .big bytes') := by
  intro bytes bytes'
  have hasks : (new .little).AsksForClosed mirroredCalls := by
    intro before table slot after hsplit
    simp only [mirroredCalls, List.cons_eq_append_iff, List.nil_eq_append_iff, List.cons.injEq, reduceCtorEq,
      false_and, and_false, false_or, or_false, exists_const, Call.required.injEq] at hsplit
    obtain ⟨_, rfl, _, rfl, _, rfl, _, rfl, _, rfl, _, rfl, _, rfl, rfl, ⟨rfl, -⟩, -⟩ := hsplit
    have hhistory : (new .little).history (mirroredCalls.take 7) = (mirroredCalls.take 7).zip
        [.ok (.offset 8), .ok (.offset 16), .ok .done, .ok .done, .ok .done, .ok .done, .ok (.offset 32)] :=
      congrArg (List.zip _) (by decide +kernel)
    exact hhistory ▸ List.mem_of_getElem? (i := 6) rfl
  have hdata : ((new .little).run mirroredCalls).2.finishedData = .ok bytes := by decide +kernel
  have hdata' : ((new .big).run mirroredCalls).2.finishedData = .ok bytes' := by decide +kernel
  obtain ⟨hsame, hread⟩ := byte_orders_match (fresh_new .little) (fresh_new .big) rfl mirroredCalls hasks
  obtain ⟨found, hfound, -, -, hmatches⟩ := hread (by decide +kernel) bytes hdata
  obtain rfl : bytes' = found := Except.ok.inj (hdata'.symm.trans hfound)
  exact ⟨hasks, hsame, hdata, hdata', hmatches⟩

/-- A byte that a number is written over. -/
def coveredByte : StructLayout where
  size := 2
  align := 2
  fields := [⟨0, .u8⟩, ⟨0, .u16⟩]

/-- The order shows where bytes are asked for as such, where a field is read as what it is not or was written
over, and where a table is asked about that a reset has undone. -/
theorem raw_bytes_differ :
    let calls : List Call := [.createVector .u32 [(1 : BitVec 32)], .startObject 2, .addOffset 0 8,
      .addScalarAlways 1 .u8 7, .endObject, .createStruct coveredByte ((1 : BitVec 8), (1 : BitVec 16), ()),
      .finish 20 none]
    let m := Image.ofList .little ((new .little).run calls).2.arena.written
    let m' := Image.ofList .big ((new .big).run calls).2.arena.written
    let undone : List Call := [.startObject 0, .endObject, .reset,
      .createByteVector [6, 0, 8, 0, 4, 0, 0, 0, 8, 0, 0, 0], .required 4 0]
    ((new .big).run calls).1 = ((new .little).run calls).1 ∧
      (do let v ← Vector.ofPosition (.scalar .u32) m (m.size - 8); v.dataBytes) = .ok [1, 0, 0, 0] ∧
      (do let v ← Vector.ofPosition (.scalar .u32) m' (m'.size - 8); v.dataBytes) = .ok [0, 0, 0, 1] ∧
      Table.scalar? ⟨m, m.size - 20⟩ .u16 1 = .ok (some (0x0407 : BitVec 16)) ∧
      Table.scalar? ⟨m', m'.size - 20⟩ .u16 1 = .ok (some (0x0700 : BitVec 16)) ∧
      StructRef.get ⟨m, m.size - 30⟩ .u8 0 = .ok (1 : BitVec 8) ∧
      StructRef.get ⟨m', m'.size - 30⟩ .u8 0 = .ok (0 : BitVec 8) ∧
      ((new .little).run undone).1 =
        [.ok .done, .ok (.offset 4), .ok .done, .ok (.offset 16), .ok .done] ∧
      ((new .big).run undone).1 =
        [.ok .done, .ok (.offset 4), .ok .done, .ok (.offset 16), .error .fault] := by
  decide +kernel

end Builder

end TableBuffer
