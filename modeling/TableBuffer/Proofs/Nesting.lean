import TableBuffer.Proofs.Alignment
import TableBuffer.Proofs.Inspection
import TableBuffer.Proofs.Slots

/-!
# Finished buffers inside other buffers

A finished buffer can be put into another one as a vector of bytes. What stands in it stands in the outer buffer
as far behind the beginning of the vector as it stood behind its own. The outer builder knows nothing of the
inner one and aligns the bytes as it aligns its largest scalars, to eight. An alignment that divides the place
where they begin is kept, so every alignment of up to eight is, and all are if the strictest is none above. A
struct or a vector may have asked for more, and then it depends on what else the outer buffer holds.
-/

namespace TableBuffer

/-- What stands at a distance in bytes stands in what holds the bytes, at the same place in them. -/
theorem StandsAt.within {written bytes xs : List UInt8} {offset o : Nat} (h : StandsAt written offset bytes)
    (hxs : StandsAt bytes o xs) : StandsAt written (offset - (bytes.length - o)) xs := by
  obtain ⟨hlen, hle, heq⟩ := standsAt_iff.1 hxs
  rw [← heq]
  exact h.window (by omega)

theorem behindPrefix_framed (order : ByteOrder) (sizePrefixed : Bool) (body : List UInt8) :
    (Image.ofList order (framed order sizePrefixed body)).behindPrefix sizePrefixed = Image.ofList order body := by
  cases sizePrefixed with
  | false => rfl
  | true =>
    have hfront : (order.encode 4 body.length).length = 4 := ByteOrder.length_encode ..
    simp [Image.behindPrefix, framed, Image.ofList, Image.size, List.drop_left' hfront, hfront]

/-- A slot of the table holds the buffer, and its root is read as on its own. -/
structure Table.Nests (t : Table) (slot : Nat) (inner : Image) : Prop where
  buffer : t.nestedBuffer? slot = .ok (some inner)
  root : t.nestedRoot? slot = inner.root.map some

theorem Table.nests_of_bytes? {t : Table} {slot : Nat} {bytes : List UInt8} (h : t.bytes? slot = .ok (some bytes)) :
    t.Nests slot (Image.ofList t.image.order bytes) := by
  have hbuffer : t.nestedBuffer? slot = .ok (some (Image.ofList t.image.order bytes)) := by
    rw [nestedBuffer?, h]
    rfl
  refine ⟨hbuffer, ?_⟩
  simp only [nestedRoot?, hbuffer, ok_bind]
  cases (Image.ofList t.image.order bytes).root <;> rfl

/-- What calls of a run put into the image `inner` stands in `m`, counted from `start`. All whose alignment
is `kept` is aligned there as well: the placed bytes, the tables with their vtables and the data of vectors. -/
structure Image.KeepsAligned (m : Image) (start : Nat) (inner : Image) (b : Builder) (events : List Event)
    (kept : Nat → Prop) : Prop where
  placed : ∀ before b1 c reply b2, b.Moment events before b1 (c, .ok reply) b2 → ∀ p ∈ c.placements b1 b2,
    m.slice (start + (inner.size - p.offset)) p.bytes.length = .ok p.bytes ∧
      (kept p.alignment → p.alignment ∣ start + (inner.size - p.offset))
  tables : ∀ table, (.endObject, .ok (.offset table)) ∈ events →
    (kept 4 → 4 ∣ start + (inner.size - table)) ∧
      ∃ vtable, Table.vtable ⟨inner, inner.size - table⟩ = .ok ⟨inner, vtable⟩ ∧
        (kept 2 → 2 ∣ start + vtable)
  vectors : ∀ size count alignment inside offset, VectorSpan events size count alignment inside offset →
    kept alignment → alignment ∣ start + (inner.size - (offset - 4))

namespace Builder

/-- The calls are made on a new builder, none of them a reset, and then the buffer is finished. -/
structure Completes (b : Builder) (events : List Event) (sizePrefixed : Bool) (b' : Builder) : Prop where
  fresh : b.Fresh
  no_reset : ∀ e ∈ events, e.1 ≠ .reset
  run : ∃ root identifier reply, b.Runs (events ++ [(finishing sizePrefixed root identifier, .ok reply)]) b'

variable {b b' : Builder} {events : List Event} {sizePrefixed : Bool} {bytes : List UInt8}

/-- What was written lies behind the frame. -/
theorem Completes.wrote (h : b.Completes events sizePrefixed b') :
    ∃ body, b'.finishedData = .ok (framed b.order sizePrefixed body) ∧
      b.Wrote events (framed b.order sizePrefixed body) ∧ b.Wrote events body := by
  obtain ⟨root, identifier, reply, hrun⟩ := h.run
  obtain ⟨b0, hrun0, hlast⟩ := runs_append.1 hrun
  obtain ⟨-, b1, hfinish, hnil⟩ := runs_cons.1 hlast
  cases runs_nil.1 hnil
  have hfin := (finishing_call_ends b0 sizePrefixed root identifier).of_call_ok hfinish
  obtain ⟨body, hdata, hframe, hbody, -⟩ := hrun0.finished h.fresh.sound h.no_reset hfin
  exact ⟨body, hdata, hframe, hbody⟩

/-- The calls come before the finish, which leaves the buffer as long as a multiple of its strictest
alignment. -/
theorem Completes.squared (h : b.Completes events sizePrefixed b') :
    (∃ b0, b.Runs events b0 ∧ b0.Grows b') ∧ b'.Squared ∧ b'.finishedData = .ok b'.arena.written := by
  obtain ⟨root, identifier, reply, hrun⟩ := h.run
  obtain ⟨b0, hrun0, hlast⟩ := runs_append.1 hrun
  obtain ⟨-, b1, hfinish, hnil⟩ := runs_cons.1 hlast
  cases runs_nil.1 hnil
  have hfin := (finishing_call_ends b0 sizePrefixed root identifier).of_call_ok hfinish
  exact ⟨⟨b0, hrun0, hfin.keeps.toGrows⟩, hfin.squared (hrun0.sound h.fresh.sound)⟩

theorem createNestedBuffer_call_ends (b : Builder) (bytes : List UInt8) :
    Build.Ends (Call.createNestedBuffer bytes).step b
      (fun reply b' => ∃ o, reply = .offset o ∧ b'.Rests 8 (o - 4)) (fun _ _ => True) := by
  rw [Call.step, Build.ends_located]
  refine (Build.createByteVectorAligned_ends b bytes 8).mono ?_ fun _ _ _ => trivial
  intro o b' h
  exact ⟨o.value, rfl, h.2.2.1.2⟩

/-- In a finished buffer an embedded one is found through the slot, and its first byte is aligned to eight. -/
theorem Completes.nests {nested table slot : Nat} (h : b.Completes events sizePrefixed b')
    (hnested : (.createNestedBuffer bytes, .ok (.offset nested)) ∈ events)
    (hstored : b.Stored events table slot (.reference nested)) :
    ∃ data, b'.finishedData = .ok data ∧ StandsAt data (nested - 4) bytes ∧ 8 ∣ data.length - (nested - 4) ∧
      ∀ m ∈ [Image.ofList b.order data, (Image.ofList b.order data).behindPrefix sizePrefixed],
        m.checkedTable (m.size - table) = .ok ⟨m, m.size - table⟩ ∧
          Table.Nests ⟨m, m.size - table⟩ slot (Image.ofList b.order bytes) := by
  obtain ⟨slots, inside, hspan, hreference⟩ := hstored
  obtain ⟨body, hdata, hframe, hbody⟩ := h.wrote
  obtain ⟨⟨b0, hrun0, hgrows⟩, hsquared, hwhole⟩ := h.squared
  have hwritten : b'.arena.written = framed b.order sizePrefixed body := written_of_finishedData hdata
  have hstands := (hrun0.createByteVectorAligned h.no_reset rfl hnested).mono hgrows.written
  have haligned : 8 ∣ b'.offset - (nested - 4) := by
    obtain ⟨before, c1, c2, hmoment⟩ := hrun0.moment hnested
    obtain ⟨o, ho, hrests⟩ := (createNestedBuffer_call_ends c1 bytes).of_call_ok hmoment.call
    cases ho
    exact hsquared.from_start (hrests.mono ((hmoment.grows_after h.no_reset hrun0).trans hgrows).minAlign.le)
  refine ⟨_, hdata, ?_, ?_, ?_⟩
  · have hright := hstands.right
    rw [ByteOrder.length_encode] at hright
    rwa [hwritten] at hright
  · rwa [offset, Arena.size, hwritten] at haligned
  · have hread {written : List UInt8} (hw : b.Wrote events written) :
        let m := Image.ofList b.order written
        m.checkedTable (m.size - table) = .ok ⟨m, m.size - table⟩ ∧
          Table.Nests ⟨m, m.size - table⟩ slot (Image.ofList b.order bytes) := by
      intro m
      obtain ⟨b1, hrun1, hsuffix⟩ := hw.run
      have hrun := (hrun1.createByteVectorAligned h.no_reset rfl hnested).mono hsuffix
      have hholds := hw.tableHolds hspan
      have hsize : m.size = written.length := size_ofList ..
      rw [hsize]
      refine ⟨hholds.checkedTable hw.size_le, Table.nests_of_bytes? ?_⟩
      have hbytes := byteRun_of_standsAt (Nat.lt_of_le_of_lt hw.size_le (by decide)) hrun
      rw [Table.bytes?, hholds.readTarget hw.size_le hreference, hbytes]
      rfl
    rw [behindPrefix_framed]
    exact List.forall_mem_cons.2 ⟨hread hframe, List.forall_mem_singleton.2 (hread hbody)⟩

/-- Where the outer buffer has the first byte at a multiple of an alignment, it keeps it. -/
theorem Completes.keepsAligned {order : ByteOrder} {data : List UInt8} {o : Nat} {kept : Nat → Prop}
    (h : b.Completes events sizePrefixed b') (hbytes : b'.finishedData = .ok bytes) (hstands : StandsAt data o bytes)
    (hkept : ∀ a, isPowerOfTwo a = true → a ≤ b'.minAlign → kept a → a ∣ data.length - o) :
    (Image.ofList order data).KeepsAligned (data.length - o) (Image.ofList b.order bytes) b events kept := by
  obtain ⟨⟨b0, hrun0, hgrows⟩, hsquared, -⟩ := h.squared
  have hwritten := written_of_finishedData hbytes
  have hlength : b'.offset = bytes.length := congrArg List.length hwritten
  have hfits := hstands.length_le
  have hmax : bytes.length ≤ maxBufferSize := by
    obtain ⟨body, hdata, hframe, -⟩ := h.wrote
    cases hbytes.symm.trans hdata
    exact hframe.size_le
  -- What is aligned in the inner buffer is aligned in the outer one, if the place of the first byte is.
  have hmove {a p : Nat} (hrests : b'.Rests a p) (ha : kept a) : a ∣ data.length - o + (bytes.length - p) := by
    have hplace := hsquared.from_start hrests
    rw [hlength] at hplace
    exact Nat.dvd_add (hkept a hrests.power hrests.asked ha) hplace
  constructor
  case placed =>
    intro before c1 c reply c2 hmoment p hp
    obtain ⟨hrests, hbytesAt, -⟩ := ((hmoment.aligns h.fresh h.no_reset).placed p hp).mono
      ((hmoment.grows_after h.no_reset hrun0).trans hgrows)
    rw [hwritten] at hbytesAt
    have hslice := slice_of_standsAt order (hstands.within hbytesAt)
    rw [StandsAt.position_sub (by omega) hstands.offset_le] at hslice
    rw [size_ofList]
    exact ⟨hslice, hmove hrests⟩
  case tables =>
    intro table he
    obtain ⟨vtable, slots, length, entry, hat, htable, hvtable⟩ :=
      hrun0.tableAt h.fresh.sound h.fresh.idle h.no_reset he
    have hread := (hat.mono (hwritten ▸ hgrows.written)).table_vtable hmax
    rw [size_ofList]
    exact ⟨hmove (htable.mono hgrows.minAlign.le), _, hread, hmove (hvtable.mono hgrows.minAlign.le)⟩
  case vectors =>
    intro size count alignment inside offset hspan
    obtain ⟨hrests, -⟩ := hrun0.vectorSpan_rests h.no_reset hspan
    rw [size_ofList]
    exact hmove (hrests.mono hgrows.minAlign.le)

/-- A finished buffer that is embedded in another one is found there and read as on its own. Its first byte
stands at a multiple of eight, so what was aligned to eight or less is aligned in the outer buffer as it was in
the inner one, and all of it is if the inner buffer asked for no more. -/
theorem embedded_buffer_kept {inner inner' outer outer' : Builder} {calls events : List Event}
    {innerPrefixed outerPrefixed : Bool} {nested table slot : Nat}
    (hinner : inner.Completes calls innerPrefixed inner') (hbytes : inner'.finishedData = .ok bytes)
    (houter : outer.Completes events outerPrefixed outer') (horder : outer.order = inner.order)
    (hnested : (.createNestedBuffer bytes, .ok (.offset nested)) ∈ events)
    (hstored : outer.Stored events table slot (.reference nested)) :
    ∃ data, outer'.finishedData = .ok data ∧
      let i := Image.ofList inner.order bytes
      let m := Image.ofList outer.order data
      let start := m.size - (nested - 4)
      (∀ w ∈ [m, m.behindPrefix outerPrefixed], w.checkedTable (w.size - table) = .ok ⟨w, w.size - table⟩ ∧
        Table.Nests ⟨w, w.size - table⟩ slot i) ∧
      m.slice start i.size = .ok bytes ∧
      8 ∣ start ∧ m.KeepsAligned start i inner calls (· ≤ 8) ∧
      (inner'.minAlign ≤ 8 →
        inner'.minAlign ∣ start ∧ m.KeepsAligned start i inner calls fun _ => True) := by
  obtain ⟨data, hdata, hstands, height, hnests⟩ := houter.nests hnested hstored
  refine ⟨data, hdata, ?_⟩
  dsimp only
  rw [size_ofList, size_ofList]
  have hpower {a : Nat} (ha : isPowerOfTwo a = true) (hle : a ≤ 8) : a ∣ data.length - (nested - 4) :=
    Nat.dvd_trans (dvd_of_isPowerOfTwo ha (by decide) hle) height
  obtain ⟨-, hsquared, -⟩ := hinner.squared
  refine ⟨horder ▸ hnests, slice_of_standsAt outer.order hstands, height, ?_, fun hsmall => ⟨?_, ?_⟩⟩
  · exact hinner.keepsAligned hbytes hstands fun a ha _ hle => hpower ha hle
  · exact hpower hsquared.power hsmall
  · exact hinner.keepsAligned hbytes hstands fun a ha hle _ => hpower ha (Nat.le_trans hle hsmall)

/-- A table with one word of eight bytes. -/
def wordTable : List Event :=
  [(.startObject 1, .ok .done), (.addScalarAlways 0 (.unsigned .w64) (5 : BitVec 64), .ok .done),
    (.endObject, .ok (.offset 12))]

def wordTableBytes : List UInt8 :=
  [12, 0, 0, 0, 0, 0, 6, 0, 12, 0, 4, 0, 6, 0, 0, 0, 5, 0, 0, 0, 0, 0, 0, 0]

/-- A buffer is embedded and a table refers to it. -/
def embedding (bytes : List UInt8) (nested table : Nat) : List Event :=
  [(.createNestedBuffer bytes, .ok (.offset nested)), (.startObject 1, .ok .done),
    (.addOffset 0 nested, .ok .done), (.endObject, .ok (.offset table))]

theorem stored_embedding (bytes : List UInt8) (nested table : Nat) (before : List Event) :
    (new .little).Stored (before ++ embedding bytes nested table) table 0 (.reference nested) :=
  ⟨1, [(.addOffset 0 nested, .ok .done)], ⟨before ++ [(.createNestedBuffer bytes, .ok (.offset nested))], [],
    by simp [embedding], by simp⟩, List.mem_singleton.2 rfl⟩

/-- The events, and then the buffer is finished. -/
def ending (events : List Event) (sizePrefixed : Bool) (root : Nat) : List Event :=
  events ++ [(finishing sizePrefixed root none, .ok .done)]

theorem completes_of_outcomes {order : ByteOrder} {root : Nat} (hreset : ∀ e ∈ events, e.1 ≠ .reset)
    (hfault : ∀ e ∈ ending events sizePrefixed root, e.2 ≠ .error .fault)
    (h : ((new order).run ((ending events sizePrefixed root).map Prod.fst)).1 =
      (ending events sizePrefixed root).map Prod.snd) :
    (new order).Completes events sizePrefixed
      ((new order).run ((ending events sizePrefixed root).map Prod.fst)).2 :=
  ⟨fresh_new order, hreset, root, none, .done, runs_of_outcomes h hfault⟩

/-- Behind three bytes of text, in a buffer with its length in front. -/
theorem embedded_word_kept :
    let events := (.createString "pad", .ok (.offset 8)) :: embedding wordTableBytes 36 44
    ∃ data, ((new .little).run ((ending events true 44).map Prod.fst)).2.finishedData = .ok data ∧
      let i := Image.ofList .little wordTableBytes
      let m := Image.ofList .little data
      Table.Nests ⟨m, m.size - 44⟩ 0 i ∧ 8 ∣ m.size - 32 ∧
        m.KeepsAligned (m.size - 32) i (new .little) wordTable fun _ => True := by
  intro events
  have hinner : (new .little).Completes wordTable false
      ((new .little).run ((ending wordTable false 12).map Prod.fst)).2 :=
    completes_of_outcomes (by simp [wordTable]) (by simp [ending, wordTable]) (by decide +kernel)
  have houter : (new .little).Completes events true
      ((new .little).run ((ending events true 44).map Prod.fst)).2 :=
    completes_of_outcomes (by simp [events, embedding]) (by simp [ending, events, embedding]) (by decide +kernel)
  have hbytes : ((new .little).run ((ending wordTable false 12).map Prod.fst)).2.finishedData =
      .ok wordTableBytes := by decide +kernel
  have hnested : (.createNestedBuffer wordTableBytes, .ok (.offset 36)) ∈ events := by simp [events, embedding]
  have hstored : (new .little).Stored events 44 0 (.reference 36) := stored_embedding wordTableBytes 36 44 [_]
  obtain ⟨data, hdata, hnests, -, height, -, hsmall⟩ :=
    embedded_buffer_kept hinner hbytes houter rfl hnested hstored
  exact ⟨data, hdata, (hnests _ List.mem_cons_self).2, height, (hsmall (by decide +kernel)).2⟩

/-- The bytes from zero to fifteen are pushed, the last of them first. -/
def pushedBytes : List Event :=
  (List.range 16).map fun k => (.push .u8 (BitVec.ofNat 8 (15 - k)), .ok (.offset (k + 1)))

/-- A table that refers to the bytes as a vector that asks to be aligned to sixteen. -/
def wideVectorTable : List Event :=
  (.startVector 1 16 16, .ok .done) :: (pushedBytes ++ [(.endVector, .ok (.offset 20)),
    (.startObject 1, .ok .done), (.addOffset 0 20, .ok .done), (.endObject, .ok (.offset 28))])

def wideVectorBytes : List UInt8 :=
  [20, 0, 0, 0, 0, 0, 0, 0, 0, 0, 0, 0, 0, 0, 6, 0, 8, 0, 4, 0, 6, 0, 0, 0, 4, 0, 0, 0, 16, 0, 0, 0,
    0, 1, 2, 3, 4, 5, 6, 7, 8, 9, 10, 11, 12, 13, 14, 15]

/-- The bytes of the vector stand at a multiple of sixteen, and at no such place once the buffer is embedded. -/
theorem embedded_vector_misaligned : ∃ inner' outer' data,
    (new .little).Completes wideVectorTable false inner' ∧ inner'.finishedData = .ok wideVectorBytes ∧
    (new .little).Completes (embedding wideVectorBytes 52 60) false outer' ∧ outer'.finishedData = .ok data ∧
    (new .little).Stored (embedding wideVectorBytes 52 60) 60 0 (.reference 52) ∧
    VectorSpan wideVectorTable 1 16 16 pushedBytes 20 ∧
    let i := Image.ofList .little wideVectorBytes
    let m := Image.ofList .little data
    let start := m.size - (52 - 4)
    let place := i.size - (20 - 4)
    inner'.minAlign = 16 ∧ ¬ 16 ∣ start ∧ 16 ∣ place ∧ ¬ 16 ∣ start + place ∧
      i.slice place 16 = .ok [0, 1, 2, 3, 4, 5, 6, 7, 8, 9, 10, 11, 12, 13, 14, 15] ∧
      m.slice (start + place) 16 = i.slice place 16 := by
  have hinner : (new .little).Completes wideVectorTable false
      ((new .little).run ((ending wideVectorTable false 28).map Prod.fst)).2 :=
    completes_of_outcomes (by simp [wideVectorTable, pushedBytes, or_imp, forall_and])
      (by simp [ending, wideVectorTable, pushedBytes, or_imp, forall_and]) (by decide +kernel)
  have houter : (new .little).Completes (embedding wideVectorBytes 52 60) false
      ((new .little).run ((ending (embedding wideVectorBytes 52 60) false 60).map Prod.fst)).2 :=
    completes_of_outcomes (by simp [embedding]) (by simp [ending, embedding]) (by decide +kernel)
  have hspan : VectorSpan wideVectorTable 1 16 16 pushedBytes 20 := ⟨[], _, rfl, by simp [pushedBytes]⟩
  refine ⟨_, _, [12, 0, 0, 0, 0, 0, 6, 0, 8, 0, 4, 0, 6, 0, 0, 0, 4, 0, 0, 0, 48, 0, 0, 0] ++ wideVectorBytes,
    hinner, by decide +kernel, houter, by decide +kernel, stored_embedding wideVectorBytes 52 60 [], hspan, ?_⟩
  exact ⟨by decide +kernel, by decide +kernel, by decide +kernel, by decide +kernel, by decide +kernel,
    by decide +kernel⟩

end Builder

end TableBuffer
