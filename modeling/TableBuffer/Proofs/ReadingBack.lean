import TableBuffer.Proofs.Framing

/-!
# Vectors and strings are read back

What a call writes at once, a reader of the finished buffer finds at the distance that the call answered,
whatever was written before and after and however much padding lies between: the items of a vector, the
bytes of a string, and for a reference the place as far from the end as the offset that was given for it.
-/

namespace TableBuffer

/-- A string of these bytes stands at the position. Its bytes are followed by a zero byte and are read as a
text if they are the bytes of one. -/
structure Image.HasString (m : Image) (position : Nat) (bytes : List UInt8) : Prop where
  run : m.byteRun position = .ok bytes
  terminator : m.slice (position + 4 + bytes.length) 1 = .ok [0]
  text : ∀ s, m.string position = .ok s ↔ s.toUTF8.toList = bytes
  no_fault : m.string position ≠ .error .fault

/-- The calls that write a whole vector or string. -/
def Call.Creates : Call → Prop
  | createVector .. | createByteVector _ | createByteVectorAligned .. | createNestedBuffer _ | createString _
  | createByteString _ | createVectorOfOffsets _ | createVectorOfStructs .. => True
  | _ => False

/-- What readers find at the position where such a call has written. -/
def Call.ReadBack (m : Image) (position : Nat) : Call → Prop
  | createVector ty items => ∃ v, Vector.ofPosition (.scalar ty) m position = .ok v ∧ v.Holds items ∧
      ∃ bytes, v.dataBytes = .ok bytes ∧ bytes = items.flatMap (ty.encode m.order) ∧
        bytes.length = ty.size * items.length
  | createByteVector bytes | createByteVectorAligned bytes _ | createNestedBuffer bytes =>
    m.byteRun position = .ok bytes
  | createString s => m.HasString position s.toUTF8.toList
  | createByteString bytes => m.HasString position bytes
  | createVectorOfOffsets targets => (∀ target ∈ targets, target ≤ m.size) ∧
    ∀ {α : Type} (read : Image → Nat → Outcome α),
      ∃ v, Vector.ofPosition (.reference read) m position = .ok v ∧ v.length = targets.length ∧
        ∀ i, v.get? i = match targets[i]? with
          | some target => (read m (m.size - target)).map some
          | none => .ok none
  | createVectorOfStructs layout items => 0 < layout.size ∧
    ((∀ v ∈ items, layout.decode m.order (layout.encode m.order v) = v) →
      ∃ v, Vector.ofPosition (.struct layout) m position = .ok v ∧ v.Holds items)
  | _ => False

section Found

variable {order : ByteOrder} {written : List UInt8} {offset : Nat}

theorem hasString_of_standsAt {bytes : List UInt8} (hmax : written.length ≤ maxBufferSize)
    (h : StandsAt written offset (order.encode 4 bytes.length ++ bytes ++ [0])) :
    (Image.ofList order written).HasString (written.length - offset) bytes := by
  have hrun : (Image.ofList order written).byteRun (written.length - offset) = .ok bytes :=
    byteRun_of_standsAt (Nat.lt_of_le_of_lt hmax (by decide)) h.left
  have hzero := slice_of_standsAt_append order h
  rw [List.length_append, ByteOrder.length_encode, ← Nat.add_assoc] at hzero
  have htext : (Image.ofList order written).text (written.length - offset) =
      .ok ((Utf8.decode bytes).mapError fun fault => .invalidFormat (.text fault)) := by
    rw [Image.text, hrun]
    rfl
  refine ⟨hrun, hzero, fun s => ?_, ?_⟩
  · rw [← Utf8.decode_eq_ok_iff, Image.string, htext, ok_bind]
    cases Utf8.decode bytes with
    | ok s' => exact ⟨fun h => congrArg _ (Except.ok.inj h), fun h => congrArg _ (Except.ok.inj h)⟩
    | error fault => constructor <;> intro h <;> cases h
  · rw [Image.string, htext, ok_bind]
    intro h
    cases hdecode : Utf8.decode bytes with
    | ok s =>
      rw [hdecode] at h
      cases h
    | error fault =>
      rw [hdecode] at h
      cases h

/-- An element of a vector of references is what is read at the target. -/
theorem get?_of_referenceAt {α : Type} {targets : List Nat} (hmax : written.length ≤ maxBufferSize)
    (h : VectorAt order written offset 4 targets (ReferenceAt order)) (read : Image → Nat → Outcome α)
    (i : Nat) :
    Vector.get? ⟨.reference read, Image.ofList order written, written.length - offset, targets.length⟩ i =
      match targets[i]? with
      | some target => (read (Image.ofList order written) (written.length - target)).map some
      | none => .ok none := by
  rw [Vector.get?]
  cases hi : targets[i]? with
  | none =>
    have hlength : ¬ i < targets.length := Nat.not_lt.2 (List.getElem?_eq_none_iff.1 hi)
    exact if_neg hlength
  | some target =>
    have hlength : i < targets.length := (List.getElem?_eq_some_iff.1 hi).1
    have htarget := target_of_referenceAt (Nat.lt_of_le_of_lt hmax (by decide)) (h.item i target hi)
    rw [← h.position_item (by decide) hi] at htarget
    have hread : (Element.reference read).read (Image.ofList order written)
        (written.length - offset + 4 + i * 4) = read (Image.ofList order written) (written.length - target) := by
      show ((Image.ofList order written).target _ >>= fun place => read (Image.ofList order written) place) = _
      rw [htarget, ok_bind]
    rw [if_pos hlength]
    show ((Element.reference read).read (Image.ofList order written)
      (written.length - offset + 4 + i * 4) >>= fun a => pure (some a)) = _
    dsimp only
    rw [hread]
    cases read (Image.ofList order written) (written.length - target) with
    | ok a => rfl
    | error f => rfl

end Found

namespace Builder

variable {b b1 b2 b3 : Builder} {events : List Event} {written : List UInt8} {o : Nat}

section Wrote

variable (h : b.Wrote events written)

include h

/-- A vector of bytes is the same whatever its alignment. -/
theorem Wrote.byteRun {c : Call} {bytes : List UInt8} {alignment : Nat}
    (hstep : c.step = Build.located (Build.createByteVectorAligned bytes alignment))
    (he : (c, .ok (.offset o)) ∈ events) : o ≤ written.length ∧
      (Image.ofList b.order written).byteRun (written.length - o) = .ok bytes := by
  obtain ⟨b', hrun, hw⟩ := h.run
  have hstands := (hrun.createByteVectorAligned h.no_reset hstep he).mono hw
  exact ⟨hstands.offset_le, byteRun_of_standsAt (Nat.lt_of_le_of_lt h.size_le (by decide)) hstands⟩

theorem Wrote.hasString {c : Call} {bytes : List UInt8}
    (hstep : c.step = Build.located (Build.createByteString bytes)) (he : (c, .ok (.offset o)) ∈ events) :
    o ≤ written.length ∧ (Image.ofList b.order written).HasString (written.length - o) bytes := by
  obtain ⟨b', hrun, hw⟩ := h.run
  have hstands := (hrun.createByteString_stands h.no_reset hstep he).mono hw
  exact ⟨hstands.offset_le, hasString_of_standsAt h.size_le hstands⟩

theorem Wrote.readBack_createVector {ty : ScalarType} {items : List ty.Value}
    (he : (.createVector ty items, .ok (.offset o)) ∈ events) : o ≤ written.length ∧
      (Call.createVector ty items).ReadBack (Image.ofList b.order written) (written.length - o) := by
  obtain ⟨b', hrun, hw⟩ := h.run
  have hstands := (hrun.createVector_stands h.no_reset he).mono hw
  have hvector := vectorAt_flatMap (ty.length_encode b.order) hstands
  have hlength : (items.flatMap (ty.encode b.order)).length = ty.size * items.length :=
    Build.length_flatMap_encode (ty.length_encode b.order) items
  obtain ⟨v, hposition, hholds⟩ := hvector.holds (.scalar ty) id ty.size_pos rfl h.size_le
    fun o v _ hv => scalar_of_standsAt hv
  rw [List.map_id] at hholds
  have hfound := hvector.ofPosition ty.size_pos (.scalar ty) h.size_le
  obtain rfl := Except.ok.inj (hfound.symm.trans hposition)
  have hdata := slice_of_standsAt_append b.order hstands
  rw [ByteOrder.length_encode, hlength, Nat.mul_comm] at hdata
  exact ⟨hstands.offset_le, _, hposition, hholds, _, hdata, rfl, hlength⟩

theorem Wrote.readBack_createVectorOfOffsets {targets : List Nat}
    (he : (.createVectorOfOffsets targets, .ok (.offset o)) ∈ events) : o ≤ written.length ∧
      (Call.createVectorOfOffsets targets).ReadBack (Image.ofList b.order written) (written.length - o) := by
  obtain ⟨b', hrun, hw⟩ := h.run
  have hvector := (hrun.createVectorOfOffsets h.no_reset he).mono (fun _ _ ht => ht.mono hw) hw
  refine ⟨hvector.count.offset_le, fun target htarget => ?_, fun read =>
    ⟨_, hvector.ofPosition (by decide) _ h.size_le, rfl, get?_of_referenceAt h.size_le hvector read⟩⟩
  obtain ⟨i, hi⟩ := List.mem_iff_getElem?.1 htarget
  have hreference := hvector.item i target hi
  rw [size_ofList]
  exact Nat.le_trans hreference.1 hreference.2.offset_le

theorem Wrote.readBack_createVectorOfStructs {layout : StructLayout} {items : List layout.Value}
    (he : (.createVectorOfStructs layout items, .ok (.offset o)) ∈ events) : o ≤ written.length ∧
      (Call.createVectorOfStructs layout items).ReadBack (Image.ofList b.order written)
        (written.length - o) := by
  obtain ⟨b', hrun, hw⟩ := h.run
  obtain ⟨hpos, hvector⟩ := hrun.createVectorOfStructs h.no_reset he
  have hvector := hvector.mono (fun _ _ hv => hv.mono hw) hw
  refine ⟨hvector.count.offset_le, hpos, fun hundo => ?_⟩
  obtain ⟨v, hposition, hholds⟩ := hvector.holds (.struct layout) id hpos rfl h.size_le fun o a ha hv =>
    (decode_layout_of_standsAt hv).trans (congrArg Except.ok (hundo a ha))
  rw [List.map_id] at hholds
  exact ⟨v, hposition, hholds⟩

theorem Wrote.readBack {c : Call} (hc : c.Creates) (he : (c, .ok (.offset o)) ∈ events) :
    o ≤ written.length ∧ c.ReadBack (Image.ofList b.order written) (written.length - o) := by
  cases c with
  | createVector ty items => exact h.readBack_createVector he
  | createByteVector bytes => exact h.byteRun rfl he
  | createByteVectorAligned bytes alignment => exact h.byteRun rfl he
  | createNestedBuffer bytes => exact h.byteRun rfl he
  | createString s => exact h.hasString rfl he
  | createByteString bytes => exact h.hasString rfl he
  | createVectorOfOffsets targets => exact h.readBack_createVectorOfOffsets he
  | createVectorOfStructs layout items => exact h.readBack_createVectorOfStructs he
  | _ => exact hc.elim

end Wrote

/-- Whatever was called before and whatever is called until the buffer is finished: what a call wrote is
read back at the distance that it answered. In a buffer with its length in front it is found from either
start. -/
theorem written_reads_back {c : Call} {root : Nat} {identifier : Option Identifier} {sizePrefixed : Bool}
    {reply : Reply} (hb : b.Reachable) (hc : c.Creates) (hcall : b.call c = (.ok (.offset o), b1))
    (hrun : b1.Runs events b2) (hreset : ∀ e ∈ events, e.1 ≠ .reset)
    (hfinish : b2.call (finishing sizePrefixed root identifier) = (.ok reply, b3)) :
    ∃ body, b3.finishedData = .ok (framed b.order sizePrefixed body) ∧
      ∀ bytes, bytes = framed b.order sizePrefixed body ∨ bytes = body →
        o ≤ bytes.length ∧ c.ReadBack (Image.ofList b.order bytes) (bytes.length - o) := by
  have hevents : b.Runs ((c, .ok (.offset o)) :: events) b2 := runs_cons.2 ⟨nofun, b1, hcall, hrun⟩
  have hfirst : c ≠ .reset := fun hc => by
    rw [hc] at hcall
    cases hcall
  have hno : ∀ e ∈ (c, .ok (.offset o)) :: events, e.1 ≠ .reset := List.forall_mem_cons.2 ⟨hfirst, hreset⟩
  have hfin := (finishing_call_ends b2 sizePrefixed root identifier).of_call_ok hfinish
  obtain ⟨body, hdata, hframed, hbody, -⟩ := hevents.finished hb.sound hno hfin
  refine ⟨body, hdata, fun bytes hbytes => ?_⟩
  have hwrote : b.Wrote ((c, .ok (.offset o)) :: events) bytes := by
    obtain rfl | rfl := hbytes
    · exact hframed
    · exact hbody
  exact hwrote.readBack hc (List.mem_cons_self ..)

/-- Two references to one string, in a vector that a table refers to. -/
theorem written_reads_back_shared :
    let b := ((new .little).call (.createString "hi")).2
    let b1 := (b.call (.createVectorOfOffsets [8, 8])).2
    let b2 := (b1.run [.startObject 1, .addOffset 0 20, .endObject]).2
    ∃ body, (b2.call (.finishSizePrefixed 28 none)).2.finishedData = .ok (framed b.order true body) ∧
      (Call.createVectorOfOffsets [8, 8]).ReadBack (Image.ofList b.order body) (body.length - 20) := by
  intro b b1 b2
  have hstart : (new .little).Reachable :=
    .start (show withOptions .little .standard = .ok (new .little) from rfl)
  have hfirst : (new .little).call (.createString "hi") = (.ok (.offset 8), b) :=
    Prod.ext (by decide +kernel) rfl
  have hc : (Call.createVectorOfOffsets [8, 8]).Creates := trivial
  have hcall : b.call (.createVectorOfOffsets [8, 8]) = (.ok (.offset 20), b1) :=
    Prod.ext (by decide +kernel) rfl
  have hrun : b1.Runs [(.startObject 1, .ok .done), (.addOffset 0 20, .ok .done),
      (.endObject, .ok (.offset 28))] b2 :=
    runs_of_outcomes (by decide +kernel) (by simp)
  have hfinish : b2.call (finishing true 28 none) = (.ok .done, (b2.call (.finishSizePrefixed 28 none)).2) :=
    Prod.ext (by decide +kernel) rfl
  obtain ⟨body, hdata, hread⟩ := written_reads_back (hstart.call hfirst nofun) hc hcall hrun (by simp) hfinish
  exact ⟨body, hdata, (hread body (.inr rfl)).2⟩

end Builder

end TableBuffer
