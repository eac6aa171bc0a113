import TableBuffer.Proofs.RoundTrip

/-!
# How a finished buffer is framed

In front of what was written come padding, the identifier, the reference to the root and the length of all
these, each if it is asked for. The padding is made once, ahead of all the others, so that none has to come
between them: it brings the whole buffer to a multiple of the strictest alignment. A reader takes the frame
off again, and the length in front tells it where the buffer ends.
-/

namespace TableBuffer

theorem length_identifierBytes (identifier : Option Identifier) :
    (identifierBytes identifier).length = if identifier.isSome then 4 else 0 := by
  cases identifier with
  | none => rfl
  | some id => exact id.length_eq

/-- In front of the bytes `written` stand the reference to the root, the identifier and padding, less than
the alignment. -/
structure Frames (order : ByteOrder) (written : List UInt8) (align root : Nat)
    (identifier : Option Identifier) (body : List UInt8) : Prop where
  parts : ∃ k, k < max align 4 ∧ body = order.encode 4 (body.length - root) ++
    identifierBytes identifier ++ Build.zeros k ++ written
  root_le : root ≤ written.length
  /-- The reference and the length have room for their numbers. -/
  length_lt : body.length < valueCount 4

namespace Builder

variable {b b' : Builder} {root : Nat} {identifier : Option Identifier} {sizePrefixed : Bool}

/-- The one padding leaves the reference aligned, and brings the whole to the strictest alignment. -/
theorem Finishes.frames (h : b.Finishes root identifier sizePrefixed b')
    (hpower : isPowerOfTwo b.minAlign = true) (hsize : b'.offset ≤ maxBufferSize) :
    ∃ body, b'.finishedData = .ok (framed b.order sizePrefixed body) ∧
      Frames b.order b.arena.written b.minAlign root identifier body ∧
      max b.minAlign 4 ∣ (framed b.order sizePrefixed body).length := by
  obtain ⟨b1, b2, b3, h1, h2, h3, rfl⟩ := h.parts
  have halign : isPowerOfTwo (max b.minAlign 4) = true := isPowerOfTwo_max hpower rfl
  have hfour : 4 ∣ max b.minAlign 4 := dvd_of_isPowerOfTwo rfl halign (Nat.le_max_right ..)
  have hwhole := dvd_add_padding (b.offset + frameLength identifier sizePrefixed)
    (pos_of_isPowerOfTwo halign)
  have hlt := padding_lt (b.offset + frameLength identifier sizePrefixed) (pos_of_isPowerOfTwo halign)
  generalize padding (b.offset + frameLength identifier sizePrefixed) (max b.minAlign 4) = k
    at h1 hwhole hlt
  have hoffset1 : b1.offset = (identifierBytes identifier).length + k + b.offset := by
    rw [h1.offset, List.length_append, List.length_replicate]
  have hword : (if sizePrefixed then b.order.encode 4 b2.offset else []).length =
      if sizePrefixed then 4 else 0 := by
    split
    · exact ByteOrder.length_encode ..
    · rfl
  have hsum : b.offset + frameLength identifier sizePrefixed + k =
      (if sizePrefixed then 4 else 0) + (4 + b1.offset) := by
    rw [hoffset1, length_identifierBytes, frameLength]
    omega
  rw [hsum] at hwhole
  have hnone : padding b1.offset 4 = 0 := by
    refine (padding_eq_zero_iff (by decide)).2 ?_
    have hdvd := Nat.dvd_trans hfour hwhole
    cases sizePrefixed <;> simp at hdvd <;> omega
  rw [hnone, Build.zeros, List.replicate_zero, List.append_nil] at h2
  have hoffset2 : b2.offset = 4 + b1.offset := by
    rw [h2.offset, ByteOrder.length_encode]
  have hbody : (framed b.order sizePrefixed b2.arena.written).length =
      (if sizePrefixed then 4 else 0) + (4 + b1.offset) := by
    rw [framed, List.length_append, ← hoffset2, ← hword]
    rfl
  have hdata : b3.arena.written = framed b.order sizePrefixed b2.arena.written := h3.written
  have hlength : b2.offset ≤ maxBufferSize := by
    have hgrows := h3.keeps.offset_le
    exact Nat.le_trans hgrows hsize
  refine ⟨b2.arena.written, congrArg Except.ok hdata, ⟨⟨k, hlt, ?_⟩, h.root_le, ?_⟩, hbody ▸ hwhole⟩
  · have hwritten := h2.written
    rw [h1.written] at hwritten
    rw [List.append_assoc, List.append_assoc, ← List.append_assoc (identifierBytes identifier)]
    exact hwritten
  · exact Nat.lt_of_le_of_lt hlength (by decide)

end Builder

/-- Readers of the image find the root table and its vtable at their distances from the end, the identifier
if there is one, and behind all that the bytes `written` as they were. -/
structure Image.Opens (m : Image) (written : List UInt8) (table vtable : Nat)
    (identifier : Option Identifier) : Prop where
  root_eq : m.root = .ok ⟨m, m.size - table⟩
  vtable_eq : Table.vtable ⟨m, m.size - table⟩ = .ok ⟨m, m.size - vtable⟩
  identifier?_eq : ∀ id, identifier = some id → m.identifier? = some id
  hasIdentifier_eq : ∀ id, identifier = some id → ∀ other, m.hasIdentifier other = decide (other = id)
  rootWithIdentifier_eq : ∀ id, identifier = some id →
    m.rootWithIdentifier id = .ok ⟨m, m.size - table⟩ ∧ ∀ other, other ≠ id →
      m.rootWithIdentifier other = .error (.error (.identifierMismatch other id))
  slice_eq : ∀ offset length, offset ≤ written.length → length ≤ offset →
    m.slice (m.size - offset) length = .ok ((written.drop (written.length - offset)).take length)

section Readers

variable {order : ByteOrder} {written body : List UInt8} {align root : Nat}
  {identifier : Option Identifier}

theorem Frames.suffix (h : Frames order written align root identifier body) : written <:+ body := by
  obtain ⟨k, -, hbody⟩ := h.parts
  rw [hbody]
  exact List.suffix_append ..

theorem Frames.in_front (h : Frames order written align root identifier body) :
    written.length + 4 ≤ body.length := by
  obtain ⟨k, -, hbody⟩ := h.parts
  have hlen := congrArg List.length hbody
  simp only [List.length_append, ByteOrder.length_encode] at hlen
  omega

theorem Frames.referenceAt (h : Frames order written align root identifier body) :
    ReferenceAt order body body.length root := by
  obtain ⟨k, -, hbody⟩ := h.parts
  refine ⟨Nat.le_trans h.root_le h.suffix.length_le, ?_⟩
  rw [List.append_assoc, List.append_assoc] at hbody
  exact StandsAt.front hbody

theorem Frames.identifier? {id : Identifier} (h : Frames order written align root (some id) body) :
    (Image.ofList order body).identifier? = some id := by
  obtain ⟨k, -, hbody⟩ := h.parts
  have hword : (order.encode 4 (body.length - root)).length = 4 := ByteOrder.length_encode ..
  have hid : identifierBytes (some id) = id.bytes := rfl
  have hbytes : ((Image.ofList order body).bytes.extract 4 8).toList = id.bytes := by
    rw [Image.ofList, List.extract_toArray, List.extract_eq_take_drop, List.toList_toArray]
    rw [hbody, hid, List.append_assoc, List.append_assoc, List.drop_left' hword]
    exact List.take_left' id.length_eq
  rw [Image.identifier?, hbytes, Identifier.ofBytes?, dif_pos id.length_eq]

theorem Frames.slice (h : Frames order written align root identifier body) {offset length : Nat}
    (hoffset : offset ≤ written.length) (hlength : length ≤ offset) :
    (Image.ofList order body).slice (body.length - offset) length =
      .ok ((written.drop (written.length - offset)).take length) := by
  obtain ⟨front, rfl⟩ := h.suffix
  have hplace : (front ++ written).length - offset = front.length + (written.length - offset) := by
    rw [List.length_append]
    omega
  have hroom : (front ++ written).length - offset + length ≤ (front ++ written).length := by
    rw [List.length_append]
    omega
  rw [Image.slice_ofList hroom, hplace, ← List.drop_drop, List.drop_left]

/-- A framed table is found by the readers of the root. -/
theorem Frames.opens (h : Frames order written align root identifier body)
    (hmax : body.length ≤ maxBufferSize) {vtable slots length : Nat} {entry : Nat → Nat}
    (ht : TableAt order written root vtable slots length entry) :
    (Image.ofList order body).Opens written root vtable identifier := by
  have hat := ht.mono h.suffix
  have hroot := root_of_referenceAt h.referenceAt hmax (hat.checkedTable hmax)
  refine ⟨?_, ?_, fun id hid => ?_, fun id hid other => ?_, fun id hid => ?_, ?_⟩
  · rw [size_ofList]
    exact hroot
  · rw [size_ofList]
    exact hat.table_vtable hmax
  · subst hid
    exact h.identifier?
  · subst hid
    rw [Image.hasIdentifier, h.identifier?]
    by_cases hother : other = id
    · simp [hother]
    · simp [hother, Ne.symm hother]
  · subst hid
    have hfound : (Image.ofList order body).identifier?.getD .zero = id := by rw [h.identifier?]; rfl
    refine ⟨?_, fun other hother => ?_⟩
    · rw [Image.rootWithIdentifier, hfound, size_ofList, ← hroot]
      simp
    · rw [Image.rootWithIdentifier, hfound]
      simp only [ne_eq, Ne.symm hother, not_false_eq_true, if_true]
      rfl
  · intro offset length hoffset hlength
    rw [size_ofList]
    exact h.slice hoffset hlength

/-- Whatever follows a buffer with its length in front is no part of it. -/
theorem sizePrefixed_framed_append (hlt : body.length < valueCount 4) (rest : List UInt8) :
    (Image.ofList order (framed order true body ++ rest)).sizePrefixed = .ok (Image.ofList order body) := by
  have hfront : (order.encode 4 body.length).length = 4 := ByteOrder.length_encode ..
  have hbytes : framed order true body ++ rest = order.encode 4 body.length ++ (body ++ rest) := by
    rw [framed, if_pos rfl, List.append_assoc]
  have hlength : (framed order true body ++ rest).length = 4 + (body.length + rest.length) := by
    rw [hbytes, List.length_append, List.length_append, hfront]
  have hword : (Image.ofList order (framed order true body ++ rest)).word32 0 = .ok body.length := by
    have hread := word32_of_standsAt (show body.length < 4294967296 from hlt) (StandsAt.front hbytes)
    rwa [Nat.sub_self] at hread
  have hrest : (framed order true body ++ rest).toArray.extract 4 (4 + body.length) = body.toArray := by
    rw [hbytes, List.extract_toArray, List.extract_eq_take_drop, List.drop_left' hfront,
      Nat.add_sub_cancel_left, List.take_left]
  rw [Image.sizePrefixed, size_ofList, check_of_true (decide_eq_true (by omega)), ok_bind, hword, ok_bind,
    check_of_true (decide_eq_true (by omega)), ok_bind]
  exact congrArg (fun bytes => Except.ok (⟨order, bytes⟩ : Image)) hrest

end Readers

namespace Builder

/-- The call that finishes a buffer, with its length in front or without. -/
def finishing (sizePrefixed : Bool) (root : Nat) (identifier : Option Identifier) : Call :=
  if sizePrefixed then .finishSizePrefixed root identifier else .finish root identifier

theorem finishing_call_ends (b : Builder) (sizePrefixed : Bool) (root : Nat)
    (identifier : Option Identifier) :
    Build.Ends (finishing sizePrefixed root identifier).step b
      (fun _ b' => b.Finishes root identifier sizePrefixed b') (fun _ _ => True) := by
  cases sizePrefixed with
  | false => exact finish_call_ends b root identifier
  | true => exact finishSizePrefixed_call_ends b root identifier

/-- Finishing with any table that was closed puts a frame in front of what was written, and nothing else.
Readers of the root and of the identifier see through it. With the length in front or without, they find the
same table with the same vtable in front of the same bytes, and with it they find them whatever follows. -/
theorem finished_buffer_framed {b b' : Builder} {events : List Event} {root : Nat} (hb : b.Fresh)
    (hrun : b.Runs events b') (hreset : ∀ e ∈ events, e.1 ≠ .reset)
    (hroot : (.endObject, .ok (.offset root)) ∈ events) (identifier : Option Identifier) :
    ∃ vtable, vtable ≤ b'.offset ∧ ∀ sizePrefixed reply b'',
      b'.call (finishing sizePrefixed root identifier) = (.ok reply, b'') →
      ∃ body, b''.finishedData = .ok (framed b.order sizePrefixed body) ∧
        Frames b.order b'.arena.written b'.minAlign root identifier body ∧
        let m := Image.ofList b.order body
        m.Opens b'.arena.written root vtable identifier ∧
          (sizePrefixed = true → ∀ rest,
            let framedImage := Image.ofList b.order (framed b.order true body ++ rest)
            framedImage.sizePrefixed = .ok m ∧ framedImage.sizePrefixedRoot = .ok ⟨m, m.size - root⟩ ∧
              ∀ id, framedImage.sizePrefixedHasIdentifier id = m.hasIdentifier id) := by
  have hsound := hrun.sound hb.sound
  have horder : b'.order = b.order := (hrun.grows hreset).order
  obtain ⟨vtable, slots, length, entry, hat, -⟩ := hrun.tableAt hb.sound hb.idle hreset hroot
  refine ⟨vtable, hat.layout.offset_le, fun sizePrefixed reply b'' hfinish => ?_⟩
  have hfin := (finishing_call_ends b' sizePrefixed root identifier).of_call_ok hfinish
  have hmax : b''.offset ≤ maxBufferSize := (hsound.extends hfin.keeps.extends).offset_le_max
  obtain ⟨body, hdata, hframes, -⟩ := hfin.frames hsound.minAlign hmax
  have hbody : body.length ≤ maxBufferSize := by
    have hsuffix : body <:+ framed b'.order sizePrefixed body := List.suffix_append ..
    rw [offset, Arena.size, written_of_finishedData hdata] at hmax
    exact Nat.le_trans hsuffix.length_le hmax
  rw [horder] at hdata hframes
  have hopens := hframes.opens hbody hat
  refine ⟨body, hdata, hframes, hopens, fun _ rest => ?_⟩
  have hinner : (Image.ofList b.order (framed b.order true body ++ rest)).sizePrefixed =
      .ok (Image.ofList b.order body) := sizePrefixed_framed_append hframes.length_lt rest
  refine ⟨hinner, ?_, fun id => ?_⟩
  · rw [Image.sizePrefixedRoot, hinner, ok_bind]
    exact hopens.root_eq
  · rw [Image.sizePrefixedHasIdentifier, hinner]

/-- The identifier `test`. -/
def testIdentifier : Identifier := ⟨[116, 101, 115, 116], rfl⟩

/-- Five bytes follow a buffer with its length in front, and its root and its identifier are found. -/
theorem smallRun_framed :
    let b := ((new .little).run (smallRun.map Prod.fst)).2
    ∃ body, (b.call (.finishSizePrefixed 68 (some testIdentifier))).2.finishedData =
        .ok (framed .little true body) ∧
      Frames .little b.arena.written 4 68 (some testIdentifier) body ∧
      let m := Image.ofList .little (framed .little true body ++ [1, 2, 3, 4, 5])
      m.sizePrefixedRoot = .ok ⟨Image.ofList .little body, body.length - 68⟩ ∧
        m.sizePrefixedHasIdentifier testIdentifier = true := by
  intro b
  have hreset : ∀ e ∈ smallRun, e.1 ≠ .reset := by simp [smallRun, smallFields]
  have hroot : (.endObject, .ok (.offset 68)) ∈ smallRun := List.mem_of_getElem? (i := 16) rfl
  have hfinish : b.call (finishing true 68 (some testIdentifier)) =
      (.ok .done, (b.call (finishing true 68 (some testIdentifier))).2) := Prod.ext (by decide +kernel) rfl
  have halign : b.minAlign = 4 := by decide +kernel
  obtain ⟨vtable, -, hforms⟩ :=
    finished_buffer_framed (fresh_new .little) smallRun_runs hreset hroot (some testIdentifier)
  obtain ⟨body, hdata, hframes, hopens, hrest⟩ := hforms true _ _ hfinish
  obtain ⟨-, hframed, hid⟩ := hrest rfl [1, 2, 3, 4, 5]
  refine ⟨body, hdata, halign ▸ hframes, ?_, ?_⟩
  · rw [← size_ofList .little body]
    exact hframed
  · exact (hid testIdentifier).trans ((hopens.hasIdentifier_eq _ rfl testIdentifier).trans (by decide))

end Builder

end TableBuffer
