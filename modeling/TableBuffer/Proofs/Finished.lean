import TableBuffer.Proofs.Reading
import TableBuffer.Proofs.Runs

/-!
# Finished buffers

Finishing puts the reference to the root in front of what was written, and the length in front of that if
it is asked for. A reader takes both off again and stands at the root table.
-/

namespace TableBuffer

/-- A finished buffer with or without its length in front. -/
def framed (order : ByteOrder) (sizePrefixed : Bool) (body : List UInt8) : List UInt8 :=
  (if sizePrefixed then order.encode 4 body.length else []) ++ body

namespace Builder

variable {b b' b'' : Builder} {events : List Event} {root : Nat} {identifier : Option Identifier}
  {sizePrefixed : Bool}

theorem written_of_finishedData {b : Builder} {bytes : List UInt8} (h : b.finishedData = .ok bytes) :
    b.arena.written = bytes := by
  unfold finishedData finishedBytes at h
  split at h
  · exact Except.ok.inj h
  · cases h

/-- What was written comes last in a finished buffer, and the reference to the root first. -/
theorem Finishes.body (h : b.Finishes root identifier sizePrefixed b') :
    ∃ body, b'.arena.written = framed b.order sizePrefixed body ∧ b'.finishedData = .ok b'.arena.written ∧
      b.arena.written <:+ body ∧ ReferenceAt b.order body body.length root := by
  have hle := h.root_le
  obtain ⟨b1, b2, b3, h1, h2, h3, rfl⟩ := h.parts
  have hkeeps := h1.keeps.trans h2.keeps
  have hroot : root ≤ b2.offset := Nat.le_trans hle hkeeps.offset_le
  exact ⟨b2.arena.written, h3.written, rfl, hkeeps.written, hroot, h2.stands⟩

theorem finish_call_ends (b : Builder) (root : Nat) (identifier : Option Identifier) :
    Build.Ends (Call.finish root identifier).step b
      (fun _ b' => b.Finishes root identifier false b') (fun _ _ => True) := by
  rw [Call.step, Build.ends_silent]
  exact (Build.finishWith_ends b ⟨root⟩ identifier false).mono (fun _ _ h => h) fun _ _ _ => trivial

theorem finishSizePrefixed_call_ends (b : Builder) (root : Nat) (identifier : Option Identifier) :
    Build.Ends (Call.finishSizePrefixed root identifier).step b
      (fun _ b' => b.Finishes root identifier true b') (fun _ _ => True) := by
  rw [Call.step, Build.ends_silent]
  exact (Build.finishWith_ends b ⟨root⟩ identifier true).mono (fun _ _ h => h) fun _ _ _ => trivial

/-- A run of the events, none of them a reset, wrote what the bytes end with. -/
structure Wrote (b : Builder) (events : List Event) (written : List UInt8) : Prop where
  sound : b.Sound
  run : ∃ b', b.Runs events b' ∧ b'.arena.written <:+ written
  no_reset : ∀ e ∈ events, e.1 ≠ .reset
  size_le : written.length ≤ maxBufferSize

theorem Runs.finished (hrun : b.Runs events b') (hb : b.Sound) (hreset : ∀ e ∈ events, e.1 ≠ .reset)
    (h : b'.Finishes root identifier sizePrefixed b'') :
    ∃ body, b''.finishedData = .ok (framed b.order sizePrefixed body) ∧
      b.Wrote events (framed b.order sizePrefixed body) ∧ b.Wrote events body ∧
      ReferenceAt b.order body body.length root := by
  have horder : b'.order = b.order := (hrun.grows hreset).order
  have hsound : b''.Sound := (hrun.sound hb).extends h.keeps.extends
  obtain ⟨body, hbytes, hdata, hbody, hroot⟩ := h.body
  have hsize : b''.arena.written.length ≤ maxBufferSize := hsound.offset_le_max
  have hframe : body <:+ framed b.order sizePrefixed body := List.suffix_append ..
  rw [horder] at hbytes hroot
  rw [hbytes] at hdata hsize
  exact ⟨body, hdata, ⟨hb, ⟨b', hrun, hbody.trans hframe⟩, hreset, hsize⟩,
    ⟨hb, ⟨b', hrun, hbody⟩, hreset, Nat.le_trans hframe.length_le hsize⟩, hroot⟩

end Builder

section Front

variable {order : ByteOrder} {body : List UInt8} {root : Nat} {t : Table}

theorem root_of_referenceAt (h : ReferenceAt order body body.length root)
    (hmax : body.length ≤ maxBufferSize)
    (ht : (Image.ofList order body).checkedTable (body.length - root) = .ok t) :
    (Image.ofList order body).root = .ok t := by
  have hroom := h.2.length_le
  rw [ByteOrder.length_encode] at hroom
  have htarget := target_of_referenceAt (Nat.lt_of_le_of_lt hmax (by decide)) h
  rw [Nat.sub_self] at htarget
  rw [Image.root, size_ofList, check_of_true (decide_eq_true hroom), ok_bind, htarget, ok_bind, ht]

theorem sizePrefixed_framed (hmax : (framed order true body).length ≤ maxBufferSize) :
    (Image.ofList order (framed order true body)).sizePrefixed = .ok (Image.ofList order body) := by
  have hlength : (framed order true body).length = 4 + body.length := by
    rw [framed, if_pos rfl, List.length_append, ByteOrder.length_encode]
  have hsmall : maxBufferSize < 4294967296 := by decide
  have hstands : StandsAt (framed order true body) (framed order true body).length
      (order.encode 4 body.length) :=
    StandsAt.front rfl
  have hword := word32_of_standsAt (by omega) hstands
  rw [Nat.sub_self] at hword
  have hrest : (framed order true body).toArray.extract 4 (4 + body.length) = body.toArray := by
    have hfront : (order.encode 4 body.length).length = 4 := ByteOrder.length_encode ..
    rw [List.extract_toArray, List.extract_eq_take_drop, framed, if_pos rfl, List.drop_left' hfront,
      Nat.add_sub_cancel_left, List.take_length]
  rw [Image.sizePrefixed, size_ofList, check_of_true (decide_eq_true (by omega)), ok_bind, hword, ok_bind,
    check_of_true (decide_eq_true (by omega)), ok_bind]
  exact congrArg (fun bytes => Except.ok (⟨order, bytes⟩ : Image)) hrest

theorem sizePrefixedRoot_framed (h : ReferenceAt order body body.length root)
    (hmax : (framed order true body).length ≤ maxBufferSize)
    (ht : (Image.ofList order body).checkedTable (body.length - root) = .ok t) :
    (Image.ofList order (framed order true body)).sizePrefixedRoot = .ok t := by
  have hsuffix : body <:+ framed order true body := List.suffix_append ..
  rw [Image.sizePrefixedRoot, sizePrefixed_framed hmax]
  exact root_of_referenceAt h (Nat.le_trans hsuffix.length_le hmax) ht

end Front

end TableBuffer
