import TableBuffer.Proofs.Framing
import TableBuffer.Proofs.VectorSizes

/-!
# How much room a call asks for

A call makes room before it writes, and what it makes room for is not always what it writes. `Asks` says up to
which size in all a step asks for room, whatever the limit: it is refused just when this is past the limit. What
is left over of the room in the end is what was asked for in vain.
-/

namespace TableBuffer

theorem Arena.reserve_error_cases {a : Arena} {n : Nat} {f : Failure} (h : a.reserve n = .error f) :
    f = .fault ∨ f.IsTooLarge := by
  unfold reserve at h
  split at h
  · cases h
  · dsimp only at h
    split at h
    · unfold allocated at h
      split at h
      · cases h
      · exact .inl (Except.error.inj h).symm
    · exact .inr ⟨_, _, (Except.error.inj h).symm⟩

theorem Failure.not_isTooLarge {e : Error} (h : ∀ requested limit, e ≠ .bufferTooLarge requested limit) :
    ¬ Failure.IsTooLarge (.error e) := fun ⟨requested, limit, he⟩ => h requested limit (Failure.error.inj he)

theorem Failure.not_isTooLarge_fault : ¬ Failure.IsTooLarge .fault := by
  rintro ⟨_, _, h⟩
  cases h

namespace Builder

variable {b b' c : Builder} {f : Failure} {total need : Nat} {spare : Builder → Nat}

/-- The size up to which a piece asks for room. A piece that is not prepared asks for none. -/
def asked (b : Builder) (size additional : Nat) : Nat :=
  if b.isFinished = false ∧ isPowerOfTwo size = true then b.offset + pieceRoom b.offset size additional else 0

/-- Room up to `total` is past the limit, or past what there can be. -/
def Past (b : Builder) (total : Nat) (f : Failure) : Prop :=
  f = .fault ∨ f.IsTooLarge ∧ b.arena.limit < total

/-- The failures of a step that asks for room up to `need`: for want of room only if this is past the limit, and
for another reason only if it is not. -/
inductive Denies (b : Builder) (need : Nat) (spare : Builder → Nat) : Failure → Builder → Prop
  | past {f : Failure} {c : Builder} (h : b.Past need f) : Denies b need spare f c
  | other {f : Failure} {c : Builder} (notLarge : ¬ f.IsTooLarge) (fits : need ≤ b.arena.limit)
    (le : need ≤ c.offset + spare c) : Denies b need spare f c

/-- A step that asks for nothing may fail for any other reason. -/
theorem Denies.of_zero (hf : ¬ f.IsTooLarge) (hneed : need = 0) : b.Denies need spare f c :=
  .other hf (hneed ▸ Nat.zero_le _) (hneed ▸ Nat.zero_le _)

/-- The size up to which a vector with `length` bytes of data asks for room. Its count is prepared first; if the
alignment is none, it is found only then. -/
def vectorAsked (b : Builder) (length alignment : Nat) : Nat :=
  if b.stage = .idle then
    if wordLimit ≤ length then 0
    else if isPowerOfTwo alignment then
      b.countPlace length + length + padding (b.countPlace length + length) alignment + max 4 alignment
    else b.countPlace length + length + 4
  else 0

/-- The part of it that is not written. -/
def vectorSpare (length alignment : Nat) : Nat :=
  if isPowerOfTwo alignment then alignment - 4 else length + 4

theorem vectorSpare_of_power {alignment : Nat} (h : isPowerOfTwo alignment = true) (length : Nat) :
    vectorSpare length alignment = alignment - 4 := if_pos h

/-- The size up to which closing a vector asks for room. -/
def countAsked (b : Builder) : Nat :=
  match b.stage with
  | .vector v => if b.offset - v.start = v.dataLength then b.offset + 4 else 0
  | _ => 0

/-- What a piece of `size` bytes finds that was prepared for `additional` bytes in front of it. -/
structure Prepares (b : Builder) (size additional : Nat) (c : Builder) : Prop where
  puts : b.Puts (Build.zeros (padding (b.offset + additional) size)) c
  unfinished : b.isFinished = false
  room : size + additional ≤ c.arena.headroom
  minAlign : c.minAlign = max b.minAlign size
  rests : c.Rests size (c.offset + additional)

theorem Past.denies (h : b'.Past total f) (hlimit : b'.arena.limit = b.arena.limit) (hle : total ≤ need) :
    b.Denies need spare f c :=
  .past (h.imp_right fun h => ⟨h.1, by have := h.2; omega⟩)

theorem Denies.of_limit_eq (h : b'.Denies need spare f c) (hlimit : b'.arena.limit = b.arena.limit) :
    b.Denies need spare f c := by
  cases h with
  | past h => exact h.denies hlimit (Nat.le_refl _)
  | other notLarge fits le => exact .other notLarge (hlimit ▸ fits) le

end Builder

namespace Build

variable {α β : Type} {b : Builder} {need : Nat} {spare : Builder → Nat}

/-- The step asks for room up to `need`, which is what is written in the end and some room to spare. -/
def Asks (x : Build α) (b : Builder) (need : Nat) (spare : Builder → Nat) : Prop :=
  Ends x b (fun _ c => c.offset + spare c = need ∧ need ≤ b.arena.limit) (b.Denies need spare)

section Steps

variable (hfits : b.arena.Fits)

include hfits

theorem reserve_room (n : Nat) :
    Ends (reserve n) b
      (fun _ c => b.Puts [] c ∧ n ≤ c.arena.headroom ∧ c.minAlign = b.minAlign ∧ b.offset + n ≤ b.arena.limit)
      (fun f _ => b.Past (b.offset + n) f) := by
  unfold reserve
  rw [ends_bind, ends_get]
  cases h : b.arena.reserve n with
  | ok a =>
    obtain ⟨hw, hl, hn, hf⟩ := Arena.reserve_eq_ok h
    have hroom : a.headroom + a.size ≤ a.limit := hf hfits
    have hsize : a.size = b.offset := congrArg List.length hw
    exact ⟨⟨hw, hl, rfl, rfl, hf, rfl, rfl, rfl, rfl, .refl _⟩, hn, rfl, by omega⟩
  | error f =>
    refine (Arena.reserve_error_cases h).imp_right fun hlarge => ⟨hlarge, (Arena.reserve_eq_error h).2 ?_⟩
    rintro rfl
    exact Failure.not_isTooLarge_fault hlarge

/-- A piece that can be prepared is prepared just when the limit leaves all the room that it asks for. -/
theorem prep_room {size : Nat} (hfin : b.isFinished = false) (hpower : isPowerOfTwo size = true)
    (additional : Nat) :
    Ends (prep size additional) b (fun _ _ => b.offset + pieceRoom b.offset size additional ≤ b.arena.limit)
      (fun f _ => b.Past (b.offset + pieceRoom b.offset size additional) f) := by
  unfold prep
  rw [ends_bind]
  refine (requireUnfinished_ends b).mono ?_ fun f c h => absurd h.2.1 (by rw [hfin]; exact Bool.false_ne_true)
  intro _ b h
  obtain ⟨rfl, -⟩ := h
  simp only [ends_ite, ends_bind, ends_reject, ends_modify, ends_offset, ends_fault]
  refine ⟨fun hp => by simp [hpower] at hp, fun _ => ⟨fun _ => .inl rfl, fun _ => ?_⟩⟩
  have hraised : Arena.Fits { b with minAlign := max b.minAlign size }.arena := hfits
  refine (reserve_room hraised _).mono ?_ fun _ _ h => h
  intro _ c h
  obtain ⟨-, hroom, -, hlimit⟩ := h
  refine (put_ends_of_room c ?_).mono (fun _ _ _ => hlimit) fun _ _ h => h.elim
  rw [List.length_replicate]
  exact Nat.le_trans (by omega) hroom

theorem prep_asks (size additional : Nat) :
    Ends (prep size additional) b
      (fun _ _ => b.asked size additional = b.offset + pieceRoom b.offset size additional ∧
        b.asked size additional ≤ b.arena.limit)
      (b.Denies (b.asked size additional) spare) := by
  by_cases hprep : b.isFinished = false ∧ isPowerOfTwo size = true
  · rw [Builder.asked, if_pos hprep]
    exact (prep_room hfits hprep.1 hprep.2 additional).mono (fun _ _ h => ⟨rfl, h⟩) fun _ _ h => .past h
  · -- The piece is turned down before any room is made.
    rw [Builder.asked, if_neg hprep]
    unfold prep
    rw [ends_bind]
    refine (requireUnfinished_ends b).mono ?_ ?_
    · intro _ b h
      obtain ⟨rfl, hfin⟩ := h
      have hpower : (!isPowerOfTwo size) = true := by
        cases hp : isPowerOfTwo size with
        | false => rfl
        | true => exact absurd ⟨hfin, hp⟩ hprep
      rw [if_pos hpower]
      exact .of_zero (Failure.not_isTooLarge nofun) rfl
    · rintro f b ⟨rfl, -, rfl⟩
      exact .of_zero (Failure.not_isTooLarge nofun) rfl

/-- A piece asks for room once. What is written then has it, and what is not used is to spare. -/
theorem prep_bind_asks {size additional : Nat} {rest : Unit → Build α}
    (hrest : ∀ c, b.Prepares size additional c → Ends (rest ()) c
      (fun _ d => d.offset + spare d = c.offset + size + additional) (fun _ _ => False)) :
    Asks (prep size additional >>= rest) b (b.asked size additional) spare := by
  unfold Asks
  rw [ends_bind]
  refine ((prep_ends b size additional).and (prep_asks hfits size additional)).mono ?_ fun _ _ h => h.2
  intro _ c h
  obtain ⟨⟨hputs, hfin, hroom, hmin, hrests⟩, hasked, hlimit⟩ := h
  refine (hrest c ⟨hputs, hfin, hroom, hmin, hrests⟩).mono (fun _ d hd => ⟨?_, hlimit⟩) fun _ _ h => h.elim
  rw [hd, hasked, hputs.offset, List.length_replicate, pieceRoom]
  omega

theorem pad_asks (n : Nat) : Asks (pad n) b (if b.isFinished then 0 else b.offset + n) fun _ => 0 := by
  unfold Asks pad
  rw [ends_bind]
  refine (requireUnfinished_ends b).mono ?_ ?_
  · intro _ b h
    obtain ⟨rfl, hfin⟩ := h
    rw [hfin, if_neg Bool.false_ne_true, ends_bind]
    refine (reserve_room hfits n).mono ?_ fun _ _ h => .past h
    intro _ c h
    obtain ⟨hputs, hroom, -, hlimit⟩ := h
    refine (put_ends_of_room c (by simpa using hroom)).mono ?_ fun _ _ h => h.elim
    intro _ d h
    obtain ⟨hputs', -⟩ := h
    refine ⟨?_, hlimit⟩
    rw [hputs'.offset, hputs.offset, List.length_replicate]
    change n + (0 + b.offset) + 0 = _
    omega
  · rintro f b ⟨rfl, hfin, rfl⟩
    rw [hfin, if_pos rfl]
    exact .of_zero (Failure.not_isTooLarge nofun) rfl

theorem push_asks (ty : ScalarType) (v : ty.Value) : Asks (push ty v) b (b.asked ty.size 0) fun _ => 0 := by
  unfold push
  refine prep_bind_asks hfits fun c hc => ?_
  rw [ends_bind, ends_get, ends_bind]
  refine (put_ends_of_room c (by simpa using hc.room)).mono ?_ fun _ _ h => h.elim
  intro _ d h
  rw [ends_offset, h.1.offset, ScalarType.length_encode]
  omega

theorem pushReference_asks (target : Nat) : Asks (pushReference target) b (b.asked 4 0) fun _ => 0 := by
  unfold pushReference putWord
  refine prep_bind_asks hfits fun c hc => ?_
  rw [ends_bind, ends_offset, ends_bind, ends_get]
  refine (put_ends_of_room c (by simpa using hc.room)).mono ?_ fun _ _ h => h.elim
  intro _ d h
  rw [h.1.offset, ByteOrder.length_encode]
  omega

/-- A struct asks for room of its size and of its alignment, and needs no more than its size. -/
theorem createStruct_asks (layout : StructLayout) (v : layout.Value) :
    Asks (createStruct layout v) b (b.asked layout.align layout.size) fun _ => layout.align := by
  unfold createStruct
  refine prep_bind_asks hfits fun c hc => ?_
  rw [ends_bind, ends_get, ends_bind]
  have hroom := hc.room
  refine (put_ends_of_room c (by rw [StructLayout.length_encode]; omega)).mono ?_ fun _ _ h => h.elim
  intro _ d h
  rw [ends_bind, ends_modify, ends_bind, ends_offset, ends_pure]
  change d.offset + _ = _
  rw [h.1.offset, StructLayout.length_encode]
  omega

/-- A vtable asks for two bytes more than it needs. -/
theorem writeVTable_bind_asks {vtable : List UInt8} {rest : Nat → Build α}
    (hrest : ∀ position c, b.offset ≤ c.offset → c.vtablesWritten = b.vtablesWritten + 1 →
      Ends (rest position) c (fun _ d => d.offset = c.offset ∧ spare d = 2) (fun _ _ => False)) :
    Asks (writeVTable vtable >>= rest) b (b.asked 2 vtable.length) spare := by
  unfold writeVTable
  rw [bind_assoc]
  refine prep_bind_asks hfits fun c hc => ?_
  have hroom := hc.room
  rw [ends_bind, ends_bind]
  refine (put_ends_of_room c (by omega)).mono ?_ fun _ _ h => h.elim
  intro _ d h
  obtain ⟨hputs, -⟩ := h
  rw [ends_bind, ends_offset, ends_bind, ends_modify, ends_pure]
  have hoffset : d.offset = vtable.length + c.offset := hputs.offset
  have hkeeps := (hc.puts.trans hputs).keeps
  have hcount : d.vtablesWritten + 1 = b.vtablesWritten + 1 := by rw [hkeeps.vtablesWritten]
  refine (hrest d.offset _ ?_ hcount).mono (fun _ e he => ?_) fun _ _ h => h
  · exact hkeeps.offset_le
  · rw [he.1, he.2]
    change d.offset + 2 = _
    omega

end Steps

theorem ends_of_ok {x : Build α} {a : α} {c : Builder} (h : x b = .ok a c) {good : α → Builder → Prop}
    {bad : Failure → Builder → Prop} (hgood : good a c) : Ends x b good bad := by
  unfold Ends
  rw [h]
  exact hgood

theorem reserve_ends_of_room {n : Nat} (h : n ≤ b.arena.headroom) :
    Ends (reserve n) b (fun _ c => c = b) (fun _ _ => False) :=
  ends_of_ok (reserve_of_room h) rfl

/-- A word that is written over leaves as many bytes written. -/
theorem patch_ends_of_inside {position : Nat} {bytes : List UInt8} (hle : position ≤ b.offset)
    (hlen : bytes.length ≤ position) :
    Ends (patch position bytes) b
      (fun _ c => c.offset = b.offset ∧ c.vtablesWritten = b.vtablesWritten) (fun _ _ => False) := by
  unfold patch
  rw [ends_bind, ends_get, Arena.overwrite_eq hle hlen]
  refine ⟨?_, rfl⟩
  show (splice (b.arena.size - position) bytes b.arena.written).length = b.arena.written.length
  apply length_splice
  show b.arena.size - position + bytes.length ≤ b.arena.size
  change position ≤ b.arena.size at hle
  omega

theorem putCount_ends_of_room {kind : OffsetKind} (count : Nat) (h : 4 ≤ b.arena.headroom) :
    Ends (do reserve 4; putWord count; return (⟨← offset⟩ : Offset kind)) b
      (fun _ c => c.offset = b.offset + 4) (fun _ _ => False) := by
  unfold putWord
  rw [ends_bind]
  refine (reserve_ends_of_room h).mono ?_ fun _ _ h => h
  rintro _ _ rfl
  rw [ends_bind, ends_bind, ends_get]
  refine (put_ends_of_room _ (by simpa using h)).mono ?_ fun _ _ h => h
  intro _ c hc
  rw [ends_bind, ends_offset, ends_pure, hc.1.offset, ByteOrder.length_encode, Nat.add_comm]

theorem putCount_room {kind : OffsetKind} (hfits : b.arena.Fits) (count : Nat) :
    Ends (do reserve 4; putWord count; return (⟨← offset⟩ : Offset kind)) b
      (fun _ c => c.offset = b.offset + 4 ∧ b.offset + 4 ≤ b.arena.limit)
      (fun f _ => b.Past (b.offset + 4) f) := by
  unfold putWord
  rw [ends_bind]
  refine (reserve_room hfits 4).mono ?_ fun _ _ h => h
  intro _ c h
  obtain ⟨hputs, hroom, -, hlimit⟩ := h
  rw [ends_bind, ends_bind, ends_get]
  refine (put_ends_of_room c (by simpa using hroom)).mono ?_ fun _ _ h => h.elim
  intro _ d hd
  rw [ends_bind, ends_offset, ends_pure, hd.1.offset, ByteOrder.length_encode, hputs.offset]
  exact ⟨by simp only [List.length_nil]; omega, hlimit⟩

theorem requireIdle_bind_asks {op : Operation} {rest : Unit → Build α}
    (h : b.stage = .idle → Asks (rest ()) b need spare) :
    Asks (requireIdle op >>= rest) b (if b.stage = .idle then need else 0) spare := by
  unfold Asks requireIdle
  rw [ends_bind, ends_bind, ends_get]
  cases hstage : b.stage with
  | idle =>
    rw [if_pos rfl]
    exact h hstage
  | object o => exact .of_zero (Failure.not_isTooLarge nofun) rfl
  | vector v => exact .of_zero (Failure.not_isTooLarge nofun) rfl
  | finished => exact .of_zero (Failure.not_isTooLarge nofun) rfl

/-- A string asks for what it needs: the length is the piece that is prepared. -/
theorem createByteString_asks (hfits : b.arena.Fits) (bytes : List UInt8) :
    Asks (createByteString bytes) b (if b.stage = .idle then b.asked 4 (bytes.length + 1) else 0) fun _ => 0 := by
  unfold createByteString
  refine requireIdle_bind_asks fun _ => prep_bind_asks hfits fun c hc => ?_
  have hroom := hc.room
  rw [ends_bind]
  refine (put_ends_of_room c (by rw [List.length_singleton]; omega)).mono ?_ fun _ _ h => h.elim
  intro _ d hd
  obtain ⟨hd, hleft, -⟩ := hd
  rw [List.length_singleton] at hleft
  rw [ends_bind]
  refine (put_ends_of_room d (by omega)).mono ?_ fun _ _ h => h.elim
  intro _ e he
  obtain ⟨he, hleft', -⟩ := he
  refine (putCount_ends_of_room bytes.length (by omega)).mono (fun _ g hg => ?_) fun _ _ h => h
  rw [hg, he.offset, hd.offset, List.length_singleton]
  omega

theorem endVector_asks (hfits : b.arena.Fits) : Asks endVector b b.countAsked fun _ => 0 := by
  unfold Asks endVector takeVector
  rw [ends_bind, ends_bind]
  refine (requireUnfinished_ends b).mono ?_ ?_
  · intro _ b h
    obtain ⟨rfl, -⟩ := h
    rw [ends_bind, ends_get, Builder.countAsked]
    cases b.stage with
    | vector v =>
      dsimp only
      rw [ends_bind, ends_setStage, ends_pure, ends_bind, ends_offset, ends_ite, ends_bind, ends_misuse]
      refine ⟨fun hlen => ?_, fun hlen => ?_⟩
      · exact .of_zero (Failure.not_isTooLarge nofun) (if_neg hlen)
      · have hsize : b.offset - v.start = v.dataLength := Decidable.not_not.1 hlen
        rw [if_pos hsize]
        have hclosed : Arena.Fits { b with stage := .idle }.arena := hfits
        exact (putCount_room hclosed v.count).mono (fun _ _ h => h) fun _ _ h => .past h
    | idle => exact .of_zero (Failure.not_isTooLarge nofun) rfl
    | object o => exact .of_zero (Failure.not_isTooLarge nofun) rfl
    | finished => exact .of_zero (Failure.not_isTooLarge nofun) rfl
  · rintro f b ⟨rfl, hfin, rfl⟩
    refine .of_zero (Failure.not_isTooLarge nofun) ?_
    rw [Builder.countAsked, eq_of_beq hfin]

/-- A step may be looked at from any builder with the same limit. -/
theorem Asks.ends {x : Build α} {b' : Builder} (h : Asks x b' need spare) (hlimit : b'.arena.limit = b.arena.limit) :
    Ends x b' (fun _ c => c.offset + spare c = need ∧ need ≤ b.arena.limit) (b.Denies need spare) :=
  h.mono (fun _ _ h => ⟨h.1, hlimit ▸ h.2⟩) fun _ _ h => h.of_limit_eq hlimit

section Filling

variable {fill : Build Unit} (count : Nat) {length alignment : Nat} (hfits : b.arena.Fits)
  (hfill : ∀ c : Builder, length ≤ c.arena.headroom → Ends fill c
    (fun _ d => ∃ bytes, bytes.length = length ∧ c.Puts bytes d) (fun _ _ => False))

include hfits hfill

/-- Where the room for its data and its count is there, what more was asked for is to spare. -/
theorem fill_bind_endVector_asks {extra : Nat} (hstage : b.stage = .vector ⟨count, b.offset, length⟩)
    (hroom : length ≤ b.arena.headroom) (hneed : b.offset + length + 4 + extra = need)
    (hlimit : need ≤ b.arena.limit) : Asks (do fill; endVector) b need fun _ => extra := by
  unfold Asks
  rw [ends_bind]
  refine (hfill _ hroom).mono ?_ fun _ _ h => h.elim
  intro _ c h
  obtain ⟨bytes, hlen, hc⟩ := h
  have hoffset : c.offset = length + b.offset := by rw [hc.offset, hlen]
  have hasked : c.countAsked = c.offset + 4 := by
    rw [Builder.countAsked, hc.stage, hstage]
    exact if_pos (by dsimp only; omega)
  have hcount : Asks endVector c c.countAsked fun _ => 0 := endVector_asks (hc.fits hfits)
  rw [hasked] at hcount
  refine hcount.mono (fun _ d h => ⟨?_, hlimit⟩) fun f d h => ?_
  · have hd : d.offset + 0 = c.offset + 4 := h.1
    show d.offset + extra = need
    omega
  · cases h with
    | past h => exact h.denies hc.limit (by omega)
    | other notLarge fits le =>
      have hle : need ≤ d.offset + extra := by
        change c.offset + 4 ≤ d.offset + 0 at le
        omega
      exact .other notLarge hlimit hle

/-- The data of a vector are prepared when its count is. -/
theorem prepData_asks (hfin : b.isFinished = false) (hplace : 4 ∣ b.offset + length)
    (hcount : b.offset + 4 + length ≤ b.arena.limit) (hpower : isPowerOfTwo alignment = true) :
    Asks (do prep alignment length; setStage (.vector ⟨count, ← offset, length⟩); fill; endVector) b
      (b.offset + length + padding (b.offset + length) alignment + max 4 alignment)
      fun _ => alignment - 4 := by
  unfold Asks
  rw [ends_bind]
  refine ((prep_ends b alignment length).and (prep_room hfits hfin hpower length)).mono ?_ ?_
  · intro _ c h
    obtain ⟨⟨hc, -, hroom, -⟩, hdata⟩ := h
    have hoffset : c.offset = padding (b.offset + length) alignment + b.offset := by
      rw [hc.offset, List.length_replicate]
    have hlimit : b.offset + length + padding (b.offset + length) alignment + max 4 alignment ≤ c.arena.limit := by
      rw [hc.limit]
      rcases Nat.lt_or_ge alignment 4 with hlt | hge
      · -- A weaker alignment than that of the count finds its place.
        have hnone : padding (b.offset + length) alignment = 0 :=
          (padding_eq_zero_iff (pos_of_isPowerOfTwo hpower)).2 <| Nat.mod_eq_zero_of_dvd <|
            Nat.dvd_trans (dvd_of_isPowerOfTwo hpower (by decide) (Nat.le_of_lt hlt)) hplace
        omega
      · rw [pieceRoom] at hdata
        omega
    rw [ends_bind, ends_offset, ends_bind, ends_setStage]
    have hopened : Arena.Fits { c with stage := .vector ⟨count, c.offset, length⟩ }.arena := hc.fits hfits
    have hneed : c.offset + length + 4 + (alignment - 4) =
        b.offset + length + padding (b.offset + length) alignment + max 4 alignment := by omega
    exact (fill_bind_endVector_asks count hopened hfill rfl (Nat.le_trans (Nat.le_add_left ..) hroom) hneed hlimit).ends
      hc.limit
  · intro f c h
    refine h.2.denies rfl ?_
    rw [pieceRoom]
    omega

end Filling

/-- A vector asks for room twice: for its count, which comes last, and for as much as its alignment, as if one more
number of that size came in front of its data. Of the two the larger is more than the count takes where the alignment is
stricter than that of the count. -/
theorem fill_asks {elementSize count alignment : Nat} {fill : Build Unit} (hfits : b.arena.Fits)
    (hfill : ∀ c : Builder, elementSize * count ≤ c.arena.headroom → Ends fill c
      (fun _ d => ∃ bytes, bytes.length = elementSize * count ∧ c.Puts bytes d) (fun _ _ => False)) :
    Asks (do startVector elementSize count alignment; fill; endVector) b
      (b.vectorAsked (elementSize * count) alignment)
      fun _ => Builder.vectorSpare (elementSize * count) alignment := by
  unfold startVector
  rw [bind_assoc]
  refine requireIdle_bind_asks fun hidle => ?_
  have hfin := Builder.isFinished_of_idle hidle
  generalize hlength : elementSize * count = length at *
  unfold Asks
  dsimp only
  rw [ends_bind, ends_ite, ends_bind, ends_reject]
  refine ⟨fun hlarge => ?_, fun hlarge => ?_⟩
  · rw [if_pos hlarge]
    exact .of_zero (Failure.not_isTooLarge nofun) rfl
  rw [if_neg hlarge, ends_bind]
  refine ((prep_ends b 4 length).and (prep_room hfits hfin (by decide) length)).mono ?_ ?_
  · intro _ c h
    obtain ⟨⟨hc, -, -, -, hplace⟩, hcount⟩ := h
    have hoffset : c.offset = b.countPlace length := by
      rw [hc.offset, List.length_replicate, Nat.add_comm]
      rfl
    rw [Builder.count_room] at hcount
    rw [Builder.vectorSpare]
    by_cases hpower : isPowerOfTwo alignment = true
    · have hdata := prepData_asks count (hc.fits hfits) hfill (hc.isFinished.trans hfin) hplace.multiple
        (by rw [hc.limit, hoffset]; exact hcount) hpower
      rw [if_pos hpower, if_pos hpower, ← hoffset]
      simpa only [Asks, ends_bind] using hdata.ends hc.limit
    · -- Only here is the alignment looked at. The padding of the count is written by then.
      rw [if_neg hpower, if_neg hpower]
      have hnothing : c.asked alignment length = 0 := if_neg fun h => hpower h.2
      have hasks : Ends (prep alignment length) c _ (c.Denies 0 fun _ => 0) :=
        hnothing ▸ prep_asks (hc.fits hfits) alignment length
      rw [ends_bind]
      refine ((prep_ends c alignment length).and hasks).mono ?_ ?_
      · intro _ d h
        exact absurd h.1.2.2.2.2.power hpower
      · intro f d h
        have hd : d.offset = c.offset := congrArg List.length h.1.1.written
        cases h.2 with
        | past h =>
          rcases h with rfl | h
          · exact .past (.inl rfl)
          · exact absurd h.2 (Nat.not_lt_zero _)
        | other notLarge _ _ => exact .other notLarge (by omega) (by omega)
  · intro f c h
    rw [Builder.count_room] at h
    refine h.2.denies rfl ?_
    split <;> omega

/-- Bytes of the announced length are put in front at once. -/
theorem fill_put_asks (hfits : b.arena.Fits) {elementSize count alignment : Nat} (bytes : ByteOrder → List UInt8)
    (hlen : ∀ order, (bytes order).length = elementSize * count) :
    Asks (do
        startVector elementSize count alignment
        let order := (← get).order
        put (bytes order)
        endVector) b
      (b.vectorAsked (elementSize * count) alignment)
      fun _ => Builder.vectorSpare (elementSize * count) alignment := by
  have hfill : ∀ c : Builder, elementSize * count ≤ c.arena.headroom →
      Ends (do put (bytes (← get).order)) c
        (fun _ d => ∃ bytes, bytes.length = elementSize * count ∧ c.Puts bytes d) (fun _ _ => False) := by
    intro c hroom
    rw [ends_bind, ends_get]
    exact (put_ends_of_room c (by rw [hlen]; exact hroom)).mono (fun _ _ h => ⟨_, hlen _, h.1⟩) fun _ _ h => h
  have hasks : Asks (do
      startVector elementSize count alignment
      (do put (bytes (← get).order))
      endVector) b _ _ := fill_asks hfits hfill
  simpa only [bind_assoc] using hasks

/-- The reference to the root and the length in front of it find their room and their place. -/
theorem frame_ends_of_room {root : Nat} {sizePrefixed : Bool} (hfin : b.isFinished = false) (hmin : 4 ≤ b.minAlign)
    (hplace : 4 ∣ b.offset) (hroom : 4 + (if sizePrefixed then 4 else 0) ≤ b.arena.headroom)
    (hwords : b.offset + b.arena.headroom < wordLimit) :
    Ends (do
        pushReference root
        if sizePrefixed then
          let size ← offset
          reserve 4
          putWord size
        setStage .finished) b
      (fun _ c => c.offset = b.offset + 4 + if sizePrefixed then 4 else 0) (fun _ _ => False) := by
  have hprep : prep 4 0 b = .ok () b :=
    prep_of_room hfin (by decide) hmin (by simpa using hplace) (by omega) hwords
  unfold pushReference putWord
  rw [ends_bind, ends_bind]
  refine ends_of_ok hprep ?_
  rw [ends_bind, ends_offset, ends_bind, ends_get]
  refine (put_ends_of_room b (by rw [ByteOrder.length_encode]; omega)).mono ?_ fun _ _ h => h
  intro _ c h
  obtain ⟨hc, hleft, -⟩ := h
  rw [ByteOrder.length_encode] at hleft
  have hoffset : c.offset = b.offset + 4 := by rw [hc.offset, ByteOrder.length_encode, Nat.add_comm]
  dsimp only
  rw [ends_ite]
  refine ⟨fun hs => ?_, fun hs => ?_⟩
  · rw [if_pos hs] at hroom ⊢
    rw [ends_bind, ends_offset, ends_bind]
    refine (reserve_ends_of_room (show 4 ≤ c.arena.headroom by omega)).mono ?_ fun _ _ h => h
    rintro _ _ rfl
    rw [ends_bind, ends_bind, ends_get]
    refine (put_ends_of_room _ (by rw [ByteOrder.length_encode]; omega)).mono ?_ fun _ _ h => h
    intro _ d h
    rw [ends_setStage]
    change d.offset = _
    rw [h.1.offset, ByteOrder.length_encode, hoffset, Nat.add_comm]
  · rw [if_neg hs, ends_setStage]
    exact hoffset

/-- Finishing asks for room of the strictest alignment beside all that comes in front, and needs none of it. -/
theorem finishWith_asks (hfits : b.arena.Fits) (hlimit : b.arena.limit < Arena.allocationLimit)
    (root : Offset .table) (identifier : Option Identifier) (sizePrefixed : Bool) :
    Asks (finishWith root identifier sizePrefixed) b
      (if b.stage = .idle then
        if root.value = 0 ∨ b.offset < root.value then 0
        else b.asked (max b.minAlign 4) (frameLength identifier sizePrefixed)
      else 0) fun _ => max b.minAlign 4 := by
  unfold finishWith
  refine requireIdle_bind_asks fun hidle => ?_
  unfold Asks requireWritten
  rw [ends_bind, ends_offset, ends_bind, ends_ite]
  refine ⟨fun hout => ?_, fun hout => ?_⟩
  · rw [if_pos hout]
    exact .of_zero (Failure.not_isTooLarge nofun) rfl
  rw [if_neg hout, ends_pure, ends_bind, ends_get]
  refine prep_bind_asks hfits fun c hc => ?_
  have hfour : 4 ∣ c.offset + (4 + (if identifier.isSome then 4 else 0) + if sizePrefixed then 4 else 0) :=
    Nat.dvd_trans (dvd_of_isPowerOfTwo (by decide) hc.rests.power (Nat.le_max_right ..)) hc.rests.multiple
  have hmin : 4 ≤ c.minAlign := by
    rw [hc.minAlign]
    omega
  have hfin : c.isFinished = false := hc.puts.isFinished.trans hc.unfinished
  have hroom := hc.room
  have hwords : c.offset + c.arena.headroom < wordLimit := by
    have hkept : c.arena.headroom + c.offset ≤ c.arena.limit := hc.puts.fits hfits
    rw [hc.puts.limit] at hkept
    rw [Arena.allocationLimit] at hlimit
    rw [wordLimit]
    omega
  have hplace : 4 ∣ c.offset := by
    split at hfour <;> split at hfour <;> omega
  cases identifier with
  | none =>
    simp only [Option.isSome_none, Bool.false_eq_true, if_false, Nat.add_zero] at hroom ⊢
    refine (frame_ends_of_room hfin hmin hplace (by omega) hwords).mono (fun _ d hd => ?_) fun _ _ h => h
    rw [hd]
    omega
  | some id =>
    have hlen : id.bytes.length = 4 := id.length_eq
    simp only [Option.isSome_some, if_true] at hroom ⊢
    rw [ends_bind]
    refine (put_ends_of_room c (by omega)).mono ?_ fun _ _ h => h.elim
    intro _ d h
    obtain ⟨hd, hleft, hmin'⟩ := h
    have hoffset : d.offset = c.offset + 4 := by rw [hd.offset, hlen, Nat.add_comm]
    refine (frame_ends_of_room (hd.isFinished.trans hfin) (by omega) (by omega) (by omega)
      (by omega)).mono (fun _ e he => ?_) fun _ _ h => h
    rw [he]
    omega

end Build

end TableBuffer
