import TableBuffer.Proofs.Alignment
import TableBuffer.Proofs.Room

/-!
# The sizes of vectors

How opening a vector ends, from the number, the size and the alignment of its elements. The length of the data
is checked before it is used, but the sums that follow are not: near the end of the machine word they leave it,
and so does the padding for the largest alignment of all in a builder with nothing written. The count takes four
bytes, whatever it is, and elements of no size let it be more than these can hold.
-/

namespace TableBuffer

/-- The largest power of two that is a machine word. -/
def maxAlignment : Nat := 0x8000000000000000

theorem le_maxAlignment {n : Nat} (h : isPowerOfTwo n = true) (hn : n < wordLimit) :
    n = maxAlignment ∨ n ≤ maxAlignment / 2 := by
  obtain ⟨k, rfl⟩ := isPowerOfTwo_iff.1 h
  rw [Nat.one_shiftLeft] at hn ⊢
  have hk : k < 64 := (Nat.pow_lt_pow_iff_right (by decide : 1 < 2)).1 (Nat.lt_of_lt_of_eq hn (by decide))
  rcases Nat.lt_succ_iff_lt_or_eq.1 hk with hlt | rfl
  · exact .inr (Nat.le_trans (Nat.pow_le_pow_right (by decide) (Nat.le_of_lt_succ hlt)) (by decide))
  · exact .inl (by decide)

/-- Where a piece and what is in front of it keep within half of the words, their sums leave these only for the
largest alignment, behind nothing at all. -/
theorem pieceOverflows_iff {written additional alignment : Nat} (hlen : written + additional < maxAlignment)
    (hpower : isPowerOfTwo alignment = true) (ha : alignment < wordLimit) :
    PieceOverflows written alignment additional ↔
      written = 0 ∧ 0 < additional ∧ alignment = maxAlignment := by
  have hpad := padding_lt (written + additional) (pos_of_isPowerOfTwo hpower)
  simp only [PieceOverflows, pieceRoom, wordLimit, maxAlignment] at *
  rcases le_maxAlignment hpower ha with rfl | hle
  · -- What is written and in front of it is less than the alignment, so the padding is all that is missing.
    simp only [maxAlignment, and_true] at *
    rw [padding, Nat.mod_eq_of_lt (show written + additional < 9223372036854775808 by omega)]
    by_cases hzero : written + additional = 0
    · simp [hzero]
      omega
    · rw [Nat.mod_eq_of_lt (by omega)]
      omega
  · simp only [maxAlignment] at *
    omega

namespace Builder

variable {b b' : Builder} {elementSize count length alignment : Nat}

/-- What is written when the count of a vector with `length` bytes of data has its padding. -/
def countPlace (b : Builder) (length : Nat) : Nat := b.offset + padding (b.offset + length) 4

/-- The limit leaves room for a vector with `length` bytes of data, as its count and its data ask for it. -/
structure VectorFits (b : Builder) (length alignment : Nat) : Prop where
  count : b.offset + pieceRoom b.offset 4 length ≤ b.arena.limit
  data : b.countPlace length + pieceRoom (b.countPlace length) alignment length ≤ b.arena.limit

/-- A sum in which the length goes is no machine word. If the count can be prepared, that is so only for the
largest alignment, behind nothing at all. -/
def VectorOverflows (b : Builder) (length alignment : Nat) : Prop :=
  PieceOverflows b.offset 4 length ∨
    b.offset + pieceRoom b.offset 4 length ≤ b.arena.limit ∧ b.countPlace length = 0 ∧ 0 < length ∧
      alignment = maxAlignment

instance (b : Builder) (length alignment : Nat) : Decidable (b.VectorOverflows length alignment) :=
  inferInstanceAs (Decidable (_ ∨ _))

theorem count_room (b : Builder) (length : Nat) :
    b.offset + pieceRoom b.offset 4 length = b.countPlace length + 4 + length := by
  rw [pieceRoom, countPlace]
  omega

theorem VectorFits.length_le (h : b.VectorFits length alignment) :
    b.offset + length + 4 ≤ b.arena.limit := by
  have hcount := h.count
  rw [count_room, countPlace] at hcount
  omega

/-- How opening a vector ends. No two of the cases hold together. -/
inductive Opens (b : Builder) (elementSize count alignment : Nat) : Outcome Reply → Prop
  | opened (word : elementSize * count < wordLimit)
    (words : ¬ b.VectorOverflows (elementSize * count) alignment)
    (fits : b.VectorFits (elementSize * count) alignment) : Opens b elementSize count alignment (.ok .done)
  | noWord (large : wordLimit ≤ elementSize * count) :
    Opens b elementSize count alignment (.error (.error (.invalidArgument (.elementCount count))))
  | noRoom {requested : Nat} (word : elementSize * count < wordLimit)
    (words : ¬ b.VectorOverflows (elementSize * count) alignment)
    (full : ¬ b.VectorFits (elementSize * count) alignment) (limit_lt : b.arena.limit < requested) :
    Opens b elementSize count alignment (.error (.error (.bufferTooLarge requested b.arena.limit)))
  | overflows (word : elementSize * count < wordLimit)
    (h : b.VectorOverflows (elementSize * count) alignment) :
    Opens b elementSize count alignment (.error .fault)

theorem Sound.limit_lt_requested (hb : b.Sound) {n : Nat} (h : b.arena.limit < b.offset + n) :
    b.arena.limit < min (b.offset + n) wordMax := by
  have hlimit := hb.limit_le
  simp only [maxBufferSize, wordMax, wordLimit] at hlimit ⊢
  omega

end Builder

namespace Build

variable {b : Builder} {elementSize count alignment : Nat}

theorem startVector_ends_of_sound (hb : b.Sound) (hidle : b.stage = .idle)
    (hpower : isPowerOfTwo alignment = true) (ha : alignment < wordLimit) :
    Ends (startVector elementSize count alignment) b
      (fun _ _ => b.Opens elementSize count alignment (.ok .done))
      (fun f _ => b.Opens elementSize count alignment (.error f)) := by
  unfold startVector
  rw [ends_bind]
  refine (requireIdle_ends b _).mono ?_ fun f b' h => absurd hidle h.2
  intro _ b h
  obtain ⟨rfl, -⟩ := h
  have hfin := Builder.isFinished_of_idle hidle
  dsimp only
  rw [ends_ite, ends_bind, ends_reject]
  refine ⟨fun hlarge => .noWord hlarge, fun hword => ?_⟩
  have hword := Nat.lt_of_not_le hword
  rw [ends_bind]
  refine ((prep_ends b 4 _).and (prep_ends_of_sound hb hfin (by decide) _)).mono ?_ ?_
  · intro _ b1 h
    obtain ⟨⟨h1, -⟩, hwords, hcount⟩ := h
    have hplace : b1.offset = b.countPlace (elementSize * count) := by
      rw [h1.offset, List.length_replicate, Nat.add_comm]
      rfl
    have hlimit := hb.limit_le
    have hinside : b1.offset + elementSize * count < maxAlignment := by
      rw [hplace, maxAlignment]
      rw [Builder.count_room] at hcount
      rw [maxBufferSize] at hlimit
      omega
    have hover : b.VectorOverflows (elementSize * count) alignment ↔
        PieceOverflows b1.offset alignment (elementSize * count) := by
      rw [pieceOverflows_iff hinside hpower ha, hplace]
      exact ⟨fun h => (h.resolve_left hwords).2, fun h => .inr ⟨hcount, h⟩⟩
    rw [ends_bind]
    have hb1 : b1.Sound := hb.extends h1.keeps.extends
    refine (prep_ends_of_sound hb1 (h1.isFinished.trans hfin) hpower _).mono ?_ ?_
    · intro _ b2 h
      obtain ⟨hwords2, hdata⟩ := h
      rw [hplace, h1.limit] at hdata
      exact .opened hword (mt hover.1 hwords2) ⟨hcount, hdata⟩
    · intro f b2 h
      rcases h with ⟨hover2, rfl⟩ | ⟨hwords2, hfull, rfl⟩
      · exact .overflows hword (hover.2 hover2)
      · have hrequested := hb1.limit_lt_requested hfull
        rw [Builder.tooLarge, h1.limit] at *
        refine .noRoom hword (mt hover.1 hwords2) (fun hfits => ?_) hrequested
        have hdata := hfits.data
        rw [hplace] at hfull
        omega
  · intro f b1 h
    rcases h.2 with ⟨hover, rfl⟩ | ⟨hwords, hfull, rfl⟩
    · exact .overflows hword (.inl hover)
    · refine .noRoom hword (fun hover => ?_) (fun hfits => ?_) (hb.limit_lt_requested hfull)
      · rcases hover with hover | ⟨hcount, -⟩
        · exact hwords hover
        · omega
      · have hcount := hfits.count
        omega

end Build

namespace Builder

variable {b b' : Builder} {elementSize count alignment offset : Nat} {inside after : List Event}

theorem startVector_opens (hb : b.Sound) (hidle : b.stage = .idle) (elementSize count : Nat)
    (hpower : isPowerOfTwo alignment = true) (ha : alignment < wordLimit) :
    b.Opens elementSize count alignment (b.call (.startVector elementSize count alignment)).1 := by
  have hends : Build.Ends (Call.startVector elementSize count alignment).step b
      (fun reply _ => b.Opens elementSize count alignment (.ok reply))
      (fun f _ => b.Opens elementSize count alignment (.error f)) := by
    rw [Call.step, Build.ends_silent]
    exact Build.startVector_ends_of_sound hb hidle hpower ha
  cases hcall : b.call (.startVector elementSize count alignment) with
  | mk outcome b' =>
    cases outcome with
    | ok reply => exact hends.of_call_ok hcall
    | error f => exact hends.of_call_error hcall

/-- A vector with data that do not fit is refused, unless the sums leave the machine word first. -/
theorem Opens.refused {outcome : Outcome Reply} (h : b.Opens elementSize count alignment outcome)
    (hfull : b.arena.limit < b.offset + elementSize * count)
    (hwords : ¬ b.VectorOverflows (elementSize * count) alignment) :
    outcome = .error (.error (.invalidArgument (.elementCount count))) ∨
      ∃ requested, b.arena.limit < requested ∧
        outcome = .error (.error (.bufferTooLarge requested b.arena.limit)) := by
  cases h with
  | opened word words fits =>
    have hlen := fits.length_le
    omega
  | noWord large => exact .inl rfl
  | noRoom word words full limit_lt => exact .inr ⟨_, limit_lt, rfl⟩
  | overflows word h => exact absurd h hwords

/-- The count that a vector was opened with stands in front of it once it is closed. -/
theorem Runs.count_stands
    (hrun : b.Runs ((.startVector elementSize count alignment, .ok .done) ::
      (inside ++ (.endVector, .ok (.offset offset)) :: after)) b')
    (hreset : ∀ e ∈ inside ++ after, e.1 ≠ .reset)
    (hinside : ∀ n m a, (.startVector n m a, .ok .done) ∉ inside) :
    StandsAt b'.arena.written offset (b.order.encode 4 count) := by
  obtain ⟨-, b1, hopen, hrun⟩ := runs_cons.1 hrun
  obtain ⟨b2, hrun, hrest⟩ := runs_append.1 hrun
  obtain ⟨-, b3, hclose, hafter⟩ := runs_cons.1 hrest
  have hreset1 : ∀ e ∈ inside, e.1 ≠ .reset := fun e he => hreset e (List.mem_append_left _ he)
  obtain ⟨-, -, -, k, b0, h0, hsame⟩ := (startVector_call_ends b elementSize count alignment).of_call_ok hopen
  have horder : b1.order = b.order := by
    rw [hsame]
    exact h0.order
  have hcount : ∀ v, b1.stage = .vector v → v.count = count := by
    intro v hv
    rw [hsame] at hv
    obtain rfl := Stage.vector.inj hv
    rfl
  -- No vector but the first is open at any time until it is closed.
  have hkept : ∀ v, b2.stage = .vector v → v.count = count := by
    refine hrun.induct (P := fun _ c => ∀ v, c.stage = .vector v → v.count = count) hcount
      fun before c1 e c2 hmoment h v hv => h v (call_vector (hreset1 e hmoment.mem) hmoment.call ?_ hv)
    intro n m a he
    exact hinside n m a (he ▸ hmoment.mem)
  obtain ⟨v, hv, -, hoffset, hputs⟩ := (endVector_call_ends b2).of_call_ok hclose
  have hstands : StandsAt b3.arena.written b3.offset (b2.order.encode 4 v.count) := .front hputs.written
  rw [Reply.offset.inj hoffset, ← horder, ← (hrun.grows hreset1).order, ← hkept v hv]
  exact hstands.mono (hafter.grows fun e he => hreset e (List.mem_append_right _ he)).written

/-- How opening a vector ends is told by its sizes, in one of four ways. What does not fit is refused, with
the sums in the way at the end of the machine word. A vector that is opened and closed reads back with the
count it was opened with, modulo the numbers of four bytes; elements of some size are never too many for
these. -/
theorem vector_sizes_exact (hb : b.Reachable) (hidle : b.stage = .idle) (elementSize count alignment : Nat)
    (hpower : isPowerOfTwo alignment = true) (ha : alignment < wordLimit) :
    b.Opens elementSize count alignment (b.call (.startVector elementSize count alignment)).1 ∧
    (b.options.maxSize < b.offset + elementSize * count →
      ¬ b.VectorOverflows (elementSize * count) alignment →
      (b.call (.startVector elementSize count alignment)).1 =
          .error (.error (.invalidArgument (.elementCount count))) ∨
        ∃ requested, b.options.maxSize < requested ∧ (b.call (.startVector elementSize count alignment)).1 =
          .error (.error (.bufferTooLarge requested b.options.maxSize))) ∧
    ∀ inside offset after b', b.Runs ((.startVector elementSize count alignment, .ok .done) ::
        (inside ++ (.endVector, .ok (.offset offset)) :: after)) b' →
      (∀ e ∈ inside ++ after, e.1 ≠ .reset) →
      (∀ n m a, (.startVector n m a, .ok .done) ∉ inside) →
      ∀ {α : Type} (element : Element α), ∃ v : Vector α,
        Vector.ofPosition element (Image.ofList b.order b'.arena.written) (b'.offset - offset) = .ok v ∧
        v.length = count % valueCount 4 ∧ (0 < elementSize → v.length = count) := by
  have hopens := startVector_opens hb.sound hidle elementSize count hpower ha
  refine ⟨hopens, ?_, ?_⟩
  · rw [← hb.limit_eq]
    exact hopens.refused
  · intro inside offset after b' hrun hreset hinside α element
    have hread := word32_of_encode (hrun.count_stands hreset hinside)
    have hword : (BitVec.ofNat 32 (count % valueCount 4)).toNat = count % valueCount 4 := by
      rw [BitVec.toNat_ofNat]
      exact Nat.mod_mod ..
    rw [hword] at hread
    refine ⟨⟨element, Image.ofList b.order b'.arena.written, b'.offset - offset, count % valueCount 4⟩, ?_, rfl,
      fun hsize => ?_⟩
    · show Vector.ofPosition element _ (b'.arena.written.length - offset) = _
      rw [Vector.ofPosition, hread]
      rfl
    · obtain ⟨-, b1, hopen, -⟩ := runs_cons.1 hrun
      rw [hopen] at hopens
      cases hopens with
      | opened word words fits =>
        have hlen := fits.length_le
        have hlimit := hb.sound.limit_le
        have hcount : count ≤ elementSize * count := Nat.le_mul_of_pos_left count hsize
        rw [maxBufferSize] at hlimit
        exact Nat.mod_eq_of_lt (show count < 4294967296 by omega)

/-- Three words of two bytes, opened, filled and closed. -/
def threeWords : List Event :=
  [(.push .u16 (1 : BitVec 16), .ok (.offset 4)), (.push .u16 (2 : BitVec 16), .ok (.offset 6)),
    (.push .u16 (3 : BitVec 16), .ok (.offset 8))]

theorem vector_sizes_exact_threeWords :
    let events := (.startVector 2 3 2, .ok .done) :: (threeWords ++ [(.endVector, .ok (.offset 12))])
    let b' := ((new .little).run (events.map Prod.fst)).2
    (new .little).Opens 2 3 2 ((new .little).call (.startVector 2 3 2)).1 ∧
      (∃ requested, ((new .little).call (.startVector 1 0x80000000 1)).1 =
        .error (.error (.bufferTooLarge requested maxBufferSize))) ∧
      ∃ v : Vector Nat, Vector.ofPosition ⟨2, Image.word16⟩ (Image.ofList .little b'.arena.written) 0 = .ok v ∧
        v.length = 3 := by
  intro events b'
  have hb : (new .little).Reachable := .start (show withOptions .little .standard = .ok (new .little) from rfl)
  have hruns : (new .little).Runs events b' := runs_of_outcomes (by decide +kernel) (by simp [events, threeWords])
  obtain ⟨hopens, -, hcount⟩ := vector_sizes_exact hb rfl 2 3 2 (by decide) (by decide)
  obtain ⟨-, hfull, -⟩ := vector_sizes_exact hb rfl 1 0x80000000 1 (by decide) (by decide)
  obtain ⟨v, hread, -, hlength⟩ := hcount threeWords 12 [] b' hruns (by simp [threeWords])
    (by simp [threeWords]) ⟨2, Image.word16⟩
  refine ⟨hopens, ?_, v, hread, hlength (by decide)⟩
  rcases hfull (by decide) (by decide) with h | ⟨requested, -, h⟩
  · exact absurd h (by decide +kernel)
  · exact ⟨requested, h⟩

/-- The sums of the lengths are not checked as the length is, and a count is cut to four bytes when elements of
no size let it be larger. -/
theorem vector_sizes_leave_words :
    ((new .little).call (.startVector 4 1 maxAlignment)).1 = .error .fault ∧
      ((new .little).call (.startVector 1 wordMax 1)).1 = .error .fault ∧
      ((new .little).run [.startVector 0 4294967301 1, .endVector]).1 = [.ok .done, .ok (.offset 4)] ∧
      (Image.ofList .little ((new .little).run [.startVector 0 4294967301 1, .endVector]).2.arena.written).word32 0 =
        .ok 5 := by
  decide +kernel

end Builder

end TableBuffer
