import TableBuffer.Proofs.Alike
import TableBuffer.Proofs.Answers
import TableBuffer.Proofs.Vectors

/-!
# Whether there is room

In a reachable builder the limit alone decides whether there is room for more bytes. So how a piece is
prepared follows from a few numbers: how much is written, how long the piece is and what comes in front of
it. Where the room is there and the place is aligned, preparing changes nothing at all.
-/

namespace TableBuffer

/-- What a piece of `size` bytes asks for when it is prepared for `additional` bytes in front of it: the
padding behind it and all of these. `written` bytes are there. -/
def pieceRoom (written size additional : Nat) : Nat :=
  padding (written + additional) size + size + additional

/-- A sum on the way to the room that a piece asks for is no machine word. -/
def PieceOverflows (written size additional : Nat) : Prop :=
  wordLimit ≤ written + additional ∨ wordLimit ≤ pieceRoom written size additional

instance (written size additional : Nat) : Decidable (PieceOverflows written size additional) :=
  inferInstanceAs (Decidable (_ ∨ _))

namespace Builder

variable {b b' : Builder} {n size additional : Nat}

theorem Sound.limit_lt (h : b.Sound) : b.arena.limit < Arena.allocationLimit :=
  Nat.lt_of_le_of_lt h.limit_le (by decide)

theorem Sound.room_lt (h : b.Sound) : b.offset + b.arena.headroom < wordLimit := by
  have hfits := h.fits
  have hlimit := h.limit_lt
  simp only [Arena.Fits, Arena.capacity, Arena.allocationLimit] at hfits hlimit
  rw [offset, wordLimit]
  omega

/-- A piece of the size of a scalar asks for words. -/
theorem Sound.pieceWords (h : b.Sound) (hpos : 0 < size) (hsize : size ≤ 8) : ¬ PieceOverflows b.offset size 0 := by
  have hoffset := h.offset_le_max
  have hpad := padding_lt (b.offset + 0) hpos
  simp only [PieceOverflows, pieceRoom, wordLimit, maxBufferSize] at hoffset ⊢
  omega

theorem Sound.keepsTo (h : b.Sound) : b.arena.KeepsTo b.arena.limit := ⟨rfl, h.fits⟩

/-- The limit of a builder is the one it was made with. -/
theorem Reachable.limit_eq (h : b.Reachable) : b.arena.limit = b.options.maxSize := by
  have hmade : ∃ order options, b.MadeWith order options := by
    induction h with
    | start h => exact ⟨_, _, (blank_withOptions h).madeWith⟩
    | @call b b' c outcome hb h hf ih =>
      obtain ⟨order, options, hmade⟩ := ih
      have hcall := hmade.call c
      rw [h] at hcall
      exact ⟨order, options, hcall⟩
  obtain ⟨order, options, hmade⟩ := hmade
  rw [hmade.arena.limit_eq, hmade.options]

/-- The error that more room than the limit leaves is refused with. -/
def tooLarge (b : Builder) (n : Nat) : Failure :=
  .error (.bufferTooLarge (min (b.offset + n) wordMax) b.arena.limit)

theorem isTooLarge_tooLarge (b : Builder) (n : Nat) : (b.tooLarge n).IsTooLarge := ⟨_, _, rfl⟩

/-- The builder with bytes put in front, in room that is there. -/
def front (b : Builder) (bytes : List UInt8) : Builder :=
  { b with
    arena := { b.arena with
      written := bytes ++ b.arena.written
      headroom := b.arena.headroom - bytes.length
      stale := b.arena.stale.drop bytes.length } }

theorem front_front (b : Builder) (xs ys : List UInt8) : (b.front xs).front ys = b.front (ys ++ xs) := by
  simp [front, Nat.sub_sub, Nat.add_comm]

@[simp] theorem offset_front (b : Builder) (bytes : List UInt8) :
    (b.front bytes).offset = b.offset + bytes.length := by
  simp [front, offset, Arena.size, Nat.add_comm]

@[simp] theorem headroom_front (b : Builder) (bytes : List UInt8) :
    (b.front bytes).arena.headroom = b.arena.headroom - bytes.length := rfl

end Builder

namespace Build

variable {α : Type} {b : Builder} {n size additional : Nat}

theorem Ends.and {x : Build α} {good good' : α → Builder → Prop} {bad bad' : Failure → Builder → Prop}
    (h : Ends x b good bad) (h' : Ends x b good' bad') :
    Ends x b (fun a b' => good a b' ∧ good' a b') (fun f b' => bad f b' ∧ bad' f b') := by
  unfold Ends at h h' ⊢
  cases hx : x b with
  | ok a b' =>
    rw [hx] at h h'
    exact ⟨h, h'⟩
  | error f b' =>
    rw [hx] at h h'
    exact ⟨h, h'⟩

section Limit

variable (hb : b.Sound)

include hb

/-- Room is made just when the limit leaves it. -/
theorem reserve_ends_of_sound (n : Nat) :
    Ends (reserve n) b (fun _ _ => b.offset + n ≤ b.arena.limit)
      (fun f _ => b.arena.limit < b.offset + n ∧ f = b.tooLarge n) := by
  unfold reserve
  rw [ends_bind, ends_get]
  by_cases hn : b.arena.size + n ≤ b.arena.limit
  · obtain ⟨a, ha, -⟩ := hb.keepsTo.reserve_ok hb.limit_lt hn
    rw [ha]
    exact hn
  · have hlt := Nat.lt_of_not_le hn
    rw [hb.keepsTo.reserve_error hb.limit_lt hlt]
    exact ⟨hlt, rfl⟩

/-- A piece is prepared just when its sums are words and the limit leaves the room it asks for. -/
theorem prep_ends_of_sound (hfin : b.isFinished = false) (hpower : isPowerOfTwo size = true)
    (additional : Nat) :
    Ends (prep size additional) b
      (fun _ _ => ¬ PieceOverflows b.offset size additional ∧
        b.offset + pieceRoom b.offset size additional ≤ b.arena.limit)
      (fun f _ => PieceOverflows b.offset size additional ∧ f = .fault ∨
        ¬ PieceOverflows b.offset size additional ∧
          b.arena.limit < b.offset + pieceRoom b.offset size additional ∧
          f = b.tooLarge (pieceRoom b.offset size additional)) := by
  unfold prep
  rw [ends_bind]
  refine (requireUnfinished_ends b).mono ?_ ?_
  · intro _ b h
    obtain ⟨rfl, -⟩ := h
    simp only [ends_ite, ends_bind, ends_reject, ends_modify, ends_offset, ends_fault]
    refine ⟨fun hp => by simp [hpower] at hp, fun _ => ⟨fun hover => .inl ⟨hover, trivial⟩, fun hover => ?_⟩⟩
    have hraise : b.Puts [] { b with minAlign := max b.minAlign size } :=
      ⟨rfl, rfl, rfl, rfl, id, rfl, rfl, rfl, rfl, Builder.tightens_max _ hpower⟩
    refine ((reserve_ends _ _).and (reserve_ends_of_sound (hb.extends hraise.keeps.extends) _)).mono ?_ ?_
    · intro _ b1 h
      obtain ⟨⟨-, hroom, -⟩, hlimit⟩ := h
      refine (put_ends_of_room b1 ?_).mono (fun _ _ _ => ⟨hover, hlimit⟩) fun _ _ h => h.elim
      rw [List.length_replicate]
      exact Nat.le_trans (by omega) hroom
    · intro f b1 h
      exact .inr ⟨hover, h.2⟩
  · intro f b h
    obtain ⟨rfl, hb, -⟩ := h
    rw [hfin] at hb
    cases hb

variable (hfin : b.isFinished = false)

include hfin

/-- A piece that asks for words is refused for want of room only. -/
theorem prep_refused (hpower : isPowerOfTwo size = true) (hwords : ¬ PieceOverflows b.offset size additional) :
    Ends (prep size additional) b (fun _ _ => True) (fun f _ => f.IsTooLarge) := by
  refine (prep_ends_of_sound hb hfin hpower additional).mono (fun _ _ _ => trivial) ?_
  intro f _ h
  rcases h with ⟨hover, -⟩ | ⟨-, -, rfl⟩
  · exact absurd hover hwords
  · exact b.isTooLarge_tooLarge _

theorem push_refused (ty : ScalarType) (v : ty.Value) :
    Ends (push ty v) b (fun _ _ => True) (fun f _ => f.IsTooLarge) := by
  have hsize : ty.size ≤ 8 := by
    have hcases := ty.size_cases
    omega
  unfold push
  rw [ends_bind]
  refine ((prep_ends b ty.size 0).and (prep_refused hb hfin (isPowerOfTwo_size ty)
    (hb.pieceWords ty.size_pos hsize))).mono ?_ fun _ _ h => h.2
  intro _ b1 h
  obtain ⟨⟨-, -, hroom, -⟩, -⟩ := h
  rw [ends_bind, ends_get, ends_bind]
  exact (put_ends_of_room b1 (by simpa using hroom)).mono (fun _ _ _ => trivial) fun _ _ h => h.elim

theorem pushReference_refused (target : Nat) :
    Ends (pushReference target) b (fun _ _ => True) (fun f _ => f.IsTooLarge) := by
  unfold pushReference putWord
  rw [ends_bind]
  refine ((prep_ends b 4 0).and (prep_refused hb hfin (by decide) (hb.pieceWords (by decide) (by decide)))).mono ?_
    fun _ _ h => h.2
  intro _ b1 h
  obtain ⟨⟨-, -, hroom, -⟩, -⟩ := h
  rw [ends_bind, ends_offset, ends_bind, ends_get]
  exact (put_ends_of_room b1 (by simpa using hroom)).mono (fun _ _ _ => trivial) fun _ _ h => h.elim

end Limit

/-- Bytes are put in front where there is room for them. -/
theorem put_of_room {bytes : List UInt8} (h : bytes.length ≤ b.arena.headroom) :
    put bytes b = .ok () (b.front bytes) := by
  unfold put
  rw [get_bind, Arena.prepend, if_pos h]
  rfl

theorem reserve_of_room (h : n ≤ b.arena.headroom) : reserve n b = .ok () b := by
  unfold reserve
  rw [get_bind, Arena.reserve, if_pos h]
  rfl

theorem bind_of_ok {β : Type} {x : Build α} {f : α → Build β} {a : α} {b' : Builder} (h : x b = .ok a b') :
    (x >>= f) b = f a b' := by
  show EStateM.bind x f b = _
  rw [EStateM.bind, h]

theorem bind_of_error {β : Type} {x : Build α} {f : α → Build β} {e : Failure} {b' : Builder}
    (h : x b = .error e b') : (x >>= f) b = .error e b' := by
  show EStateM.bind x f b = _
  rw [EStateM.bind, h]

theorem requireUnfinished_of_unfinished (hfin : b.isFinished = false) : requireUnfinished b = .ok () b := by
  unfold requireUnfinished
  rw [get_bind, hfin]
  rfl

theorem requireIdle_of_idle (h : b.stage = .idle) (op : Operation) : requireIdle op b = .ok () b := by
  unfold requireIdle
  rw [get_bind, h]
  rfl

theorem requireWritten_of_written {target bound : Nat} (hpos : 0 < target) (hle : target ≤ bound) (op : Operation) :
    requireWritten op target bound b = .ok () b := by
  rw [requireWritten, if_neg (by omega)]
  rfl

/-- A piece that has its room and needs no padding nor a stricter alignment is prepared without a change. -/
theorem prep_of_room (hfin : b.isFinished = false) (hpower : isPowerOfTwo size = true)
    (hmin : size ≤ b.minAlign) (hplace : size ∣ b.offset + additional)
    (hroom : size + additional ≤ b.arena.headroom) (hwords : b.offset + b.arena.headroom < wordLimit) :
    prep size additional b = .ok () b := by
  have hnone : padding (b.offset + additional) size = 0 :=
    (padding_eq_zero_iff (pos_of_isPowerOfTwo hpower)).2 (Nat.mod_eq_zero_of_dvd hplace)
  have hraise : { b with minAlign := max b.minAlign size } = b := by rw [Nat.max_eq_left hmin]
  unfold prep
  rw [bind_of_ok (requireUnfinished_of_unfinished hfin), if_neg (by simp [hpower])]
  dsimp only
  rw [modify_bind, hraise, offset_bind]
  simp only [hnone, Nat.zero_add]
  rw [if_neg (by omega), bind_of_ok (reserve_of_room hroom)]
  exact put_of_room (Nat.zero_le _)

end Build

section Call

variable {b b' : Builder} {c : Call}

theorem Builder.call_of_ok {reply : Reply} (h : c.step b = .ok reply b') : b.call c = (.ok reply, b') := by
  rw [Builder.call, h]

theorem Builder.call_of_error {f : Failure} (h : c.step b = .error f b') : b.call c = (.error f, b') := by
  rw [Builder.call, h]

end Call

end TableBuffer
