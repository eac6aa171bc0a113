import TableBuffer.Builder.Basic

/-!
# How the basic steps end

Every call of a builder is made of a few steps. `Ends` says how a step ends, in an answer or in a
failure, and what builder it leaves in either case. `Puts` describes the builder after a step that
does nothing but put bytes in front: all else that later calls depend on stays. Each basic step is
described once, and the calls are put together from these descriptions.
-/

namespace TableBuffer

/-- Whether a call failed because calls came out of order. -/
def Failure.isConstruction : Failure → Bool
  | .error e => e.isConstruction
  | .fault => false

/-- Written and free bytes together keep to the limit. -/
def Arena.Fits (a : Arena) : Prop := a.capacity ≤ a.limit

namespace Arena

theorem reserve_eq_ok {a a' : Arena} {n : Nat} (h : a.reserve n = .ok a') :
    a'.written = a.written ∧ a'.limit = a.limit ∧ n ≤ a'.headroom ∧ (a.Fits → a'.Fits) := by
  unfold reserve at h
  split at h
  · rename_i hn
    cases h
    exact ⟨rfl, rfl, hn, id⟩
  · simp only at h
    split at h
    · rename_i hn hr
      obtain ⟨hc, rfl⟩ := allocated_eq_ok_iff.1 h
      refine ⟨rfl, rfl, ?_, fun _ => ?_⟩
      · simp only [capacity, grow, size, allocationLimit, wordMax, wordLimit] at hc hr hn ⊢
        omega
      · simp only [Fits, capacity, grow, size, allocationLimit, wordMax, wordLimit] at hr hn hc ⊢
        omega
    · cases h

theorem reserve_eq_error {a : Arena} {n : Nat} {f : Failure} (h : a.reserve n = .error f) :
    f.isConstruction = false ∧ (f ≠ .fault → a.limit < a.size + n) := by
  unfold reserve at h
  split at h
  · cases h
  · simp only [allocated] at h
    split at h
    · split at h
      · cases h
      · cases h
        exact ⟨rfl, fun hf => absurd rfl hf⟩
    · cases h
      exact ⟨rfl, fun _ => by omega⟩

end Arena

namespace Builder

/-- An alignment gave way to one at least as strict, and a power of two to none but a power of two. -/
structure Tightens (a a' : Nat) : Prop where
  le : a ≤ a'
  power : isPowerOfTwo a = true → isPowerOfTwo a' = true

theorem Tightens.refl (a : Nat) : Tightens a a := ⟨Nat.le_refl a, id⟩

theorem Tightens.trans {a a' a'' : Nat} (h : Tightens a a') (h' : Tightens a' a'') : Tightens a a'' :=
  ⟨Nat.le_trans h.le h'.le, h'.power ∘ h.power⟩

theorem tightens_max {size : Nat} (a : Nat) (h : isPowerOfTwo size = true) : Tightens a (max a size) :=
  ⟨Nat.le_max_left .., fun ha => isPowerOfTwo_max ha h⟩

/-- The written bytes of `b` are still at the end of those of `b'`. -/
structure Grows (b b' : Builder) : Prop where
  written : b.arena.written <:+ b'.arena.written
  limit : b'.arena.limit = b.arena.limit
  order : b'.order = b.order
  options : b'.options = b.options
  fits : b.arena.Fits → b'.arena.Fits
  minAlign : Tightens b.minAlign b'.minAlign

/-- Growth that leaves the vtables and the last struct as they are. -/
structure Keeps (b b' : Builder) : Prop extends Grows b b' where
  vtables : b'.vtables = b.vtables
  vtablesWritten : b'.vtablesWritten = b.vtablesWritten
  structSize : b'.structSize = b.structSize

/-- Nothing was done but to put `bytes` in front. -/
structure Puts (b : Builder) (bytes : List UInt8) (b' : Builder) : Prop where
  written : b'.arena.written = bytes ++ b.arena.written
  limit : b'.arena.limit = b.arena.limit
  order : b'.order = b.order
  options : b'.options = b.options
  fits : b.arena.Fits → b'.arena.Fits
  vtables : b'.vtables = b.vtables
  vtablesWritten : b'.vtablesWritten = b.vtablesWritten
  structSize : b'.structSize = b.structSize
  stage : b'.stage = b.stage
  minAlign : Tightens b.minAlign b'.minAlign

/-- The offset is a multiple of an alignment that was asked for. -/
structure Rests (b : Builder) (alignment offset : Nat) : Prop where
  power : isPowerOfTwo alignment = true
  asked : alignment ≤ b.minAlign
  multiple : alignment ∣ offset

theorem Grows.refl (b : Builder) : b.Grows b := ⟨List.suffix_refl _, rfl, rfl, rfl, id, .refl _⟩

theorem Grows.trans {a b c : Builder} (hab : a.Grows b) (hbc : b.Grows c) : a.Grows c where
  written := hab.written.trans hbc.written
  limit := hbc.limit.trans hab.limit
  order := hbc.order.trans hab.order
  options := hbc.options.trans hab.options
  fits h := hbc.fits (hab.fits h)
  minAlign := hab.minAlign.trans hbc.minAlign

theorem Grows.offset_le {b b' : Builder} (h : b.Grows b') : b.offset ≤ b'.offset :=
  h.written.length_le

theorem Keeps.refl (b : Builder) : b.Keeps b := ⟨Grows.refl b, rfl, rfl, rfl⟩

theorem Keeps.trans {a b c : Builder} (hab : a.Keeps b) (hbc : b.Keeps c) : a.Keeps c where
  toGrows := hab.toGrows.trans hbc.toGrows
  vtables := hbc.vtables.trans hab.vtables
  vtablesWritten := hbc.vtablesWritten.trans hab.vtablesWritten
  structSize := hbc.structSize.trans hab.structSize

theorem Puts.refl (b : Builder) : b.Puts [] b :=
  ⟨rfl, rfl, rfl, rfl, id, rfl, rfl, rfl, rfl, .refl _⟩

theorem Puts.trans {a b c : Builder} {xs ys : List UInt8} (hab : a.Puts xs b) (hbc : b.Puts ys c) :
    a.Puts (ys ++ xs) c where
  written := by rw [hbc.written, hab.written, List.append_assoc]
  limit := hbc.limit.trans hab.limit
  order := hbc.order.trans hab.order
  options := hbc.options.trans hab.options
  fits h := hbc.fits (hab.fits h)
  vtables := hbc.vtables.trans hab.vtables
  vtablesWritten := hbc.vtablesWritten.trans hab.vtablesWritten
  structSize := hbc.structSize.trans hab.structSize
  stage := hbc.stage.trans hab.stage
  minAlign := hab.minAlign.trans hbc.minAlign

theorem Puts.keeps {b b' : Builder} {bytes : List UInt8} (h : b.Puts bytes b') : b.Keeps b' where
  written := ⟨bytes, h.written.symm⟩
  limit := h.limit
  order := h.order
  options := h.options
  fits := h.fits
  minAlign := h.minAlign
  vtables := h.vtables
  vtablesWritten := h.vtablesWritten
  structSize := h.structSize

theorem Puts.offset {b b' : Builder} {bytes : List UInt8} (h : b.Puts bytes b') :
    b'.offset = bytes.length + b.offset := by
  show b'.arena.written.length = bytes.length + b.arena.written.length
  rw [h.written, List.length_append]

theorem Puts.isFinished {b b' : Builder} {bytes : List UInt8} (h : b.Puts bytes b') :
    b'.isFinished = b.isFinished := by
  rw [Builder.isFinished, h.stage]
  rfl

/-- Why there is no room for `n` more bytes: the limit is in the way. It is a fault only if the numbers are
too large for words or the limit for the memory. -/
def NoRoom (b : Builder) (n : Nat) (f : Failure) : Prop :=
  (f ≠ .fault → b.arena.limit < b.offset + n) ∧
    (b.offset ≤ b.arena.limit → b.arena.limit < Arena.allocationLimit → b.offset + n < wordLimit →
      f ≠ .fault)

theorem NoRoom.limit_lt {b : Builder} {n : Nat} {f : Failure} (h : b.NoRoom n f)
    (hsize : b.offset ≤ b.arena.limit) (hlimit : b.arena.limit < Arena.allocationLimit)
    (hn : b.offset + n < wordLimit) : b.arena.limit < b.offset + n :=
  h.1 (h.2 hsize hlimit hn)

/-- Only a finished buffer makes such a step a call out of order. -/
theorem not_construction {b : Builder} {f : Failure} (hf : f.isConstruction = true → b.isFinished = true)
    (hb : b.isFinished = false) : f.isConstruction = false := by
  cases hc : f.isConstruction with
  | false => rfl
  | true =>
    rw [hf hc] at hb
    cases hb

/-- A change of stage is no growth. -/
theorem Keeps.setStage {b b' : Builder} (h : b.Keeps b') (stage : Stage) :
    b.Keeps { b' with stage := stage } :=
  ⟨⟨h.written, h.limit, h.order, h.options, h.fits, h.minAlign⟩, h.vtables, h.vtablesWritten, h.structSize⟩

namespace Rests

variable {b b' : Builder} {alignment offset : Nat}

theorem mono (h : b.Rests alignment offset) (hle : b.minAlign ≤ b'.minAlign) :
    b'.Rests alignment offset :=
  { h with asked := Nat.le_trans h.asked hle }

/-- What rests at a strict alignment rests at every weaker one. -/
theorem weaken (h : b.Rests alignment offset) {weaker : Nat} (hpower : isPowerOfTwo weaker = true)
    (hle : weaker ≤ alignment) : b.Rests weaker offset where
  power := hpower
  asked := Nat.le_trans hle h.asked
  multiple := Nat.dvd_trans (dvd_of_isPowerOfTwo hpower h.power hle) h.multiple

theorem add (h : b.Rests alignment offset) {n : Nat} (hn : alignment ∣ n) :
    b.Rests alignment (offset + n) :=
  { h with multiple := Nat.dvd_add h.multiple hn }

/-- Padding for another alignment keeps the first one: one of them divides the other. -/
theorem of_padded {other n : Nat} (h : b.Rests alignment (b.offset + n)) (h' : b'.Rests other (b'.offset + n))
    (hputs : b.Puts (List.replicate (padding (b.offset + n) other) 0) b') :
    b'.Rests alignment (b'.offset + n) := by
  rcases Nat.le_total alignment other with hle | hle
  · exact h'.weaken h.power hle
  · have hother : other ∣ b.offset + n := Nat.dvd_trans (dvd_of_isPowerOfTwo h'.power h.power hle) h.multiple
    have hnone : padding (b.offset + n) other = 0 :=
      (padding_eq_zero_iff (pos_of_isPowerOfTwo h'.power)).2 (Nat.mod_eq_zero_of_dvd hother)
    have hsame : b'.offset = b.offset := by
      rw [hputs.offset, hnone]
      exact Nat.zero_add _
    rw [hsame]
    exact h.mono hputs.minAlign.le

/-- The bytes for which the padding was made come to stand aligned. -/
theorem put {bytes : List UInt8} (h : b.Rests alignment (b.offset + bytes.length))
    (hputs : b.Puts bytes b') : b'.Rests alignment b'.offset := by
  rw [hputs.offset, Nat.add_comm]
  exact h.mono hputs.minAlign.le

end Rests

end Builder

namespace Build

variable {α β : Type}

/-- A step run from `b` ends in an answer with `good` or in a failure with `bad`. -/
def Ends (x : Build α) (b : Builder) (good : α → Builder → Prop) (bad : Failure → Builder → Prop) :
    Prop :=
  match x b with
  | .ok a b' => good a b'
  | .error f b' => bad f b'

section Rules

variable {b : Builder} {good : α → Builder → Prop} {bad : Failure → Builder → Prop}

theorem Ends.mono {x : Build α} {good' : α → Builder → Prop} {bad' : Failure → Builder → Prop}
    (h : Ends x b good bad) (hgood : ∀ a b', good a b' → good' a b')
    (hbad : ∀ f b', bad f b' → bad' f b') : Ends x b good' bad' := by
  unfold Ends at h ⊢
  split at h
  · exact hgood _ _ h
  · exact hbad _ _ h

theorem Ends.of_ok {x : Build α} {a : α} {b' : Builder} (h : Ends x b good bad) (hx : x b = .ok a b') :
    good a b' := by
  rw [Ends, hx] at h
  exact h

theorem ends_bind {x : Build β} {f : β → Build α} :
    Ends (x >>= f) b good bad ↔ Ends x b (fun a b' => Ends (f a) b' good bad) bad := by
  simp only [Ends, bind, EStateM.bind]
  cases x b <;> rfl

@[simp] theorem ends_pure {a : α} : Ends (pure a) b good bad ↔ good a b := Iff.rfl

@[simp] theorem ends_reject {cause : BadArgument} :
    Ends (reject cause) b good bad ↔ bad (.error (.invalidArgument cause)) b := Iff.rfl

@[simp] theorem ends_misuse {cause : Misuse} :
    Ends (misuse cause) b good bad ↔ bad (.error (.invalidOperation cause)) b := Iff.rfl

@[simp] theorem ends_fault : Ends fault b good bad ↔ bad .fault b := Iff.rfl

@[simp] theorem ends_get {good : Builder → Builder → Prop} : Ends get b good bad ↔ good b b := Iff.rfl

@[simp] theorem ends_modify {g : Builder → Builder} {good : Unit → Builder → Prop} :
    Ends (modify g) b good bad ↔ good () (g b) := Iff.rfl

@[simp] theorem ends_offset {good : Nat → Builder → Prop} :
    Ends offset b good bad ↔ good b.offset b := Iff.rfl

@[simp] theorem ends_setStage {stage : Stage} {good : Unit → Builder → Prop} :
    Ends (setStage stage) b good bad ↔ good () { b with stage := stage } := Iff.rfl

theorem ends_ite {c : Prop} [Decidable c] {x y : Build α} :
    Ends (if c then x else y) b good bad ↔ (c → Ends x b good bad) ∧ (¬ c → Ends y b good bad) := by
  split <;> simp [*]

end Rules

section Steps

variable (b : Builder)

theorem requireUnfinished_ends :
    Ends requireUnfinished b (fun _ b' => b' = b ∧ b.isFinished = false)
      (fun f b' => b' = b ∧ b.isFinished = true ∧ f = .error .alreadyFinished) := by
  unfold requireUnfinished
  rw [ends_bind, ends_get, ends_ite]
  exact ⟨fun h => ⟨rfl, h, rfl⟩, fun h => ⟨rfl, Bool.eq_false_iff.2 h⟩⟩

theorem requireIdle_ends (op : Operation) :
    Ends (requireIdle op) b (fun _ b' => b' = b ∧ b.stage = .idle)
      (fun _ b' => b' = b ∧ b.stage ≠ .idle) := by
  unfold requireIdle
  rw [ends_bind, ends_get]
  cases h : b.stage with
  | idle => exact ⟨rfl, rfl⟩
  | object o => exact ⟨rfl, Stage.noConfusion⟩
  | vector v => exact ⟨rfl, Stage.noConfusion⟩
  | finished => exact ⟨rfl, Stage.noConfusion⟩

theorem openObject_ends (op : Operation) :
    Ends (openObject op) b (fun o b' => b' = b ∧ b.stage = .object o)
      (fun _ b' => b' = b ∧ ∀ o, b.stage ≠ .object o) := by
  unfold openObject
  rw [ends_bind, ends_get]
  cases h : b.stage with
  | object o => exact ⟨rfl, rfl⟩
  | idle => exact ⟨rfl, fun _ => Stage.noConfusion⟩
  | vector v => exact ⟨rfl, fun _ => Stage.noConfusion⟩
  | finished => exact ⟨rfl, fun _ => Stage.noConfusion⟩

theorem requireWritten_ends (op : Operation) (target bound : Nat) :
    Ends (requireWritten op target bound) b (fun _ b' => b' = b ∧ 0 < target ∧ target ≤ bound)
      (fun _ b' => b' = b) := by
  unfold requireWritten
  rw [ends_ite]
  exact ⟨fun _ => rfl, fun _ => ⟨rfl, by omega, by omega⟩⟩

/-- Room is made without a byte being written. It is refused only past the limit. -/
theorem reserve_ends (n : Nat) :
    Ends (reserve n) b (fun _ b' => b.Puts [] b' ∧ n ≤ b'.arena.headroom ∧ b'.minAlign = b.minAlign)
      (fun f b' => b' = b ∧ f.isConstruction = false ∧
        b.NoRoom n f) := by
  unfold reserve
  rw [ends_bind, ends_get]
  cases h : b.arena.reserve n with
  | ok a =>
    obtain ⟨hw, hl, hn, hf⟩ := Arena.reserve_eq_ok h
    exact ⟨⟨hw, hl, rfl, rfl, hf, rfl, rfl, rfl, rfl, .refl _⟩, hn, rfl⟩
  | error f =>
    obtain ⟨hf, hlimit⟩ := Arena.reserve_eq_error h
    refine ⟨rfl, hf, hlimit, fun hsize hl _ hfault => ?_⟩
    rw [hfault] at h
    exact Arena.reserve_ne_fault hsize hl n h

theorem put_ends (bytes : List UInt8) :
    Ends (put bytes) b
      (fun _ b' => b.Puts bytes b' ∧ b'.arena.headroom = b.arena.headroom - bytes.length ∧
        b'.minAlign = b.minAlign)
      (fun f b' => b' = b ∧ f = .fault ∧ b.arena.headroom < bytes.length) := by
  unfold put
  rw [ends_bind, ends_get, Arena.prepend]
  split
  · rename_i a h
    split at h
    · cases h
      refine ⟨⟨rfl, rfl, rfl, rfl, ?_, rfl, rfl, rfl, rfl, .refl _⟩, rfl, rfl⟩
      intro hf
      simp only [Arena.Fits, Arena.capacity, Arena.size, List.length_append] at hf ⊢
      omega
    · cases h
  · rename_i f h
    split at h
    · cases h
    · cases h; exact ⟨rfl, rfl, by omega⟩

/-- Bytes for which room was made are put in front. -/
theorem put_ends_of_room {bytes : List UInt8} (h : bytes.length ≤ b.arena.headroom) :
    Ends (put bytes) b
      (fun _ b' => b.Puts bytes b' ∧ b'.arena.headroom = b.arena.headroom - bytes.length ∧
        b'.minAlign = b.minAlign)
      (fun _ _ => False) :=
  (put_ends b bytes).mono (fun _ _ h => h) fun _ _ hb => by omega

/-- `n` zero bytes. -/
abbrev zeros (n : Nat) : List UInt8 := List.replicate n 0

/-- Padding is put in front, and there is room for what was announced. A refusal writes nothing. It
is no matter of order unless the buffer is finished, and if the size is an alignment, there is no
room. -/
theorem prep_ends (size additional : Nat) :
    Ends (prep size additional) b
      (fun _ b' => b.Puts (zeros (padding (b.offset + additional) size)) b' ∧
        b.isFinished = false ∧ size + additional ≤ b'.arena.headroom ∧
        b'.minAlign = max b.minAlign size ∧ b'.Rests size (b'.offset + additional))
      (fun f b' => b.Puts [] b' ∧ (f.isConstruction = true → b.isFinished = true) ∧
        (b.isFinished = false → isPowerOfTwo size = true →
          b.NoRoom (padding (b.offset + additional) size + size + additional) f)) := by
  unfold prep
  rw [ends_bind]
  apply (requireUnfinished_ends b).mono
  · intro _ b h
    obtain ⟨rfl, hb⟩ := h
    simp only [ends_ite, ends_bind, ends_reject, ends_modify, ends_offset, ends_fault]
    refine ⟨fun hp => ?_, fun hp => ?_⟩
    · refine ⟨.refl _, nofun, fun _ h => ?_⟩
      simp [h] at hp
    · have hpower : isPowerOfTwo size = true := by simpa using hp
      let raised : Builder := { b with minAlign := max b.minAlign size }
      -- The alignment is raised first, and stays raised if there is no room.
      have hraised : b.Puts [] raised :=
        ⟨rfl, rfl, rfl, rfl, id, rfl, rfl, rfl, rfl, Builder.tightens_max _ hpower⟩
      refine ⟨fun hwords => ⟨hraised, nofun, fun _ _ => ⟨fun h => absurd rfl h, fun _ _ h => ?_⟩⟩, fun _ => ?_⟩
      · change wordLimit ≤ b.offset + additional ∨
          wordLimit ≤ padding (b.offset + additional) size + size + additional at hwords
        omega
      apply (reserve_ends raised _).mono
      · intro _ b1 h
        obtain ⟨h1, hroom, hm⟩ := h
        refine (put_ends_of_room b1 ?_).mono ?_ fun _ _ h => h.elim
        · rw [List.length_replicate]
          change padding (b.offset + additional) size + size + additional ≤ _ at hroom
          show padding (b.offset + additional) size ≤ _
          omega
        · intro _ b2 h
          obtain ⟨h2, hh, hm2⟩ := h
          have hputs := (hraised.trans h1).trans h2
          rw [List.append_nil, List.append_nil] at hputs
          have hmin : b2.minAlign = max b.minAlign size := hm2.trans hm
          refine ⟨hputs, hb, ?_, hmin, hpower, ?_, ?_⟩
          · rw [hh, List.length_replicate]
            change padding (b.offset + additional) size + size + additional ≤ _ at hroom
            show _ ≤ _ - padding (b.offset + additional) size
            omega
          · rw [hmin]
            exact Nat.le_max_right ..
          · have hsum : b2.offset + additional =
                b.offset + additional + padding (b.offset + additional) size := by
              rw [hputs.offset, List.length_replicate]
              change padding (b.offset + additional) size + b.offset + additional = _
              omega
            rw [hsum]
            exact dvd_add_padding _ (pos_of_isPowerOfTwo hpower)
      · intro f b1 h
        obtain ⟨rfl, hc, hl⟩ := h
        exact ⟨hraised, fun h => by simp [hc] at h, fun _ _ => hl⟩
  · intro f b h
    obtain ⟨rfl, hb, rfl⟩ := h
    exact ⟨.refl _, fun _ => hb, fun h => by simp [hb] at h⟩

theorem pad_ends (n : Nat) :
    Ends (pad n) b (fun _ b' => b.Puts (zeros n) b')
      (fun f b' => b.Puts [] b' ∧ (b.isFinished = false → b.NoRoom n f)) := by
  unfold pad
  rw [ends_bind]
  apply (requireUnfinished_ends b).mono
  · intro _ b h
    obtain ⟨rfl, -⟩ := h
    rw [ends_bind]
    apply (reserve_ends _ n).mono
    · intro _ b1 h
      obtain ⟨h1, hroom, -⟩ := h
      refine (put_ends_of_room b1 (by simpa using hroom)).mono ?_ fun _ _ h => h.elim
      intro _ b2 h
      obtain ⟨h2, -⟩ := h
      simpa using h1.trans h2
    · intro f b h
      obtain ⟨rfl, -, hroom⟩ := h
      exact ⟨.refl _, fun _ => hroom⟩
  · intro f b h
    obtain ⟨rfl, hb, -⟩ := h
    exact ⟨.refl _, fun h => by simp [hb] at h⟩

theorem isPowerOfTwo_size (ty : ScalarType) : isPowerOfTwo ty.size = true := by
  rcases ty.size_cases with h | h | h | h <;> rw [h] <;> decide

/-- A scalar comes to stand in front of padding, and its offset is answered. -/
theorem push_ends (ty : ScalarType) (v : ty.Value) :
    Ends (push ty v) b
      (fun position b' => b.Puts (ty.encode b.order v ++ zeros (padding b.offset ty.size)) b' ∧
        b.isFinished = false ∧ position = b'.offset ∧ b'.Rests ty.size b'.offset)
      (fun f b' => b.Puts [] b' ∧ (f.isConstruction = true → b.isFinished = true) ∧
        (b.isFinished = false → b.NoRoom (padding b.offset ty.size + ty.size) f)) := by
  unfold push
  rw [ends_bind]
  apply (prep_ends b ty.size 0).mono
  · intro _ b1 h
    obtain ⟨h1, hb, hroom, -, hrests⟩ := h
    rw [ends_bind, ends_get, ends_bind]
    refine (put_ends_of_room b1 (by simpa using hroom)).mono ?_ fun _ _ h => h.elim
    intro _ b2 h
    obtain ⟨h2, -⟩ := h
    have hlen : ty.size ∣ (ty.encode b1.order v).length := ⟨1, by rw [ScalarType.length_encode, Nat.mul_one]⟩
    refine ⟨?_, hb, rfl, (hrests.add hlen).put h2⟩
    rw [← h1.order]
    exact h1.trans h2
  · intro f b1 h
    obtain ⟨h1, hc, hl⟩ := h
    exact ⟨h1, hc, fun hb => hl hb (isPowerOfTwo_size ty)⟩

/-- A reference comes to stand in front of padding. It holds the distance of the target from where it
ends, and its own four bytes. -/
theorem pushReference_ends (target : Nat) :
    Ends (pushReference target) b
      (fun _ b' => b.Puts
        (b.order.encode 4 (b'.offset - 4 - target + 4) ++ zeros (padding b.offset 4)) b' ∧
        b.isFinished = false ∧ b'.Rests 4 b'.offset ∧ b'.minAlign = max b.minAlign 4)
      (fun f b' => b.Puts [] b' ∧ (f.isConstruction = true → b.isFinished = true)) := by
  unfold pushReference putWord
  rw [ends_bind]
  apply (prep_ends b 4 0).mono
  · intro _ b1 h
    obtain ⟨h1, hb, hroom, hmin, hrests⟩ := h
    rw [ends_bind, ends_offset, ends_bind, ends_get]
    refine (put_ends_of_room b1 (by simpa using hroom)).mono ?_ fun _ _ h => h.elim
    intro _ b2 h
    obtain ⟨h2, -, hmin2⟩ := h
    have hrests2 := (hrests.add ⟨1, ByteOrder.length_encode ..⟩).put h2
    have hb2 : b2.offset = 4 + b1.offset := by simpa using h2.offset
    have hb1 : b1.offset = b2.offset - 4 := by omega
    rw [hb1] at h2
    rw [← h1.order]
    exact ⟨h1.trans h2, hb, hrests2, hmin2.trans hmin⟩
  · intro f b1 h
    obtain ⟨h1, hc, -⟩ := h
    exact ⟨h1, hc⟩

theorem pushOffset_ends {kind : OffsetKind} (target : Offset kind) :
    Ends (pushOffset target) b
      (fun position b' =>
        b.Puts (b.order.encode 4 (b'.offset - 4 - target.value + 4) ++ zeros (padding b.offset 4))
          b' ∧ 0 < target.value ∧ target.value ≤ b.offset ∧ position = b'.offset ∧ b'.Rests 4 b'.offset)
      (fun _ b' => b.Puts [] b') := by
  unfold pushOffset
  rw [ends_bind, ends_offset, ends_bind]
  apply (requireWritten_ends b _ _ _).mono
  · intro _ b h
    obtain ⟨rfl, hpos, hle⟩ := h
    rw [ends_bind]
    refine (pushReference_ends b target.value).mono ?_ fun f b' h => h.1
    intro _ b1 h
    obtain ⟨h1, -, hrests, -⟩ := h
    exact ⟨h1, hpos, hle, rfl, hrests⟩
  · rintro f b rfl
    exact .refl _

end Steps

end Build

end TableBuffer
