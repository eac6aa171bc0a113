import TableBuffer.Proofs.Recoding
import TableBuffer.Proofs.Steps

/-!
# Builders that differ in their room or their byte order

How much free room a builder has, and what earlier use left in it, shows in no answer: room is made when
it is needed, and it is refused by the limit alone. Nor does the order of the bytes show, for a number takes
as many bytes in either. `Alike` relates two builders that differ in these; `Agree` says that a step ends
alike in both. If the limits differ, the one with the lower limit may be refused room instead.
-/

namespace TableBuffer

/-- A refusal to grow past the limit. -/
def Failure.IsTooLarge (f : Failure) : Prop :=
  ∃ requested limit, f = .error (.bufferTooLarge requested limit)

namespace Arena

/-- Written and free bytes together keep to `limit`. -/
structure KeepsTo (a : Arena) (limit : Nat) : Prop where
  limit_eq : a.limit = limit
  fits : a.Fits

variable {a : Arena} {limit n : Nat}

theorem KeepsTo.size_le (h : a.KeepsTo limit) : a.size ≤ limit := by
  rw [← h.limit_eq]
  exact Nat.le_trans (Nat.le_add_left ..) h.fits

/-- Room is made whenever the limit leaves it, whatever room there is. -/
theorem KeepsTo.reserve_ok (h : a.KeepsTo limit) (hlimit : limit < allocationLimit)
    (hn : a.size + n ≤ limit) :
    ∃ a', a.reserve n = .ok a' ∧ a'.KeepsTo limit ∧ a'.written = a.written := by
  cases hreserve : a.reserve n with
  | ok a' =>
    obtain ⟨hwritten, hlimit', -, hfits⟩ := reserve_eq_ok hreserve
    exact ⟨a', rfl, ⟨hlimit'.trans h.limit_eq, hfits h.fits⟩, hwritten⟩
  | error f =>
    have hfault : f ≠ .fault := by
      rintro rfl
      exact reserve_ne_fault (h.limit_eq ▸ h.size_le) (h.limit_eq ▸ hlimit) n hreserve
    have hlt := (reserve_eq_error hreserve).2 hfault
    rw [h.limit_eq] at hlt
    omega

/-- Room is refused with numbers that do not depend on the room there is. -/
theorem KeepsTo.reserve_error (h : a.KeepsTo limit) (hlimit : limit < allocationLimit)
    (hn : limit < a.size + n) :
    a.reserve n = .error (.error (.bufferTooLarge (min (a.size + n) wordMax) limit)) := by
  have hfits := h.fits
  have heq := h.limit_eq
  simp only [Fits, capacity] at hfits
  rw [reserve, if_neg (by omega)]
  dsimp only
  rw [heq, if_neg]
  simp only [allocationLimit, wordMax, wordLimit] at hlimit ⊢
  omega

/-- Bytes are put in front wherever there is room for them. -/
theorem KeepsTo.prepend_ok (h : a.KeepsTo limit) {bytes : List UInt8} (hroom : bytes.length ≤ a.headroom) :
    ∃ a', a.prepend bytes = .ok a' ∧ a'.KeepsTo limit ∧ a'.written = bytes ++ a.written := by
  cases hprepend : a.prepend bytes with
  | ok a' =>
    have hcapacity := capacity_prepend hprepend
    have hwritten := written_prepend hprepend
    rw [prepend, if_pos hroom] at hprepend
    cases hprepend
    exact ⟨_, rfl, ⟨h.limit_eq, Nat.le_trans (Nat.le_of_eq hcapacity) h.fits⟩, hwritten⟩
  | error f =>
    rw [prepend, if_pos hroom] at hprepend
    cases hprepend

end Arena

namespace Builder

/-- The limits and the byte orders of two builders that are compared. -/
structure Pairing where
  limit : Nat
  limit' : Nat
  order : ByteOrder
  order' : ByteOrder

/-- The builders differ in their free room, their limits, the options about these and their byte orders at
most. If the orders agree, the written bytes do. -/
structure Alike (p : Pairing) (b b' : Builder) : Prop where
  limit_le : p.limit ≤ p.limit'
  limit_lt : p.limit' < Arena.allocationLimit
  arena : b.arena.KeepsTo p.limit
  arena' : b'.arena.KeepsTo p.limit'
  order : b.order = p.order
  order' : b'.order = p.order'
  offset : b'.offset = b.offset
  written : p.order = p.order' → b'.arena.written = b.arena.written
  forceDefaults : b'.options.forceDefaults = b.options.forceDefaults
  dedupVTables : b'.options.dedupVTables = b.options.dedupVTables
  minAlign : b'.minAlign = b.minAlign
  stage : b'.stage = b.stage
  vtables : b'.vtables = b.vtables.map (VTable.recode p.order p.order')
  vtablesWritten : b'.vtablesWritten = b.vtablesWritten
  structSize : b'.structSize = b.structSize

namespace Alike

variable {p : Pairing} {b b' : Builder} (h : Alike p b b')

include h

theorem isFinished : b'.isFinished = b.isFinished := by
  rw [Builder.isFinished, Builder.isFinished, h.stage]

theorem setArena {a a' : Arena} (ha : a.KeepsTo p.limit) (ha' : a'.KeepsTo p.limit')
    (hsize : a'.size = a.size) (hw : p.order = p.order' → a'.written = a.written) :
    Alike p { b with arena := a } { b' with arena := a' } :=
  { h with arena := ha, arena' := ha', offset := hsize, written := hw }

end Alike

end Builder

namespace Build

open Builder (Alike Pairing)

variable {α β : Type} {p : Pairing} {b b' : Builder}

/-- Two ends of a step are the same for all that can be told, unless the lower limit is in the way. -/
inductive Agree (p : Pairing) :
    EStateM.Result Failure Builder α → EStateM.Result Failure Builder α → Prop
  | ok {a : α} {c c' : Builder} (h : Alike p c c') : Agree p (.ok a c) (.ok a c')
  | error {f : Failure} {c c' : Builder} (h : Alike p c c') :
    Agree p (.error f c) (.error f c')
  | refused {f : Failure} {c : Builder} {r : EStateM.Result Failure Builder α} (lt : p.limit < p.limit')
    (tooLarge : f.IsTooLarge) : Agree p (.error f c) r

/-- After steps that agree, steps may follow that agree on alike builders. -/
theorem Agree.bind {x x' : Build α} {f f' : α → Build β} (h : Agree p (x b) (x' b'))
    (hf : ∀ a c c', x b = .ok a c → x' b' = .ok a c' → Alike p c c' →
      Agree p (f a c) (f' a c')) :
    Agree p ((x >>= f) b) ((x' >>= f') b') := by
  show Agree p (EStateM.bind x f b) (EStateM.bind x' f' b')
  unfold EStateM.bind
  generalize x b = r at h hf ⊢
  generalize x' b' = r' at h hf ⊢
  cases h with
  | ok h => exact hf _ _ _ rfl rfl h
  | error h => exact .error h
  | refused lt tooLarge => exact .refused lt tooLarge

theorem Agree.ite {c : Prop} [Decidable c] {x y x' y' : Build α}
    (hpos : c → Agree p (x b) (x' b')) (hneg : ¬ c → Agree p (y b) (y' b')) :
    Agree p ((if c then x else y) b) ((if c then x' else y') b') := by
  by_cases hc : c
  · rw [if_pos hc, if_pos hc]
    exact hpos hc
  · rw [if_neg hc, if_neg hc]
    exact hneg hc

theorem get_bind (f : Builder → Build α) : ((get : Build Builder) >>= f) b = f b b := rfl

theorem offset_bind (f : Nat → Build α) : (offset >>= f) b = f b.offset b := rfl

theorem modify_bind (g : Builder → Builder) (f : Unit → Build α) :
    ((modify g : Build Unit) >>= f) b = f () (g b) := rfl

theorem setStage_bind (stage : Stage) (f : Unit → Build α) :
    (setStage stage >>= f) b = f () { b with stage := stage } := rfl

section Steps

variable (h : Alike p b b')

include h

theorem requireUnfinished_agree : Agree p (requireUnfinished b) (requireUnfinished b') := by
  unfold requireUnfinished
  rw [get_bind, get_bind, h.isFinished]
  exact .ite (fun _ => .error h) fun _ => .ok h

theorem requireIdle_agree (op : Operation) :
    Agree p (requireIdle op b) (requireIdle op b') := by
  unfold requireIdle
  rw [get_bind, get_bind, h.stage]
  cases b.stage with
  | idle => exact .ok h
  | object o => exact .error h
  | vector v => exact .error h
  | finished => exact .error h

theorem openObject_agree (op : Operation) :
    Agree p (openObject op b) (openObject op b') := by
  unfold openObject
  rw [get_bind, get_bind, h.stage]
  cases b.stage with
  | object o => exact .ok h
  | idle => exact .error h
  | vector v => exact .error h
  | finished => exact .error h

theorem offset_agree : Agree p (offset b) (offset b') := by
  show Agree p (.ok b.offset b) (.ok b'.offset b')
  rw [h.offset]
  exact .ok h

theorem requireWritten_agree (op : Operation) (target bound : Nat) :
    Agree p (requireWritten op target bound b) (requireWritten op target bound b') := by
  unfold requireWritten
  exact .ite (fun _ => .error h) fun _ => .ok h

/-- The limit decides, not the room. -/
theorem reserve_agree (n : Nat) : Agree p (reserve n b) (reserve n b') := by
  have hsize : b'.arena.size = b.arena.size := h.offset
  have hlimit : p.limit < Arena.allocationLimit := Nat.lt_of_le_of_lt h.limit_le h.limit_lt
  unfold reserve
  rw [get_bind, get_bind]
  by_cases hn : b.arena.size + n ≤ p.limit
  · obtain ⟨a, ha, hkeeps, hw⟩ := h.arena.reserve_ok hlimit hn
    obtain ⟨a', ha', hkeeps', hw'⟩ := h.arena'.reserve_ok (n := n) h.limit_lt (by
      have hle := h.limit_le
      omega)
    rw [ha, ha']
    exact .ok (h.setArena hkeeps hkeeps' (by rw [Arena.size, Arena.size, hw, hw']; exact hsize)
      fun ho => by rw [hw, hw', h.written ho])
  · have hlt : p.limit < b.arena.size + n := Nat.lt_of_not_le hn
    rw [h.arena.reserve_error hlimit hlt]
    by_cases hlimits : p.limit = p.limit'
    · rw [h.arena'.reserve_error h.limit_lt (by omega), hsize, hlimits]
      exact .error h
    · exact .refused (Nat.lt_of_le_of_ne h.limit_le hlimits) ⟨_, _, rfl⟩

/-- After room was made, both have it. -/
theorem reserve_bind_agree (n : Nat) {f f' : Unit → Build α}
    (hf : ∀ c c', Alike p c c' → n ≤ c.arena.headroom → n ≤ c'.arena.headroom →
      Agree p (f () c) (f' () c')) :
    Agree p ((reserve n >>= f) b) ((reserve n >>= f') b') := by
  refine (reserve_agree h n).bind fun _ c c' hc hc' h => ?_
  obtain ⟨-, hroom, -⟩ := (reserve_ends b n).of_ok hc
  obtain ⟨-, hroom', -⟩ := (reserve_ends b' n).of_ok hc'
  exact hf c c' h hroom hroom'

/-- As many bytes are put in front of both if both have the room. -/
theorem put_agree {bytes bytes' : List UInt8} (hlen : bytes'.length = bytes.length)
    (hsame : p.order = p.order' → bytes' = bytes) (hroom : bytes.length ≤ b.arena.headroom)
    (hroom' : bytes.length ≤ b'.arena.headroom) : Agree p (put bytes b) (put bytes' b') := by
  obtain ⟨a, ha, hkeeps, hw⟩ := h.arena.prepend_ok hroom
  obtain ⟨a', ha', hkeeps', hw'⟩ := h.arena'.prepend_ok (hlen ▸ hroom')
  have hoffset : b'.arena.written.length = b.arena.written.length := h.offset
  have hsize : a'.size = a.size := by
    rw [Arena.size, Arena.size, hw, hw', List.length_append, List.length_append, hlen, hoffset]
  unfold put
  rw [get_bind, get_bind, ha, ha']
  exact .ok (h.setArena hkeeps hkeeps' hsize fun ho => by rw [hw, hw', hsame ho, h.written ho])

/-- Both put the same in front, each in its own order. -/
theorem put_in_order_agree {n : Nat} (bytes : ByteOrder → List UInt8)
    (hlen : ∀ order, (bytes order).length = n) (hroom : n ≤ b.arena.headroom)
    (hroom' : n ≤ b'.arena.headroom) : Agree p (put (bytes b.order) b) (put (bytes b'.order) b') := by
  refine put_agree h (by rw [hlen, hlen]) (fun ho => ?_) (by rwa [hlen]) (by rwa [hlen])
  rw [h.order, h.order', ho]

theorem putZeros_agree (n : Nat) (hroom : n ≤ b.arena.headroom) (hroom' : n ≤ b'.arena.headroom) :
    Agree p (putZeros n b) (putZeros n b') :=
  put_in_order_agree h (fun _ => List.replicate n 0) (fun _ => List.length_replicate) hroom hroom'

theorem putWord_agree (n : Nat) (hroom : 4 ≤ b.arena.headroom) (hroom' : 4 ≤ b'.arena.headroom) :
    Agree p (putWord n b) (putWord n b') := by
  unfold putWord
  rw [get_bind, get_bind]
  exact put_in_order_agree h (fun order => order.encode 4 n) (fun order => order.length_encode 4 n) hroom hroom'

theorem prep_agree (size additional : Nat) :
    Agree p (prep size additional b) (prep size additional b') := by
  unfold prep
  refine (requireUnfinished_agree h).bind fun _ b b' _ _ h => ?_
  refine .ite (fun _ => .error h) fun _ => ?_
  dsimp only
  rw [modify_bind, modify_bind, offset_bind, offset_bind]
  have hraised : Alike p { b with minAlign := max b.minAlign size }
      { b' with minAlign := max b'.minAlign size } := { h with minAlign := by rw [h.minAlign] }
  rw [hraised.offset]
  refine .ite (fun _ => .error hraised) fun _ => ?_
  exact reserve_bind_agree hraised _ fun c c' h hroom hroom' =>
    putZeros_agree h _ (by omega) (by omega)

/-- After a piece was prepared, both have the room that was announced. -/
theorem prep_bind_agree (size additional : Nat) {f f' : Unit → Build α}
    (hf : ∀ c c', Alike p c c' → size + additional ≤ c.arena.headroom →
      size + additional ≤ c'.arena.headroom → Agree p (f () c) (f' () c')) :
    Agree p ((prep size additional >>= f) b) ((prep size additional >>= f') b') := by
  refine (prep_agree h size additional).bind fun _ c c' hc hc' h => ?_
  obtain ⟨-, -, hroom, -⟩ := (prep_ends b size additional).of_ok hc
  obtain ⟨-, -, hroom', -⟩ := (prep_ends b' size additional).of_ok hc'
  exact hf c c' h hroom hroom'

theorem pad_agree (n : Nat) : Agree p (pad n b) (pad n b') := by
  unfold pad
  refine (requireUnfinished_agree h).bind fun _ b b' _ _ h => ?_
  refine reserve_bind_agree h n fun c c' h hroom hroom' => ?_
  exact putZeros_agree h n hroom hroom'

theorem push_agree (ty : ScalarType) (v : ty.Value) :
    Agree p (push ty v b) (push ty v b') := by
  unfold push
  refine prep_bind_agree h ty.size 0 fun c c' h hroom hroom' => ?_
  rw [get_bind, get_bind]
  refine (put_in_order_agree h (fun order => ty.encode order v) (fun order => ty.length_encode order v) hroom
    hroom').bind fun _ d d' _ _ h => ?_
  exact offset_agree h

theorem pushReference_agree (target : Nat) :
    Agree p (pushReference target b) (pushReference target b') := by
  unfold pushReference
  refine prep_bind_agree h 4 0 fun c c' h hroom hroom' => ?_
  rw [offset_bind, offset_bind, h.offset]
  exact putWord_agree h _ hroom hroom'

theorem pushOffset_agree {kind : OffsetKind} (target : Offset kind) :
    Agree p (pushOffset target b) (pushOffset target b') := by
  unfold pushOffset
  rw [offset_bind, offset_bind, h.offset]
  refine (requireWritten_agree h _ _ _).bind fun _ b b' _ _ h => ?_
  refine (pushReference_agree h _).bind fun _ b b' _ _ h => ?_
  exact offset_agree h

end Steps

end Build

end TableBuffer
