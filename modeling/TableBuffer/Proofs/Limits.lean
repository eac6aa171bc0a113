import TableBuffer.Proofs.AlikeCalls
import TableBuffer.Proofs.Demand

/-!
# What the limit refuses

A builder under a limit is compared with one that is alike but for a higher limit. `Meets` says how a step ends in
both, given what room it leaves unused, to spare, in the end: it is refused under the lower limit just when what is
written under the higher one and this room together are past the lower one. A step of its own meets this by what it
asks for (`Meets.of_asks`); checks never ask for room and may come before it (`Meets.after`), bookkeeping may come
after it (`Meets.followed`), and so may further steps that ask for room (`Meets.bind`).
-/

namespace TableBuffer

namespace Builder

variable {p : Pairing} {b b' : Builder} (h : Alike p b b')

include h

theorem Alike.asked (size additional : Nat) : b'.asked size additional = b.asked size additional := by
  rw [Builder.asked, Builder.asked, h.isFinished, h.offset]

theorem Alike.vectorAsked (length alignment : Nat) :
    b'.vectorAsked length alignment = b.vectorAsked length alignment := by
  rw [Builder.vectorAsked, Builder.vectorAsked, countPlace, countPlace, h.stage, h.offset]

theorem Alike.countAsked : b'.countAsked = b.countAsked := by
  rw [Builder.countAsked, Builder.countAsked, h.stage, h.offset]

theorem Alike.offset_le : b'.offset ≤ p.limit := h.offset ▸ h.arena.size_le

end Builder

namespace Build

open Builder (Alike Pairing)

variable {α β : Type} {p : Pairing} {b b' : Builder} {spare : Builder → Nat} {need need' : Nat}

/-- How a step ends under a limit and under a higher one that is not in its way. It is refused under the lower
limit just when that is less than what is written in the end and the room to spare; if the step fails for another
reason, less room may do. -/
inductive Meets (p : Pairing) (spare : Builder → Nat) :
    EStateM.Result Failure Builder α → EStateM.Result Failure Builder α → Prop
  | ok {a : α} {c c' : Builder} (h : Alike p c c') (fits : c'.offset + spare c' ≤ p.limit) :
    Meets p spare (.ok a c) (.ok a c')
  | error {f : Failure} {c c' : Builder} (h : Alike p c c') (notLarge : ¬ f.IsTooLarge) :
    Meets p spare (.error f c) (.error f c')
  | refused {f : Failure} {a : α} {c c' : Builder} (tooLarge : f.IsTooLarge)
    (full : p.limit < c'.offset + spare c') : Meets p spare (.error f c) (.ok a c')
  | refusedFirst {f g : Failure} {c c' : Builder} (tooLarge : f.IsTooLarge)
    (full : p.limit < c'.offset + spare c') : Meets p spare (.error f c) (.error g c')
  | hopeless {r : EStateM.Result Failure Builder α} {g : Failure} {c' : Builder}
    (h : g = .fault ∨ g.IsTooLarge) : Meets p spare r (.error g c')

/-- A step that is never refused room. -/
def Calm (x : Build α) (b : Builder) : Prop := Ends x b (fun _ _ => True) (fun f _ => ¬ f.IsTooLarge)

theorem Meets.of_asks {x x' : Build α} (hagree : Agree p (x b) (x' b')) (h : Alike p b b')
    (hx : Asks x b need spare) (hx' : Asks x' b' need' spare) (hneed : need' = need) :
    Meets p spare (x b) (x' b') := by
  obtain rfl := hneed
  have hlimit : b.arena.limit = p.limit := h.arena.limit_eq
  unfold Asks Ends at hx hx'
  generalize x b = r at hagree hx
  generalize x' b' = r' at hagree hx'
  cases hagree with
  | ok h => exact .ok h (by rw [hx'.1, ← hlimit]; exact hx.2)
  | @error f c c' h =>
    by_cases hlarge : f.IsTooLarge
    · exact .hopeless (.inr hlarge)
    · exact .error h hlarge
  | @refused f c _ lt tooLarge =>
    have hfull : p.limit < need' := by
      cases hx with
      | past hpast =>
        rcases hpast with rfl | hpast
        · exact absurd tooLarge Failure.not_isTooLarge_fault
        · exact hlimit ▸ hpast.2
      | other notLarge _ _ => exact absurd tooLarge notLarge
    cases r' with
    | ok a c' => exact .refused tooLarge (by have := hx'.1; omega)
    | error g c' =>
      cases hx' with
      | past hpast => exact .hopeless (hpast.imp_right And.left)
      | other notLarge fits le => exact .refusedFirst tooLarge (by omega)

/-- A step that is never refused room leaves nothing to spare. -/
theorem Meets.of_calm {x x' : Build α} (hagree : Agree p (x b) (x' b')) (hcalm : Calm x b)
    (hspare : ∀ a c', x' b' = .ok a c' → spare c' = 0) : Meets p spare (x b) (x' b') := by
  unfold Calm Ends at hcalm
  generalize x b = r at hagree hcalm
  generalize x' b' = r' at hagree hspare
  cases hagree with
  | @ok a c c' h => exact .ok h (by rw [hspare a c' rfl]; exact h.offset_le)
  | error h => exact .error h hcalm
  | refused lt tooLarge => exact absurd tooLarge hcalm

/-- What comes after a step that is never refused room decides. -/
theorem Meets.after {x x' : Build β} {f f' : β → Build α} (hagree : Agree p (x b) (x' b')) (hcalm : Calm x b)
    (hf : ∀ a c c', x b = .ok a c → x' b' = .ok a c' → Alike p c c' → Meets p spare (f a c) (f' a c')) :
    Meets p spare ((x >>= f) b) ((x' >>= f') b') := by
  show Meets p spare (EStateM.bind x f b) (EStateM.bind x' f' b')
  unfold EStateM.bind
  unfold Calm Ends at hcalm
  generalize x b = r at hagree hcalm hf ⊢
  generalize x' b' = r' at hagree hf ⊢
  cases hagree with
  | ok h => exact hf _ _ _ rfl rfl h
  | error h => exact .error h hcalm
  | refused lt tooLarge => exact absurd tooLarge hcalm

/-- A step may follow that neither fails nor writes. -/
theorem Meets.followed {x x' : Build β} {f f' : β → Build α} (h : Meets p spare (x b) (x' b'))
    (hf : ∀ a c c', Alike p c c' → Agree p (f a c) (f' a c'))
    (hquiet : ∀ a c, Ends (f a) c (fun _ _ => True) (fun _ _ => False))
    (hquiet' : ∀ a c, Ends (f' a) c (fun _ d => d.offset = c.offset ∧ spare d = spare c) (fun _ _ => False)) :
    Meets p spare ((x >>= f) b) ((x' >>= f') b') := by
  show Meets p spare (EStateM.bind x f b) (EStateM.bind x' f' b')
  unfold EStateM.bind
  generalize x b = r at h ⊢
  generalize x' b' = r' at h ⊢
  cases h with
  | @ok a c c' h fits =>
    have hagree := hf a c c' h
    have hends := hquiet a c
    have hends' := hquiet' a c'
    unfold Ends at hends hends'
    dsimp only
    generalize f a c = t at hagree hends ⊢
    generalize f' a c' = t' at hagree hends' ⊢
    cases hagree with
    | ok h => exact .ok h (by rw [hends'.1, hends'.2]; exact fits)
    | error h => exact hends.elim
    | refused lt tooLarge => exact hends.elim
  | error h notLarge => exact .error h notLarge
  | @refused f0 a c c' tooLarge full =>
    have hends' := hquiet' a c'
    unfold Ends at hends'
    dsimp only
    generalize f' a c' = t' at hends' ⊢
    cases t' with
    | ok _ d => exact .refused tooLarge (by rw [hends'.1, hends'.2]; exact full)
    | error _ _ => exact hends'.elim
  | refusedFirst tooLarge full => exact .refusedFirst tooLarge full
  | hopeless h => exact .hopeless h

/-- After a step that asks for what it needs, what comes next decides: it only adds to what is written. -/
theorem Meets.bind {x x' : Build β} {f f' : β → Build α} (h : Meets p (fun _ => 0) (x b) (x' b'))
    (hf : ∀ a c c', x b = .ok a c → x' b' = .ok a c' → Alike p c c' → Meets p spare (f a c) (f' a c'))
    (hgrows : ∀ a c', x' b' = .ok a c' →
      Ends (f' a) c' (fun _ d => c'.offset ≤ d.offset) (fun _ d => c'.offset ≤ d.offset)) :
    Meets p spare ((x >>= f) b) ((x' >>= f') b') := by
  show Meets p spare (EStateM.bind x f b) (EStateM.bind x' f' b')
  unfold EStateM.bind
  generalize x b = r at h hf ⊢
  generalize x' b' = r' at h hf hgrows ⊢
  cases h with
  | ok h fits => exact hf _ _ _ rfl rfl h
  | error h notLarge => exact .error h notLarge
  | @refused f0 a c c' tooLarge full =>
    have hends := hgrows a c' rfl
    unfold Ends at hends
    dsimp only
    have hfull : p.limit < c'.offset := full
    generalize f' a c' = t' at hends ⊢
    cases t' with
    | ok _ d => exact .refused tooLarge (Nat.lt_of_lt_of_le hfull (Nat.le_trans hends (Nat.le_add_right ..)))
    | error _ d =>
      exact .refusedFirst tooLarge (Nat.lt_of_lt_of_le hfull (Nat.le_trans hends (Nat.le_add_right ..)))
  | refusedFirst tooLarge full => exact .refusedFirst tooLarge (Nat.lt_of_lt_of_le full (Nat.le_add_right ..))
  | hopeless h => exact .hopeless h

theorem Meets.ite {c : Prop} [Decidable c] {x y x' y' : Build α} (hpos : c → Meets p spare (x b) (x' b'))
    (hneg : ¬ c → Meets p spare (y b) (y' b')) :
    Meets p spare ((if c then x else y) b) ((if c then x' else y') b') := by
  by_cases hc : c
  · rw [if_pos hc, if_pos hc]
    exact hpos hc
  · rw [if_neg hc, if_neg hc]
    exact hneg hc

section Checks

theorem Calm.bind {x : Build β} {f : β → Build α} (hx : Calm x b) (hf : ∀ a c, x b = .ok a c → Calm (f a) c) :
    Calm (x >>= f) b := by
  unfold Calm at hx ⊢
  rw [ends_bind]
  cases h : x b with
  | ok a c =>
    unfold Ends
    rw [h]
    exact hf a c h
  | error f c =>
    unfold Ends at hx ⊢
    rw [h] at hx ⊢
    exact hx

variable (b)

theorem requireIdle_calm (op : Operation) : Calm (requireIdle op) b := by
  unfold Calm requireIdle
  rw [ends_bind, ends_get]
  cases b.stage with
  | idle => exact trivial
  | object o => exact Failure.not_isTooLarge nofun
  | vector v => exact Failure.not_isTooLarge nofun
  | finished => exact Failure.not_isTooLarge nofun

theorem openObject_calm (op : Operation) : Calm (openObject op) b := by
  unfold Calm openObject
  rw [ends_bind, ends_get]
  cases b.stage with
  | object o => exact trivial
  | idle => exact Failure.not_isTooLarge nofun
  | vector v => exact Failure.not_isTooLarge nofun
  | finished => exact Failure.not_isTooLarge nofun

theorem requireWritten_calm (op : Operation) (target bound : Nat) : Calm (requireWritten op target bound) b := by
  unfold Calm requireWritten
  rw [ends_ite]
  exact ⟨fun _ => Failure.not_isTooLarge nofun, fun _ => trivial⟩

theorem requireAllWritten_calm {kind : OffsetKind} (op : Operation) (bound : Nat) (items : List (Offset kind)) :
    Calm (items.forM fun item => requireWritten op item.value bound) b := by
  induction items generalizing b with
  | nil => exact trivial
  | cons item items ih =>
    rw [List.forM_eq_forM, List.forM_cons]
    exact (requireWritten_calm b op item.value bound).bind fun _ c _ => ih c

theorem openSlot_calm (op : Operation) (slot : Nat) : Calm (openSlot op slot) b := by
  unfold openSlot requireFree
  refine (openObject_calm b op).bind fun o c _ => Calm.bind ?_ fun _ d _ => trivial
  unfold Calm
  dsimp only
  rw [ends_ite, ends_bind, ends_reject, ends_ite, ends_misuse]
  refine ⟨fun _ => Failure.not_isTooLarge nofun, fun _ => ⟨fun _ => ?_, fun _ => trivial⟩⟩
  exact Failure.not_isTooLarge nofun

theorem startObject_calm (slots : Nat) : Calm (startObject slots) b := by
  unfold startObject
  refine (requireIdle_calm b _).bind fun _ c _ => ?_
  unfold Calm
  dsimp only
  rw [ends_ite, ends_bind, ends_reject]
  exact ⟨fun _ => Failure.not_isTooLarge nofun, fun _ => trivial⟩

theorem addStruct_calm (slot : Nat) (struct : Offset .struct) : Calm (addStruct slot struct) b := by
  unfold addStruct
  refine (openSlot_calm b _ slot).bind fun o c _ => ?_
  unfold Calm
  rw [ends_bind, ends_offset]
  dsimp only
  rw [ends_ite, ends_bind, ends_misuse]
  exact ⟨fun _ => Failure.not_isTooLarge nofun, fun _ => trivial⟩

theorem sharedVTable?_calm (vtable : List UInt8) : Calm (sharedVTable? vtable) b :=
  (sharedVTable?_ends b vtable).mono (fun _ _ _ => trivial) fun _ _ h => h.elim

/-- A question about what is written asks for no room, though its answer may be a fault. -/
theorem required_calm (table : Offset .table) (slot : Nat) : Calm (required table slot) b := by
  unfold Calm required
  rw [ends_bind, ends_get]
  dsimp only
  rw [ends_ite, ends_bind, ends_reject]
  refine ⟨fun _ => Failure.not_isTooLarge nofun, fun _ => ?_⟩
  have hfaults := OnlyFaults.has ⟨Image.ofList b.order b.arena.written, b.offset - table.value⟩ slot
  generalize Table.has _ slot = stored at hfaults ⊢
  cases stored with
  | ok present =>
    cases present with
    | true => exact trivial
    | false => exact Failure.not_isTooLarge nofun
  | error f =>
    obtain rfl := hfaults f rfl
    exact Failure.not_isTooLarge_fault

theorem not_isTooLarge_of_finishedBytes {b : Builder} {op : Operation} {e : Error}
    (h : b.finishedBytes op = .error e) : ¬ Failure.IsTooLarge (.error e) := by
  unfold Builder.finishedBytes at h
  split at h
  · cases h
  · obtain rfl := Except.error.inj h
    exact Failure.not_isTooLarge nofun

end Checks

end Build

end TableBuffer
