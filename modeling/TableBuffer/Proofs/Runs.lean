import Mathlib.Control.Monad.Basic
import TableBuffer.Proofs.Growth

/-!
# Runs and what they preserve

A builder is reachable if calls lead to it from a builder with valid options. In such a builder the
written bytes keep to the limit, and every vtable that can be found stands where it is found. A run is
kept as the list of its events, so that a later property can speak of what its calls answered.
-/

namespace TableBuffer

/-- A call and how it ended. -/
abbrev Event := Call × Outcome Reply

namespace Builder

/-- The builders that calls lead to, with any errors on the way but no fault. -/
inductive Reachable : Builder → Prop
  | start {order : ByteOrder} {options : Options} {b : Builder}
    (h : withOptions order options = .ok b) : Reachable b
  | call {b b' : Builder} {c : Call} {outcome : Outcome Reply} (hb : Reachable b)
    (h : b.call c = (outcome, b')) (hf : outcome ≠ .error .fault) : Reachable b'

/-- The builders on which nothing was called since they were made or reset. -/
inductive Fresh : Builder → Prop
  | start {order : ByteOrder} {options : Options} {b : Builder}
    (h : withOptions order options = .ok b) : Fresh b
  | reset {b : Builder} (hb : b.Reachable) : Fresh b.reset

/-- What holds of every reachable builder. -/
structure Sound (b : Builder) : Prop where
  fits : b.arena.Fits
  limit_le : b.arena.limit ≤ maxBufferSize
  structSize_le : b.structSize ≤ b.offset
  vtables : ∀ v position, b.vtables.get? v = some position → b.Keeping v position
  minAlign : isPowerOfTwo b.minAlign = true

theorem fresh_new (order : ByteOrder) : (new order).Fresh :=
  .start (show withOptions order .standard = .ok (new order) from rfl)

theorem Sound.offset_le {b : Builder} (h : b.Sound) : b.offset ≤ b.arena.limit :=
  Nat.le_trans (Nat.le_add_left ..) h.fits

theorem Sound.offset_le_max {b : Builder} (h : b.Sound) : b.offset ≤ maxBufferSize :=
  Nat.le_trans h.offset_le h.limit_le

theorem withOptions_eq_ok_iff {order : ByteOrder} {options : Options} {b : Builder} :
    withOptions order options = .ok b ↔ options.Valid ∧ b = ofOptions order options := by
  unfold withOptions
  cases hv : options.validate with
  | error e =>
    have hinvalid : ¬ options.Valid := fun h => by
      rw [Options.validate_eq_ok_iff.2 h] at hv
      cases hv
    exact ⟨nofun, fun h => absurd h.1 hinvalid⟩
  | ok u =>
    have hvalid : options.Valid := Options.validate_eq_ok_iff.1 hv
    exact ⟨fun h => ⟨hvalid, (Except.ok.inj h).symm⟩, fun h => h.2 ▸ rfl⟩

theorem sound_withOptions {order : ByteOrder} {options : Options} {b : Builder}
    (h : withOptions order options = .ok b) : b.Sound := by
  obtain ⟨hvalid, rfl⟩ := withOptions_eq_ok_iff.1 h
  refine ⟨?_, hvalid.maxSize_le, Nat.le_refl _, (fun v position h => nomatch h), isPowerOfTwo_one⟩
  exact Nat.min_le_right options.initialCapacity options.maxSize

theorem Sound.reset {b : Builder} (h : b.Sound) : b.reset.Sound where
  fits := by
    show b.arena.clear.capacity ≤ _
    rw [Arena.capacity_clear]
    exact h.fits
  limit_le := h.limit_le
  structSize_le := Nat.le_refl _
  vtables := fun _ _ h => nomatch h
  minAlign := isPowerOfTwo_one

theorem Sound.extends {b b' : Builder} (h : b.Sound) (hb : b.Extends b') : b'.Sound where
  fits := hb.fits h.fits
  limit_le := by
    rw [hb.limit]
    exact h.limit_le
  structSize_le := by
    rcases hb.structSize with hs | hs
    · rw [hs]
      exact Nat.le_trans h.structSize_le hb.offset_le
    · exact hs
  vtables v position hv := by
    rcases hb.vtables v position hv with hold | hnew
    · exact (h.vtables v position hold).mono hb.toGrows
    · exact hnew
  minAlign := hb.minAlign.power h.minAlign

/-- One call keeps a builder sound. -/
theorem Sound.call {b : Builder} (h : b.Sound) (c : Call) : (b.call c).2.Sound := by
  by_cases hc : c = .reset
  · rw [hc]
    exact h.reset
  · exact h.extends (call_extends b hc)

theorem Reachable.sound {b : Builder} (h : b.Reachable) : b.Sound := by
  induction h with
  | start h => exact sound_withOptions h
  | @call b b' c outcome hb h hf ih =>
    have hcall := ih.call c
    rw [h] at hcall
    exact hcall

theorem Fresh.sound {b : Builder} (h : b.Fresh) : b.Sound := by
  cases h with
  | start h => exact sound_withOptions h
  | reset hb => exact hb.sound.reset

theorem Fresh.idle {b : Builder} (h : b.Fresh) : b.stage = .idle := by
  cases h with
  | start h =>
    obtain ⟨-, rfl⟩ := withOptions_eq_ok_iff.1 h
    rfl
  | reset hb => rfl

theorem Fresh.vtables {b : Builder} (h : b.Fresh) : b.vtables = .empty ∧ b.vtablesWritten = 0 := by
  cases h with
  | start h =>
    obtain ⟨-, rfl⟩ := withOptions_eq_ok_iff.1 h
    exact ⟨rfl, rfl⟩
  | reset hb => exact ⟨rfl, rfl⟩

/-- The calls of the events in a row end as the events say, none in a fault, and leave `b'`. -/
def Runs (b : Builder) (events : List Event) (b' : Builder) : Prop :=
  b.run (events.map Prod.fst) = (events.map Prod.snd, b') ∧ ∀ e ∈ events, e.2 ≠ .error .fault

variable {b b' : Builder} {events before after : List Event}

theorem runs_of_outcomes (h : (b.run (events.map Prod.fst)).1 = events.map Prod.snd)
    (hf : ∀ e ∈ events, e.2 ≠ .error .fault) : b.Runs events (b.run (events.map Prod.fst)).2 :=
  ⟨Prod.ext h rfl, hf⟩

theorem runs_nil : b.Runs [] b' ↔ b' = b := by
  constructor
  · intro h
    exact (congrArg Prod.snd h.1).symm
  · intro h
    exact ⟨by rw [h]; rfl, fun _ h => nomatch h⟩

theorem runs_cons {e : Event} : b.Runs (e :: events) b' ↔
    e.2 ≠ .error .fault ∧ ∃ b1, b.call e.1 = (e.2, b1) ∧ b1.Runs events b' := by
  obtain ⟨c, outcome⟩ := e
  constructor
  · intro h
    obtain ⟨hrun, hfaults⟩ := h
    have hf : outcome ≠ .error .fault := hfaults _ (List.mem_cons_self ..)
    refine ⟨hf, ?_⟩
    cases hb : b.call c with
    | mk outcome1 b1 =>
      rw [List.map_cons] at hrun
      by_cases hf1 : outcome1 = .error .fault
      · rw [hf1] at hb
        rw [run_fault hb] at hrun
        injection hrun with hout
        injection hout with hout
        exact absurd hout.symm hf
      · rw [run_cons hb hf1] at hrun
        injection hrun with hout hend
        injection hout with hout hrest
        rw [hout]
        exact ⟨b1, rfl, Prod.ext hrest hend, fun e he => hfaults e (List.mem_cons_of_mem _ he)⟩
  · intro h
    obtain ⟨hf, b1, hcall, hrun, hfaults⟩ := h
    refine ⟨?_, fun e he => ?_⟩
    · rw [List.map_cons, run_cons hcall hf, hrun]
      rfl
    · rcases List.mem_cons.1 he with rfl | he
      · exact hf
      · exact hfaults e he

theorem runs_append : b.Runs (before ++ after) b' ↔ ∃ b1, b.Runs before b1 ∧ b1.Runs after b' := by
  induction before generalizing b with
  | nil =>
    rw [List.nil_append]
    constructor
    · intro h
      exact ⟨b, runs_nil.2 rfl, h⟩
    · intro h
      obtain ⟨b1, h1, h⟩ := h
      rwa [runs_nil.1 h1] at h
  | cons e before ih =>
    rw [List.cons_append, runs_cons]
    constructor
    · intro h
      obtain ⟨hf, b1, hcall, h⟩ := h
      obtain ⟨b2, h2, h⟩ := ih.1 h
      exact ⟨b2, runs_cons.2 ⟨hf, b1, hcall, h2⟩, h⟩
    · intro h
      obtain ⟨b2, h2, h⟩ := h
      obtain ⟨hf, b1, hcall, h1⟩ := runs_cons.1 h2
      exact ⟨hf, b1, hcall, ih.2 ⟨b2, h1, h⟩⟩

theorem Runs.grows (h : b.Runs events b') (hreset : ∀ e ∈ events, e.1 ≠ .reset) : b.Grows b' := by
  have hcalls : Call.reset ∉ events.map Prod.fst := by
    intro hmem
    obtain ⟨e, he, hc⟩ := List.mem_map.1 hmem
    exact hreset e he hc
  have hgrows := run_grows b hcalls
  rw [h.1] at hgrows
  exact hgrows

theorem Runs.sound (h : b.Runs events b') (hb : b.Sound) : b'.Sound := by
  induction events generalizing b with
  | nil =>
    rw [runs_nil.1 h]
    exact hb
  | cons e events ih =>
    obtain ⟨-, b1, hcall, h⟩ := runs_cons.1 h
    have hb1 := hb.call e.1
    rw [hcall] at hb1
    exact ih h hb1

/-- Around each event of a run stand the builders before and after its call. -/
theorem Runs.of_mem {e : Event} (h : b.Runs events b') (he : e ∈ events) :
    ∃ before b1 b2 after, events = before ++ e :: after ∧ b.Runs before b1 ∧ b1.call e.1 = (e.2, b2) ∧
      b2.Runs after b' := by
  obtain ⟨before, after, rfl⟩ := List.append_of_mem he
  obtain ⟨b1, hbefore, h⟩ := runs_append.1 h
  obtain ⟨-, b2, hcall, hafter⟩ := runs_cons.1 h
  exact ⟨before, b1, b2, after, rfl, hbefore, hcall, hafter⟩

theorem Runs.unique {b1 b2 : Builder} (h1 : b.Runs events b1) (h2 : b.Runs events b2) : b1 = b2 :=
  congrArg Prod.snd (h1.1.symm.trans h2.1)

/-- In a run of the events, after those `before`, the call of the event `e` took `b1` to `b2`. -/
structure Moment (b : Builder) (events before : List Event) (b1 : Builder) (e : Event) (b2 : Builder) :
    Prop where
  among : before ++ [e] <+: events
  run : b.Runs before b1
  call : b1.call e.1 = (e.2, b2)

theorem Runs.moment {e : Event} (h : b.Runs events b') (he : e ∈ events) :
    ∃ before b1 b2, b.Moment events before b1 e b2 := by
  obtain ⟨before, b1, b2, after, rfl, hbefore, hcall, -⟩ := h.of_mem he
  exact ⟨before, b1, b2, ⟨after, List.append_assoc ..⟩, hbefore, hcall⟩

/-- What holds before the first call and is kept by each holds at the end of a run. -/
theorem Runs.induct {P : List Event → Builder → Prop} (h : b.Runs events b') (start : P [] b)
    (step : ∀ before b1 e b2, b.Moment events before b1 e b2 → P before b1 → P (before ++ [e]) b2) :
    P events b' := by
  have hrest : ∀ rest before c, events = before ++ rest → b.Runs before c → c.Runs rest b' → P before c →
      P events b' := by
    intro rest
    induction rest with
    | nil =>
      intro before c hevents _ hrun hc
      rw [hevents, List.append_nil, runs_nil.1 hrun]
      exact hc
    | cons e rest ih =>
      intro before c hevents hbefore hrun hc
      rw [← List.singleton_append, ← List.append_assoc] at hevents
      obtain ⟨hfault, c1, hcall, hrun⟩ := runs_cons.1 hrun
      have hlonger : b.Runs (before ++ [e]) c1 :=
        runs_append.2 ⟨c, hbefore, runs_cons.2 ⟨hfault, c1, hcall, runs_nil.2 rfl⟩⟩
      have hmoment : b.Moment events before c e c1 := ⟨⟨rest, hevents.symm⟩, hbefore, hcall⟩
      exact ih _ c1 hevents hlonger hrun (step _ _ _ _ hmoment hc)
  exact hrest events [] b rfl (runs_nil.2 rfl) h start

namespace Moment

variable {b1 b2 : Builder} {e : Event} (h : b.Moment events before b1 e b2)

include h

theorem mem : e ∈ events :=
  h.among.subset (List.mem_append_right _ (List.mem_singleton.2 rfl))

theorem mem_of_before {e : Event} (he : e ∈ before) : e ∈ events :=
  h.among.subset (List.mem_append_left _ he)

section

variable (hreset : ∀ e ∈ events, e.1 ≠ .reset)

include hreset

theorem grows_before : b.Grows b1 :=
  h.run.grows fun _ he => hreset _ (h.mem_of_before he)

theorem order_eq : b1.order = b.order := (h.grows_before hreset).order

theorem options_eq : b1.options = b.options := (h.grows_before hreset).options

/-- What the call left is there at the end of the run. -/
theorem grows_after (hrun : b.Runs events b') : b2.Grows b' := by
  obtain ⟨after, rfl⟩ := h.among
  obtain ⟨c, hfirst, hafter⟩ := runs_append.1 hrun
  obtain ⟨c1, hbefore, hcall⟩ := runs_append.1 hfirst
  obtain ⟨-, c2, hcall, hnil⟩ := runs_cons.1 hcall
  obtain rfl := runs_nil.1 hnil
  obtain rfl := h.run.unique hbefore
  obtain rfl : c = b2 := congrArg Prod.snd (hcall.symm.trans h.call)
  exact hafter.grows fun _ he => hreset _ (List.mem_append_right _ he)

end

theorem sound (hb : b.Sound) : b1.Sound := h.run.sound hb

/-- A moment of a part of the run is one of the run. -/
theorem mono {longer : List Event} (hlonger : events <+: longer) : b.Moment longer before b1 e b2 :=
  ⟨h.among.trans hlonger, h.run, h.call⟩

theorem later {b0 : Builder} {earlier : List Event} (hrun : b0.Runs earlier b) :
    b0.Moment (earlier ++ events) (earlier ++ before) b1 e b2 where
  among := by
    rw [List.append_assoc]
    exact (List.prefix_append_right_inj earlier).2 h.among
  run := runs_append.2 ⟨b, hrun, h.run⟩
  call := h.call

end Moment

/-- The last call of a run is one of its moments. -/
theorem Runs.last_moment {e : Event} (h : b.Runs (events ++ [e]) b') :
    ∃ b1, b.Runs events b1 ∧ b.Moment (events ++ [e]) events b1 e b' := by
  obtain ⟨b1, hbefore, hlast⟩ := runs_append.1 h
  obtain ⟨-, b2, hcall, hnil⟩ := runs_cons.1 hlast
  obtain rfl := runs_nil.1 hnil
  exact ⟨b1, hbefore, List.prefix_refl _, hbefore, hcall⟩

end Builder

end TableBuffer
